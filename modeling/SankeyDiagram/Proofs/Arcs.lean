import Mathlib.Data.List.Nodup
import Mathlib.Data.List.Perm.Subperm
import Mathlib.Data.Nat.SuccPred
import Mathlib.Logic.Relation
import Mathlib.Order.SuccPred.Archimedean
import SankeyDiagram.Diagram.Basic

/-! # Arcs

The directed graph that the links of a diagram make, as a list of ordered pairs of nodes: ways
through it, cycles, and the longest walks of a graph without cycles.

* **`Reaches`** a way of any length, zero included; **`reaches_append_iff`** says what one more arc
  adds to it.
* **`Acyclic`** no way of positive length returns to its start; **`Acyclic.append_arc`** an arc
  whose end does not reach its start closes no cycle.
* **`Walk`** a way with its length; **`Walk.length_lt`** without cycles it is shorter than the
  number of nodes.
* **`lengthsTo`**, **`lengths`** the lengths of the walks to a node, and of all walks; without
  cycles there are longest ones (**`Acyclic.exists_longestTo`**, **`Acyclic.exists_longest`**). -/

namespace SankeyDiagram

/-- Nodes are told by their positions: `NodeId.index` is injective. -/
theorem NodeId.index_inj {a b : NodeId} : a.index = b.index ↔ a = b :=
  ⟨fun h => congrArg NodeId.mk h, congrArg NodeId.index⟩

/-- An ordered pair of nodes: where something starts and where it ends. -/
abbrev Arc := NodeId × NodeId

/-- The nodes that a link joins. -/
def Link.arc {α : Type} (l : Link α) : Arc := (l.source, l.target)

/-- The nodes that a flow left out would join. -/
def CircularLink.arc {α : Type} (c : CircularLink α) : Arc := (c.source, c.target)

/-- `l.joins source target` holds iff the arc of `l` is `(source, target)`. -/
theorem Link.joins_iff {α : Type} (l : Link α) (source target : NodeId) :
    l.joins source target ↔ l.arc = (source, target) := by
  simp [joins, arc]

/-- All nodes at the ends of arcs are among the first `n`. -/
def ArcsBelow (n : Nat) (arcs : List Arc) : Prop :=
  ∀ arc ∈ arcs, arc.1.index < n ∧ arc.2.index < n

/-- `ArcsBelow n` passes on to some of the arcs. -/
theorem ArcsBelow.of_subset {n : Nat} {arcs more : List Arc} (h : ArcsBelow n more)
    (hsub : arcs ⊆ more) : ArcsBelow n arcs :=
  fun arc harc => h arc (hsub harc)

/-- `ArcsBelow n` of the arcs of `xs ++ ys` passes on to those of `xs`. -/
theorem ArcsBelow.of_map_append {β : Type} {n : Nat} {arc : β → Arc} {xs ys : List β}
    (h : ArcsBelow n ((xs ++ ys).map arc)) : ArcsBelow n (xs.map arc) :=
  h.of_subset (List.map_subset arc (List.subset_append_left xs ys))

/-! ## Ways -/

/-- A way of any length, zero included, leads from a node to another. -/
def Reaches (arcs : List Arc) : NodeId → NodeId → Prop :=
  Relation.ReflTransGen fun a b => (a, b) ∈ arcs

/-- No way of positive length returns to its start. -/
def Acyclic (arcs : List Arc) : Prop :=
  ∀ a, ¬ Relation.TransGen (fun a b => (a, b) ∈ arcs) a a

variable {arcs more : List Arc} {a b c s t : NodeId}

namespace Reaches

/-- Every node reaches itself. -/
theorem refl (a : NodeId) : Reaches arcs a a :=
  Relation.ReflTransGen.refl

/-- An arc from `a` to `b` is a way from `a` to `b`. -/
theorem of_mem (h : (a, b) ∈ arcs) : Reaches arcs a b :=
  Relation.ReflTransGen.single h

/-- A way from `a` to `b` and one from `b` to `c` make a way from `a` to `c`. -/
theorem trans (hab : Reaches arcs a b) (hbc : Reaches arcs b c) : Reaches arcs a c :=
  Relation.ReflTransGen.trans hab hbc

/-- A way along `arcs` is a way along any arcs that contain them. -/
theorem mono (h : arcs ⊆ more) (hab : Reaches arcs a b) : Reaches more a b :=
  Relation.ReflTransGen.mono (fun _ _ hm => h hm) a b hab

/-- A way and an arc behind it make a way of positive length, as `Relation.TransGen` has it. -/
theorem transGen (hab : Reaches arcs a b) (hbc : (b, c) ∈ arcs) :
    Relation.TransGen (fun a b => (a, b) ∈ arcs) a c :=
  Relation.TransGen.tail' hab hbc

end Reaches

/-- With one more arc `(s, t)`, `a` reaches what it reached before, and if it reaches `s`, what `t`
reaches. -/
theorem reaches_append_iff :
    Reaches (arcs ++ [(s, t)]) a b
      ↔ Reaches arcs a b ∨ (Reaches arcs a s ∧ Reaches arcs t b) := by
  constructor
  · intro h
    -- the way is taken from its start on, arc by arc
    induction h with
    | refl => exact Or.inl (Reaches.refl a)
    | tail _ hbc ih =>
      rw [List.mem_append, List.mem_singleton, Prod.mk.injEq] at hbc
      -- the last arc is an old one or the new one; either may follow a way of either form
      rcases hbc with hbc | ⟨rfl, rfl⟩
      · exact ih.imp (·.trans (.of_mem hbc)) fun h => ⟨h.1, h.2.trans (.of_mem hbc)⟩
      · exact Or.inr ⟨ih.elim id fun h => h.1, Reaches.refl _⟩
  · have old : arcs ⊆ arcs ++ [(s, t)] := List.subset_append_left ..
    rintro (h | ⟨has, htb⟩)
    · exact h.mono old
    · exact ((has.mono old).trans (.of_mem (by simp))).trans (htb.mono old)

/-! ## Cycles -/

/-- `Acyclic arcs` holds iff the end of no arc reaches its start. -/
theorem acyclic_iff : Acyclic arcs ↔ ∀ arc ∈ arcs, ¬ Reaches arcs arc.2 arc.1 := by
  constructor
  · rintro h ⟨a, b⟩ hab hba
    exact h b (hba.transGen hab)
  · intro h a haa
    rw [Relation.TransGen.tail'_iff] at haa
    obtain ⟨b, hab, hba⟩ := haa
    exact h (b, a) hba hab

/-- No arcs make no cycle. -/
theorem acyclic_nil : Acyclic [] := by
  simp [acyclic_iff]

/-- `Acyclic` passes on to fewer arcs. -/
theorem Acyclic.mono (h : Acyclic more) (hsub : arcs ⊆ more) : Acyclic arcs := by
  rw [acyclic_iff] at h ⊢
  intro arc harc hback
  exact h arc (hsub harc) (hback.mono hsub)

/-- `(s, t)` closes no cycle unless `t` reaches `s`. -/
theorem Acyclic.append_arc (h : Acyclic arcs) (hts : ¬ Reaches arcs t s) :
    Acyclic (arcs ++ [(s, t)]) := by
  rw [acyclic_iff] at h ⊢
  rintro ⟨a, b⟩ hab hba
  rw [reaches_append_iff] at hba
  rw [List.mem_append, List.mem_singleton, Prod.mk.injEq] at hab
  rcases hab with hab | ⟨rfl, rfl⟩
  · rcases hba with hba | ⟨hbs, hta⟩
    · exact h (a, b) hab hba
    · -- a way back by the new arc would have led from its end to its start before
      exact hts ((hta.trans (.of_mem hab)).trans hbs)
  · exact hts (hba.elim id fun h => h.1)

/-! ## Walks -/

/-- A way of a given number of arcs leads from a node to another. -/
inductive Walk (arcs : List Arc) : Nat → NodeId → NodeId → Prop where
  /-- No arc leads anywhere else. -/
  | here (a : NodeId) : Walk arcs 0 a a
  /-- One more arc. -/
  | step {k : Nat} {a b c : NodeId} : Walk arcs k a b → (b, c) ∈ arcs → Walk arcs (k + 1) a c

namespace Walk

variable {j k n : Nat}

/-- A `Walk` of `j` arcs and one of `k` arcs behind it make a `Walk` of `j + k` arcs. -/
theorem append (hab : Walk arcs j a b) (hbc : Walk arcs k b c) : Walk arcs (j + k) a c := by
  induction hbc with
  | here => exact hab
  | step _ hcd ih => exact (ih hab).step hcd

/-- A `Walk` along `arcs` is one along any arcs that contain them. -/
theorem mono (h : Walk arcs k a b) (hsub : arcs ⊆ more) : Walk more k a b := by
  induction h with
  | here a => exact here a
  | step _ hbc ih => exact ih.step (hsub hbc)

/-- An arc in front of a `Walk` of `k` arcs makes a `Walk` of `k + 1`. -/
theorem cons (hab : (a, b) ∈ arcs) (hbc : Walk arcs k b c) : Walk arcs (k + 1) a c := by
  rw [Nat.add_comm]
  exact ((here a).step hab).append hbc

/-- A `Walk` of `j + k` arcs passes through a node after `j` of them. -/
theorem split (h : Walk arcs (j + k) a c) : ∃ b, Walk arcs j a b ∧ Walk arcs k b c := by
  induction k generalizing c with
  | zero => exact ⟨c, h, here c⟩
  | succ k ih =>
    obtain _ | ⟨hab, hbc⟩ := h
    obtain ⟨m, ham, hmb⟩ := ih hab
    exact ⟨m, ham, hmb.step hbc⟩

/-- A walk to one of the first `n` nodes starts at one of them. -/
theorem start_lt (hn : ArcsBelow n arcs) (h : Walk arcs k a b) (hb : b.index < n) :
    a.index < n := by
  induction h with
  | here => exact hb
  | step _ hbc ih => exact ih (hn _ hbc).1

/-- A walk from one of the first `n` nodes ends at one of them. -/
theorem end_lt (hn : ArcsBelow n arcs) (h : Walk arcs k a b) (ha : a.index < n) :
    b.index < n := by
  cases h with
  | here => exact ha
  | step _ hbc => exact (hn _ hbc).2

/-- A `Walk` of `k + 1` arcs starts with an arc. -/
theorem exists_first (h : Walk arcs (k + 1) a c) : ∃ b, (a, b) ∈ arcs := by
  rw [Nat.add_comm] at h
  obtain ⟨b, hab, -⟩ := h.split
  cases hab with
  | step haa hab =>
    cases haa
    exact ⟨b, hab⟩

/-- Without cycles a `Walk` of `k` arcs passes through `k + 1` nodes, each of which reaches its
end. -/
theorem exists_passed (hac : Acyclic arcs) (hn : ArcsBelow n arcs) (h : Walk arcs k a b)
    (ha : a.index < n) :
    ∃ passed : List NodeId, passed.length = k + 1 ∧ passed.Nodup ∧
      ∀ m ∈ passed, m.index < n ∧ Reaches arcs m b := by
  induction h with
  | here a => exact ⟨[a], rfl, List.nodup_singleton a, by simpa using ⟨ha, Reaches.refl a⟩⟩
  | @step k a b c _ hbc ih =>
    obtain ⟨passed, hlen, hnd, hall⟩ := ih ha
    refine ⟨c :: passed, by simp [hlen], List.nodup_cons.2 ⟨fun hc => ?_, hnd⟩, ?_⟩
    · -- a node that was passed leads to `b`, so `c` closes a cycle there
      exact hac c ((hall c hc).2.transGen hbc)
    · rintro m hm
      rcases List.mem_cons.1 hm with rfl | hm
      · exact ⟨(hn _ hbc).2, Reaches.refl m⟩
      · exact ⟨(hall m hm).1, (hall m hm).2.trans (.of_mem hbc)⟩

/-- Without cycles a walk between the first `n` nodes has fewer than `n` arcs. -/
theorem length_lt (hac : Acyclic arcs) (hn : ArcsBelow n arcs) (h : Walk arcs k a b)
    (ha : a.index < n) : k < n := by
  obtain ⟨passed, hlen, hnd, hall⟩ := h.exists_passed hac hn ha
  have hsub : passed ⊆ (List.range n).map NodeId.mk := by
    intro m hm
    exact List.mem_map.2 ⟨m.index, List.mem_range.2 (hall m hm).1, rfl⟩
  have hle := (hnd.subperm hsub).length_le
  rw [List.length_map, List.length_range, hlen] at hle
  exact hle

end Walk

/-- The lengths of the walks that end at a node. -/
def lengthsTo (arcs : List Arc) (b : NodeId) : Set Nat := {k | ∃ a, Walk arcs k a b}

/-- The lengths of all walks. -/
def lengths (arcs : List Arc) : Set Nat := {k | ∃ b, k ∈ lengthsTo arcs b}

/-- A longest walk has beginnings of all lengths, so `lengths arcs` holds all numbers up to its
length. -/
theorem mem_lengths_iff_le {k m : Nat} (hm : IsGreatest (lengths arcs) m) :
    k ∈ lengths arcs ↔ k ≤ m := by
  constructor
  · intro hk
    exact hm.2 hk
  · intro hk
    obtain ⟨b, a, hab⟩ := hm.1
    obtain ⟨j, rfl⟩ := Nat.exists_eq_add_of_le hk
    obtain ⟨c, hac, -⟩ := hab.split
    exact ⟨c, a, hac⟩

namespace Acyclic

variable {k n : Nat}

/-- Without cycles the numbers in `lengthsTo arcs b` are below the number of nodes. -/
theorem lengthsTo_lt (hac : Acyclic arcs) (hn : ArcsBelow n arcs) (hb : b.index < n)
    (hk : k ∈ lengthsTo arcs b) : k < n := by
  obtain ⟨a, h⟩ := hk
  exact h.length_lt hac hn (h.start_lt hn hb)

/-- Without cycles one of the walks to `b` is longest. -/
theorem exists_longestTo (hac : Acyclic arcs) (hn : ArcsBelow n arcs) (hb : b.index < n) :
    ∃ m, IsGreatest (lengthsTo arcs b) m :=
  BddAbove.exists_isGreatest_of_nonempty ⟨n, fun _ hk => (hac.lengthsTo_lt hn hb hk).le⟩
    ⟨0, b, .here b⟩

/-- Without cycles the numbers in `lengths arcs` are below the number of nodes, if there are
nodes. -/
theorem lengths_lt (hac : Acyclic arcs) (hn : ArcsBelow n arcs) (hpos : 0 < n)
    (hk : k ∈ lengths arcs) : k < n := by
  obtain ⟨b, a, h⟩ := hk
  cases h with
  | here => exact hpos
  | step h hbc => exact (h.step hbc).length_lt hac hn (h.start_lt hn (hn _ hbc).1)

/-- Without cycles one of all walks is longest, if there are nodes. -/
theorem exists_longest (hac : Acyclic arcs) (hn : ArcsBelow n arcs) (hpos : 0 < n) :
    ∃ m, IsGreatest (lengths arcs) m :=
  BddAbove.exists_isGreatest_of_nonempty ⟨n, fun _ hk => (hac.lengths_lt hn hpos hk).le⟩
    ⟨0, ⟨0⟩, ⟨0⟩, .here _⟩

end Acyclic

end SankeyDiagram
