import SankeyDiagram.Diagram.Basic

/-! # Reachability

A depth-first search through a table of successors.

## Main definitions

* **`Successors`** the nodes that each node leads to.
* **`Search`** what a search found, and which nodes it put on its stack.
* **`Successors.explore`** the search, started from any stack.
* **`Successors.reaches`** whether a way of any length, zero included, leads from a node to another.
-/

namespace SankeyDiagram

/-- The nodes that each node leads to, by the position of the node. -/
abbrev Successors := Array (List NodeId)

/-- What a search found. -/
structure Search where
  /-- Whether the search met its goal. -/
  found : Bool
  /-- The nodes that the search put on its stack, the latest first. -/
  pushed : List NodeId
deriving DecidableEq, Repr

namespace Successors

/-- The nodes that a node leads to; a position outside of the table leads nowhere. -/
def of (table : Successors) (id : NodeId) : List NodeId :=
  table.getD id.index []

/-- The nodes among some that are in the table and were not pushed yet, each once. -/
def fresh (table : Successors) (pushed : List NodeId) : List NodeId → List NodeId
  | [] => []
  | id :: next =>
    if id.index < table.size ∧ id ∉ pushed then id :: fresh table (id :: pushed) next
    else fresh table pushed next

/-- How many positions of the table were not pushed yet. -/
def unpushed (table : Successors) (pushed : List NodeId) : Nat :=
  (List.range table.size).countP fun i => !pushed.contains ⟨i⟩

/-! ### The search ends -/

/-- One more node of the table in `pushed` leaves `unpushed` one node less. -/
theorem unpushed_cons (table : Successors) {pushed : List NodeId} {id : NodeId}
    (h : id.index < table.size) (hp : id ∉ pushed) :
    unpushed table (id :: pushed) + 1 = unpushed table pushed := by
  -- by induction on the number of positions that are counted: one of them is that of `id`
  have split : ∀ n, id.index < n →
      (List.range n).countP (fun i => !(id :: pushed).contains ⟨i⟩) + 1
        = (List.range n).countP (fun i => !pushed.contains ⟨i⟩) := by
    intro n hn
    induction n with
    | zero => omega
    | succ n ih =>
      simp only [List.range_succ, List.countP_append, List.countP_singleton]
      by_cases hlt : id.index < n
      · have hne : (⟨n⟩ : NodeId) ≠ id := by
          intro he
          rw [← he] at hlt
          simp at hlt
        have := ih hlt
        simp only [List.contains_cons, Bool.not_or, beq_eq_false_iff_ne.2 hne, Bool.not_false,
          Bool.true_and] at this ⊢
        omega
      · have he : (⟨n⟩ : NodeId) = id := by
          have : n = id.index := by omega
          rw [this]
        have hsame : (List.range n).countP (fun i => !(id :: pushed).contains ⟨i⟩)
            = (List.range n).countP (fun i => !pushed.contains ⟨i⟩) := by
          apply List.countP_congr
          intro i hi
          have hne : (⟨i⟩ : NodeId) ≠ id := by
            intro h'
            have : i = id.index := by rw [← h']
            simp at hi
            omega
          simp [hne]
        have hin : pushed.contains (⟨n⟩ : NodeId) = false := by
          rw [he]
          simpa using hp
        rw [hsame, hin]
        simp [he]
  exact split table.size h

/-- Distinct new nodes of the table in `pushed` leave `unpushed` that many nodes less. -/
theorem unpushed_append (table : Successors) (pushed : List NodeId) :
    ∀ new : List NodeId, new.Nodup → (∀ id ∈ new, id.index < table.size ∧ id ∉ pushed) →
      unpushed table (new ++ pushed) + new.length = unpushed table pushed
  | [], _, _ => by simp
  | id :: new, hd, h => by
    have hd' := List.nodup_cons.1 hd
    have ih := unpushed_append table pushed new hd'.2 fun j hj => h j (List.mem_cons_of_mem _ hj)
    have hid := h id List.mem_cons_self
    have fresh : id ∉ new ++ pushed := by simp [hd'.1, hid.2]
    have step := unpushed_cons table hid.1 fresh
    simp only [List.cons_append, List.length_cons]
    omega

/-- `fresh` keeps the nodes of the table that are not in `pushed`. -/
theorem mem_fresh {table : Successors} {pushed next : List NodeId} {id : NodeId} :
    id ∈ fresh table pushed next ↔ id ∈ next ∧ id.index < table.size ∧ id ∉ pushed := by
  fun_induction fresh table pushed next with
  | case1 => simp
  | case2 pushed head next h ih =>
    by_cases he : id = head
    · subst he; simp [h]
    · simp [ih, he]
  | case3 pushed head next h ih =>
    by_cases he : id = head
    · subst he; simp [ih, h]
    · simp [ih, he]

/-- `fresh` holds each node once. -/
theorem nodup_fresh (table : Successors) (pushed next : List NodeId) :
    (fresh table pushed next).Nodup := by
  fun_induction fresh table pushed next with
  | case1 => simp
  | case2 pushed head next h ih => exact List.nodup_cons.2 ⟨by simp [mem_fresh], ih⟩
  | case3 pushed head next h ih => exact ih

/-- Goes on with a search: the nodes on the stack are still to be looked at, and every node that
was ever on it counts as pushed. -/
def explore (table : Successors) (goal : NodeId) (pushed : List NodeId) :
    List NodeId → Search
  | [] => ⟨false, pushed⟩
  | id :: stack =>
    let next := table.of id
    if goal ∈ next then ⟨true, pushed⟩
    else
      let new := (fresh table pushed next).reverse
      explore table goal (new ++ pushed) (new ++ stack)
termination_by stack => 2 * unpushed table pushed + stack.length
decreasing_by
  have h := unpushed_append table pushed (fresh table pushed (table.of id)).reverse
    (List.pairwise_reverse.2 ((nodup_fresh ..).imp Ne.symm))
    (fun j hj => by
      have := mem_fresh.1 (List.mem_reverse.1 hj)
      exact this.2)
  simp only [List.length_append, List.length_cons]
  omega

/-- The search for a node from another. -/
def search (table : Successors) (start goal : NodeId) : Search :=
  if start = goal then ⟨true, []⟩ else explore table goal [start] [start]

/-- Whether a way of any length, zero included, leads from a node to another. -/
def reaches (table : Successors) (start goal : NodeId) : Bool :=
  (table.search start goal).found

end Successors

end SankeyDiagram
