import Mathlib.Data.List.Induction
import SankeyDiagram.Diagram.Assembly
import SankeyDiagram.Proofs.Reach

/-! # Taking flows

What the links and the flows left out say about the flows that were taken so far. One step is taken
apart into its three outcomes, an invariant ties the outcome to the flows, and the whole run keeps
it.

* **`occurrences`** the flows between two nodes, with their positions.
* **`Link.ofOccurrences`** the link that such flows share.
* **`Intake.take_cases`** a flow is absorbed, left out, or gets a link.
* **`Intake.Accounts`** the invariant: links make no cycle, a flow left out would close one, and the
  flows between two nodes are either all in one link or all left out.
* **`Intake.Accounts.takeAll`** it holds after any number of flows. -/

namespace SankeyDiagram

variable {α : Type}

/-! ## Flows between two nodes -/

/-- The nodes that a flow joins. -/
def ResolvedFlow.arc (flow : ResolvedFlow α) : Arc := (flow.source, flow.target)

/-- A flow as one that is left out. -/
def ResolvedFlow.leftOut (flow : ResolvedFlow α) (position : Nat) : CircularLink α :=
  ⟨flow.source, flow.target, flow.value, position⟩

/-- A flow that is left out keeps its arc. -/
@[simp] theorem ResolvedFlow.arc_leftOut (flow : ResolvedFlow α) (position : Nat) :
    (flow.leftOut position).arc = flow.arc := rfl

/-- The flows between two nodes, with their positions. -/
def occurrences (flows : List (ResolvedFlow α)) (arc : Arc) : List (ResolvedFlow α × Nat) :=
  flows.zipIdx.filter fun o => o.1.arc = arc

/-- `occurrences flows arc` holds the flows with the arc `arc`, each with its position in
`flows`. -/
theorem mem_occurrences {flows : List (ResolvedFlow α)} {arc : Arc} {o : ResolvedFlow α × Nat} :
    o ∈ occurrences flows arc ↔ flows[o.2]? = some o.1 ∧ o.1.arc = arc := by
  obtain ⟨flow, position⟩ := o
  rw [occurrences, List.mem_filter, List.mk_mem_zipIdx_iff_getElem?, decide_eq_true_eq]

/-- Without their positions, `occurrences flows arc` are the flows of `flows` with the arc `arc`. -/
theorem map_fst_occurrences (flows : List (ResolvedFlow α)) (arc : Arc) :
    (occurrences flows arc).map Prod.fst = flows.filter fun flow => flow.arc = arc := by
  conv_rhs => rw [← List.zipIdx_map_fst 0 flows, List.filter_map]
  rfl

/-- `occurrences flows arc` are at most as many as `flows`. -/
theorem length_occurrences_le (flows : List (ResolvedFlow α)) (arc : Arc) :
    (occurrences flows arc).length ≤ flows.length :=
  (List.length_filter_le ..).trans_eq List.length_zipIdx

/-- One more flow with the arc `flow.arc` comes last in `occurrences`. -/
theorem occurrences_append_self (flows : List (ResolvedFlow α)) (flow : ResolvedFlow α) :
    occurrences (flows ++ [flow]) flow.arc
      = occurrences flows flow.arc ++ [(flow, flows.length)] := by
  simp [occurrences, List.zipIdx_append]

/-- One more flow with another arc leaves `occurrences flows arc` as they are. -/
theorem occurrences_append_of_ne (flows : List (ResolvedFlow α)) {flow : ResolvedFlow α} {arc : Arc}
    (h : flow.arc ≠ arc) : occurrences (flows ++ [flow]) arc = occurrences flows arc := by
  simp [occurrences, List.zipIdx_append, h]

namespace Intake

/-! ## Links by their nodes -/

/-- The arcs of the links. -/
def arcs (s : Intake α) : List Arc := s.links.map Link.arc

/-- The links between two nodes. -/
def linksBetween (s : Intake α) (arc : Arc) : List (Link α) :=
  s.links.filter fun l => l.arc = arc

/-- The flows left out between two nodes. -/
def circularBetween (s : Intake α) (arc : Arc) : List (CircularLink α) :=
  s.circularLinks.filter fun c => c.arc = arc

/-- The arcs of the links whose first flows come before a position. -/
def arcsBefore (s : Intake α) (position : Nat) : List Arc :=
  (s.links.filter fun l => l.inputIndex < position).map Link.arc

/-- `s.arcsBefore position` are some of the arcs of `s`. -/
theorem arcsBefore_subset (s : Intake α) (position : Nat) : s.arcsBefore position ⊆ s.arcs :=
  List.map_subset _ (List.filter_subset_self _)

/-- `arc` is one of the arcs of `s` iff `s.linksBetween arc` is not empty. -/
theorem mem_arcs_iff (s : Intake α) {arc : Arc} : arc ∈ s.arcs ↔ s.linksBetween arc ≠ [] := by
  rw [arcs, List.mem_map, linksBetween, ne_eq, List.filter_eq_nil_iff]
  simp

/-! ## The table of successors -/

/-- `successors n links` has `n` rows. -/
@[simp] theorem size_successors (n : Nat) (links : List (Link α)) :
    (successors n links).size = n := by
  induction links using List.reverseRecOn with
  | nil => simp [successors]
  | append_singleton links l ih =>
    rw [successors, List.foldl_append] at *
    simpa using ih

/-- One more link `l` adds `l.target` to the row of `l.source`, and nothing else. -/
theorem of_successors_append (n : Nat) (links : List (Link α)) (l : Link α) (a : NodeId) :
    (successors n (links ++ [l])).of a =
      if l.source = a ∧ a.index < n then (successors n links).of a ++ [l.target]
      else (successors n links).of a := by
  have hfold : successors n (links ++ [l])
      = (successors n links).modify l.source.index (· ++ [l.target]) := by
    rw [successors, List.foldl_append]
    rfl
  have hindex : l.source.index = a.index ↔ l.source = a := by
    cases l.source
    cases a
    simp
  rw [hfold, Successors.of, Successors.of, Array.getD_eq_getD_getElem?,
    Array.getD_eq_getD_getElem?, Array.getElem?_modify]
  -- only the row of the start changes, and only if the table has one
  by_cases ha : a.index < n
  · by_cases hs : l.source = a <;> simp [ha, hs, hindex]
  · simp [ha]

/-- The row of `a` in `successors n links` holds the ends of the links that leave `a`. -/
theorem mem_of_successors {n : Nat} {links : List (Link α)} {a b : NodeId} :
    b ∈ (successors n links).of a ↔ a.index < n ∧ (a, b) ∈ links.map Link.arc := by
  induction links using List.reverseRecOn with
  | nil =>
    rw [successors, Successors.of, List.foldl_nil, Array.getD_eq_getD_getElem?,
      Array.getElem?_replicate]
    split <;> simp
  | append_singleton links l ih =>
    -- links are entered one by one, so that the last one decides its source only
    rw [of_successors_append, List.map_append, List.mem_append, List.map_singleton,
      List.mem_singleton, Link.arc, Prod.mk.injEq]
    split
    case isTrue h =>
      rw [List.mem_append, List.mem_singleton, ih]
      grind
    case isFalse h =>
      rw [ih]
      grind

/-- A search in `successors n links` finds its goal iff a way along the arcs of `links` leads
there. -/
theorem reaches_successors_iff {n : Nat} {links : List (Link α)}
    (hn : ArcsBelow n (links.map Link.arc)) {a b : NodeId} :
    (successors n links).reaches a b = true ↔ Reaches (links.map Link.arc) a b := by
  have hclosed : (successors n links).Closed := by
    intro id next h
    rw [size_successors]
    exact (hn _ (mem_of_successors.1 h).2).2
  have hmem : ∀ a b, (a, b) ∈ (successors n links).arcs ↔ (a, b) ∈ links.map Link.arc := by
    intro a b
    rw [Successors.mem_arcs, mem_of_successors]
    exact ⟨And.right, fun h => ⟨(hn _ h).1, h⟩⟩
  rw [Successors.reaches_eq_true_iff hclosed]
  exact ⟨.mono fun arc => (hmem arc.1 arc.2).1, .mono fun arc => (hmem arc.1 arc.2).2⟩

end Intake

/-! ## The link that flows share -/

variable [Scalar α]

namespace Link

/-- The arc of `unplaced source target value inputIndex` is `(source, target)`. -/
@[simp] theorem arc_unplaced (source target : NodeId) (value : α) (inputIndex : Nat) :
    (unplaced source target value inputIndex).arc = (source, target) := rfl

/-- The link for a first flow, with later ones absorbed in order. -/
def ofOccurrences (first : ResolvedFlow α × Nat) (later : List (ResolvedFlow α × Nat)) : Link α :=
  later.foldl (fun l o => l.absorb o.1.value)
    (.unplaced first.1.source first.1.target first.1.value first.2)

/-- The link of one more flow is the link of the flows before it, which absorbs the value of the new
one. -/
theorem ofOccurrences_append (first : ResolvedFlow α × Nat) (later : List (ResolvedFlow α × Nat))
    (o : ResolvedFlow α × Nat) :
    ofOccurrences first (later ++ [o]) = (ofOccurrences first later).absorb o.1.value := by
  simp [ofOccurrences]

/-- `ofOccurrences first later` has the ends and the position of `first`; its value is the sum of
all values from that of `first` on, it counts the flows, and it is not placed. -/
theorem ofOccurrences_eq (first : ResolvedFlow α × Nat) (later : List (ResolvedFlow α × Nat)) :
    ofOccurrences first later =
      { unplaced first.1.source first.1.target
          (later.foldl (fun sum o => sum + o.1.value) first.1.value) first.2 with
        merged := UInt64.ofNat (later.length + 1) } := by
  induction later using List.reverseRecOn with
  | nil => rfl
  | append_singleton later o ih =>
    rw [ofOccurrences_append, ih]
    simp [absorb, unplaced, UInt64.ofNat_add]

end Link

/-! ## One step -/

namespace Intake

/-- The links and flows left out after a link between its nodes absorbs a flow. -/
def absorbed (s : Intake α) (flow : ResolvedFlow α) : Intake α :=
  { s with links := s.links.map fun l =>
      if l.joins flow.source flow.target then l.absorb flow.value else l }

/-- The links and flows left out after a flow is left out. -/
def excluded (s : Intake α) (flow : ResolvedFlow α) (position : Nat) : Intake α :=
  { s with circularLinks := s.circularLinks ++ [flow.leftOut position] }

/-- The links and flows left out after a flow gets a link. -/
def accepted (s : Intake α) (flow : ResolvedFlow α) (position : Nat) : Intake α :=
  { s with links := s.links ++ [.unplaced flow.source flow.target flow.value position] }

omit [Scalar α] in
/-- No link of `s` joins the nodes of a flow iff `flow.arc` is none of the arcs of `s`. -/
theorem find?_joins_eq_none_iff {s : Intake α} {flow : ResolvedFlow α} :
    s.links.find? (·.joins flow.source flow.target) = none ↔ flow.arc ∉ s.arcs := by
  simp only [List.find?_eq_none, Link.joins_iff, arcs, List.mem_map, not_exists, not_and]
  rfl

/-- `s.take n flow position` takes the flow in one of three ways: a link between its nodes absorbs
it; without such a link it is left out if its target reaches its source, and gets a link if not. -/
theorem take_cases {n : Nat} {s next : Intake α} {flow : ResolvedFlow α} {position : Nat}
    (hn : ArcsBelow n s.arcs) (h : s.take n flow position = .ok next) :
    (flow.arc ∈ s.arcs ∧ next = s.absorbed flow) ∨
    (flow.arc ∉ s.arcs ∧ Reaches s.arcs flow.target flow.source ∧
      next = s.excluded flow position) ∨
    (flow.arc ∉ s.arcs ∧ ¬ Reaches s.arcs flow.target flow.source ∧
      next = s.accepted flow position) := by
  rw [take] at h
  split at h
  case h_1 link hfind =>
    -- a link between the nodes of the flow was found, so the search for a way is not asked
    have hjoins : link.joins flow.source flow.target := by simpa using List.find?_some hfind
    have hmem : flow.arc ∈ s.arcs :=
      List.mem_map.2 ⟨link, List.mem_of_find?_eq_some hfind, (Link.joins_iff ..).1 hjoins⟩
    split at h
    · exact Or.inl ⟨hmem, (Except.ok.inj h).symm⟩
    · cases h
  case h_2 hfind =>
    have hmem : flow.arc ∉ s.arcs := find?_joins_eq_none_iff.1 hfind
    split at h
    case isTrue hreach =>
      exact Or.inr (Or.inl ⟨hmem, (reaches_successors_iff hn).1 hreach, (Except.ok.inj h).symm⟩)
    case isFalse hreach =>
      refine Or.inr (Or.inr ⟨hmem, fun hr => ?_, (Except.ok.inj h).symm⟩)
      exact hreach ((reaches_successors_iff hn).2 hr)

/-! ### What the outcomes do to the links and the flows left out between two nodes -/

variable (s : Intake α) (flow : ResolvedFlow α) (position : Nat) {arc : Arc}

/-- A link as it is after a link between the nodes of a flow absorbed it. -/
def taking (flow : ResolvedFlow α) (l : Link α) : Link α :=
  if l.joins flow.source flow.target then l.absorb flow.value else l

/-- `taking flow` keeps the arcs of links. -/
@[simp] theorem arc_taking (l : Link α) : (taking flow l).arc = l.arc := by
  rw [taking]
  split <;> rfl

/-- `taking flow` keeps the positions of links. -/
@[simp] theorem inputIndex_taking (l : Link α) :
    (taking flow l).inputIndex = l.inputIndex := by
  rw [taking]
  split <;> rfl

/-- The links of `s.absorbed flow` are those of `s`, each after `taking flow`. -/
theorem links_absorbed : (s.absorbed flow).links = s.links.map (taking flow) := rfl

/-- A flow that is absorbed adds no arc. -/
@[simp] theorem arcs_absorbed : (s.absorbed flow).arcs = s.arcs := by
  simp [arcs, links_absorbed, Function.comp_def]

/-- A flow that gets a link adds its arc behind those of `s`. -/
@[simp] theorem arcs_accepted : (s.accepted flow position).arcs = s.arcs ++ [flow.arc] := by
  simp [arcs, accepted, ResolvedFlow.arc]

/-- A link that absorbs a flow keeps its position, so `arcsBefore` is the same. -/
@[simp] theorem arcsBefore_absorbed (i : Nat) :
    (s.absorbed flow).arcsBefore i = s.arcsBefore i := by
  simp [arcsBefore, links_absorbed, List.filter_map, Function.comp_def]

/-- The links between the nodes of a flow absorb its value. -/
theorem linksBetween_absorbed_self :
    (s.absorbed flow).linksBetween flow.arc
      = (s.linksBetween flow.arc).map (·.absorb flow.value) := by
  rw [linksBetween, links_absorbed, List.filter_map]
  simp only [Function.comp_def, arc_taking]
  refine List.map_congr_left fun l hl => ?_
  have harc : l.arc = flow.arc := by simpa using (List.mem_filter.1 hl).2
  rw [taking, if_pos ((Link.joins_iff ..).2 harc)]

/-- The links between other nodes than those of `flow` are the same in `s.absorbed flow`. -/
theorem linksBetween_absorbed_of_ne (h : flow.arc ≠ arc) :
    (s.absorbed flow).linksBetween arc = s.linksBetween arc := by
  rw [linksBetween, links_absorbed, List.filter_map]
  simp only [Function.comp_def, arc_taking]
  refine (List.map_congr_left fun l hl => ?_).trans (List.map_id _)
  have harc : l.arc = arc := by simpa using (List.mem_filter.1 hl).2
  rw [taking, if_neg, id]
  intro hjoins
  exact h (((Link.joins_iff ..).1 hjoins).symm.trans harc)

omit [Scalar α] in
/-- Among the flows left out between its nodes, `flow.leftOut position` comes last. -/
theorem circularBetween_excluded_self :
    (s.excluded flow position).circularBetween flow.arc
      = s.circularBetween flow.arc ++ [flow.leftOut position] := by
  simp [circularBetween, excluded]

omit [Scalar α] in
/-- Between other nodes than those of `flow` the same flows are left out in `s.excluded`. -/
theorem circularBetween_excluded_of_ne (h : flow.arc ≠ arc) :
    (s.excluded flow position).circularBetween arc = s.circularBetween arc := by
  simp [circularBetween, excluded, h]

/-- The link of a flow that is accepted comes last between its nodes, and is the link of this flow
alone. -/
theorem linksBetween_accepted_self :
    (s.accepted flow position).linksBetween flow.arc
      = s.linksBetween flow.arc ++ [.ofOccurrences (flow, position) []] := by
  simp [linksBetween, accepted, ResolvedFlow.arc, Link.ofOccurrences]

/-- The links between other nodes than those of `flow` are the same in `s.accepted`. -/
theorem linksBetween_accepted_of_ne (h : flow.arc ≠ arc) :
    (s.accepted flow position).linksBetween arc = s.linksBetween arc := by
  have h' : (flow.source, flow.target) ≠ arc := h
  simp [linksBetween, accepted, h']

/-! ## The invariant -/

/-- One link carries all flows between two nodes, and none of them is left out. -/
def Carries (s : Intake α) (flows : List (ResolvedFlow α)) (arc : Arc) : Prop :=
  ∃ first later, occurrences flows arc = first :: later ∧
    s.linksBetween arc = [.ofOccurrences first later] ∧ s.circularBetween arc = []

/-- No link carries flows between two nodes, and all of them are left out. -/
def LeavesOut (s : Intake α) (flows : List (ResolvedFlow α)) (arc : Arc) : Prop :=
  s.linksBetween arc = [] ∧
    s.circularBetween arc = (occurrences flows arc).map fun o => o.1.leftOut o.2

/-- What links and flows left out say about the flows taken so far. -/
structure Accounts (flows : List (ResolvedFlow α)) (s : Intake α) : Prop where
  /-- The links make no cycle. -/
  acyclic : Acyclic s.arcs
  /-- A flow left out closes a cycle with links that came before it. -/
  closes : ∀ c ∈ s.circularLinks, Reaches (s.arcsBefore c.inputIndex) c.target c.source
  /-- The links are in the order of their first flows. -/
  links_sorted : s.links.Pairwise fun l m => l.inputIndex < m.inputIndex
  /-- The flows left out are in their order. -/
  circular_sorted : s.circularLinks.Pairwise fun c e => c.inputIndex < e.inputIndex
  /-- The flows between two nodes are all in one link or all left out. -/
  between : ∀ arc, s.Carries flows arc ∨ s.LeavesOut flows arc
  /-- Every flow is in a link or left out. -/
  count : (s.links.map fun l => (occurrences flows l.arc).length).sum + s.circularLinks.length
    = flows.length

namespace Accounts

variable {s flow position} {flows : List (ResolvedFlow α)}

/-- A link of `s` is `ofOccurrences` of all flows with its arc, and none of them is left out. -/
theorem exists_occurrences (h : s.Accounts flows) {l : Link α} (hl : l ∈ s.links) :
    ∃ first later, occurrences flows l.arc = first :: later ∧ l = .ofOccurrences first later ∧
      s.circularBetween l.arc = [] := by
  have hmem : l ∈ s.linksBetween l.arc := List.mem_filter.2 ⟨hl, by simp⟩
  rcases h.between l.arc with ⟨first, later, hocc, hlinks, hcirc⟩ | ⟨hlinks, -⟩
  · rw [hlinks, List.mem_singleton] at hmem
    exact ⟨first, later, hocc, hmem, hcirc⟩
  · rw [hlinks] at hmem
    cases hmem

/-- A flow that is left out is the one that stands in `flows` at its position. -/
theorem exists_leftOut (h : s.Accounts flows) {c : CircularLink α} (hc : c ∈ s.circularLinks) :
    ∃ flow, flows[c.inputIndex]? = some flow ∧ c = flow.leftOut c.inputIndex := by
  have hmem : c ∈ s.circularBetween c.arc := List.mem_filter.2 ⟨hc, by simp⟩
  rcases h.between c.arc with ⟨-, -, -, -, hcirc⟩ | ⟨-, hcirc⟩
  · rw [hcirc] at hmem
    cases hmem
  · rw [hcirc, List.mem_map] at hmem
    obtain ⟨o, ho, rfl⟩ := hmem
    exact ⟨o.1, (mem_occurrences.1 ho).1, rfl⟩

/-- The position of a link is that of one of `flows`. -/
theorem link_lt (h : s.Accounts flows) {l : Link α} (hl : l ∈ s.links) :
    l.inputIndex < flows.length := by
  obtain ⟨first, later, hocc, hlink, -⟩ := h.exists_occurrences hl
  have hfirst : first ∈ occurrences flows l.arc := by
    rw [hocc]
    exact List.mem_cons_self
  rw [hlink, Link.ofOccurrences_eq]
  exact (List.getElem?_eq_some_iff.1 (mem_occurrences.1 hfirst).1).1

/-- The position of a flow that is left out is that of one of `flows`. -/
theorem circular_lt (h : s.Accounts flows) {c : CircularLink α} (hc : c ∈ s.circularLinks) :
    c.inputIndex < flows.length := by
  obtain ⟨flow, hflow, -⟩ := h.exists_leftOut hc
  exact (List.getElem?_eq_some_iff.1 hflow).1

/-- All links of `s` come before the flow behind `flows`. -/
theorem arcsBefore_length (h : s.Accounts flows) : s.arcsBefore flows.length = s.arcs := by
  rw [arcsBefore, List.filter_eq_self.2, arcs]
  intro l hl
  simpa using h.link_lt hl

/-- The arcs of `s` are arcs of `flows`. -/
theorem arcs_subset (h : s.Accounts flows) : s.arcs ⊆ flows.map ResolvedFlow.arc := by
  intro arc harc
  obtain ⟨l, hl, rfl⟩ := List.mem_map.1 harc
  obtain ⟨first, later, hocc, -, -⟩ := h.exists_occurrences hl
  have hfirst : first ∈ occurrences flows l.arc := by
    rw [hocc]
    exact List.mem_cons_self
  obtain ⟨hget, hjoin⟩ := mem_occurrences.1 hfirst
  exact List.mem_map.2 ⟨first.1, List.mem_of_getElem? hget, hjoin⟩

end Accounts

/-! ### Every step keeps it -/

omit [Scalar α] in
/-- One more flow counts once for every link with its arc, where `occurrences` are summed up over
links. -/
theorem sum_occurrences_append (flows : List (ResolvedFlow α)) (links : List (Link α)) :
    (links.map fun l => (occurrences (flows ++ [flow]) l.arc).length).sum
      = (links.map fun l => (occurrences flows l.arc).length).sum
        + (links.filter fun l => l.arc = flow.arc).length := by
  induction links with
  | nil => rfl
  | cons l links ih =>
    rw [List.map_cons, List.sum_cons, ih, List.map_cons, List.sum_cons]
    by_cases h : flow.arc = l.arc
    · rw [← h, occurrences_append_self, List.length_append, List.filter_cons_of_pos (by simp [h])]
      simp only [List.length_cons, List.length_nil]
      omega
    · have h' : ¬ l.arc = flow.arc := Ne.symm h
      rw [occurrences_append_of_ne _ h, List.filter_cons_of_neg (by simp [h'])]
      omega

/-- `empty` accounts for no flows. -/
theorem empty_accounts : (empty : Intake α).Accounts [] where
  acyclic := acyclic_nil
  closes := by simp [empty]
  links_sorted := List.Pairwise.nil
  circular_sorted := List.Pairwise.nil
  between _ := Or.inr ⟨rfl, rfl⟩
  count := rfl

namespace Accounts

variable {s flow} {flows : List (ResolvedFlow α)}

/-- Between nodes that `flow` does not join, `next` carries or leaves out the flows as `s` does. -/
theorem between_of_ne (h : s.Accounts flows) (harc : flow.arc ≠ arc) {next : Intake α}
    (hlinks : next.linksBetween arc = s.linksBetween arc)
    (hcirc : next.circularBetween arc = s.circularBetween arc) :
    next.Carries (flows ++ [flow]) arc ∨ next.LeavesOut (flows ++ [flow]) arc := by
  rw [Carries, LeavesOut, hlinks, hcirc, occurrences_append_of_ne flows harc]
  exact h.between arc

/-- Where `s` has a link with the arc `arc`, this carries all flows with that arc. -/
theorem carries (h : s.Accounts flows) (harc : arc ∈ s.arcs) : s.Carries flows arc :=
  (h.between arc).resolve_right fun hout => (mem_arcs_iff s).1 harc hout.1

/-- Where `s` has no link with the arc `arc`, all flows with that arc are left out. -/
theorem leavesOut (h : s.Accounts flows) (harc : arc ∉ s.arcs) : s.LeavesOut flows arc := by
  refine (h.between arc).resolve_left ?_
  rintro ⟨first, later, -, hlinks, -⟩
  exact harc ((mem_arcs_iff s).2 (by simp [hlinks]))

/-- `Accounts` is kept where a link between the nodes of the next flow absorbs it. -/
theorem absorbed (h : s.Accounts flows) (hmem : flow.arc ∈ s.arcs) :
    (s.absorbed flow).Accounts (flows ++ [flow]) where
  acyclic := by simpa using h.acyclic
  closes c hc := by simpa using h.closes c hc
  links_sorted := by
    rw [links_absorbed, List.pairwise_map]
    simpa using h.links_sorted
  circular_sorted := h.circular_sorted
  between arc := by
    by_cases harc : flow.arc = arc
    · -- the one link between its nodes takes the flow after all others
      subst harc
      obtain ⟨first, later, hocc, hlinks, hcirc⟩ := h.carries hmem
      refine Or.inl ⟨first, later ++ [(flow, flows.length)], ?_, ?_, hcirc⟩
      · rw [occurrences_append_self, hocc, List.cons_append]
      · rw [linksBetween_absorbed_self, hlinks, Link.ofOccurrences_append, List.map_singleton]
    · exact h.between_of_ne harc (linksBetween_absorbed_of_ne s flow harc) rfl
  count := by
    obtain ⟨first, later, -, hlinks, -⟩ := h.carries hmem
    -- one link is along the arc, and it counts the flow
    have hone : (s.links.filter fun l => l.arc = flow.arc).length = 1 := by
      rw [← linksBetween, hlinks, List.length_singleton]
    have hcount := h.count
    rw [links_absorbed, List.map_map]
    simp only [Function.comp_def, arc_taking]
    rw [sum_occurrences_append, hone, List.length_append, List.length_singleton]
    simp only [Intake.absorbed]
    omega

/-- `Accounts` is kept where the next flow has no link to share, closes a cycle and is left out. -/
theorem excluded (h : s.Accounts flows) (hmem : flow.arc ∉ s.arcs)
    (hreach : Reaches s.arcs flow.target flow.source) :
    (s.excluded flow flows.length).Accounts (flows ++ [flow]) where
  acyclic := h.acyclic
  closes c hc := by
    rcases List.mem_append.1 hc with hc | hc
    · exact h.closes c hc
    · -- all links there are came before the flow
      rw [List.mem_singleton.1 hc]
      exact h.arcsBefore_length ▸ hreach
  links_sorted := h.links_sorted
  circular_sorted := by
    refine List.pairwise_append.2 ⟨h.circular_sorted, List.pairwise_singleton .., ?_⟩
    intro c hc e he
    rw [List.mem_singleton.1 he]
    exact h.circular_lt hc
  between arc := by
    by_cases harc : flow.arc = arc
    · subst harc
      obtain ⟨hlinks, hcirc⟩ := h.leavesOut hmem
      refine Or.inr ⟨hlinks, ?_⟩
      rw [circularBetween_excluded_self, hcirc, occurrences_append_self, List.map_append]
      rfl
    · exact h.between_of_ne harc rfl (circularBetween_excluded_of_ne s flow _ harc)
  count := by
    -- no link is along the arc, so that the flow counts only among those left out
    have hnone : (s.links.filter fun l => l.arc = flow.arc).length = 0 := by
      rw [← linksBetween, (h.leavesOut hmem).1, List.length_nil]
    have hcount := h.count
    simp only [Intake.excluded]
    rw [sum_occurrences_append, hnone, List.length_append, List.length_append,
      List.length_singleton, List.length_singleton]
    omega

/-- If the next flow has no link to share and closes no cycle, it is the first with its arc: an
earlier one was left out because of a way that is still there. -/
theorem occurrences_eq_nil (h : s.Accounts flows) (hmem : flow.arc ∉ s.arcs)
    (hreach : ¬ Reaches s.arcs flow.target flow.source) :
    occurrences flows flow.arc = [] ∧ s.circularBetween flow.arc = [] := by
  have hnone : s.circularBetween flow.arc = [] := by
    -- more links keep the way back that had a flow between these nodes left out
    refine List.filter_eq_nil_iff.2 fun c hc harc => hreach ?_
    have harc' : c.arc = flow.arc := by simpa using harc
    have hway := (h.closes c hc).mono (s.arcsBefore_subset _)
    rwa [(Prod.mk.inj harc').1, (Prod.mk.inj harc').2] at hway
  obtain ⟨-, hcirc⟩ := h.leavesOut hmem
  rw [hnone] at hcirc
  exact ⟨List.map_eq_nil_iff.1 hcirc.symm, hnone⟩

/-- `Accounts` is kept where the next flow has no link to share, closes no cycle and gets a link. -/
theorem accepted (h : s.Accounts flows) (hmem : flow.arc ∉ s.arcs)
    (hreach : ¬ Reaches s.arcs flow.target flow.source) :
    (s.accepted flow flows.length).Accounts (flows ++ [flow]) where
  acyclic := by
    rw [arcs_accepted]
    exact h.acyclic.append_arc hreach
  closes c hc := by
    -- the new link came after every flow that was left out
    have hlt : ¬ flows.length < c.inputIndex := Nat.not_lt.2 (h.circular_lt hc).le
    have hsame : (s.accepted flow flows.length).arcsBefore c.inputIndex
        = s.arcsBefore c.inputIndex := by
      simp [arcsBefore, Intake.accepted, Link.unplaced, hlt]
    rw [hsame]
    exact h.closes c hc
  links_sorted := by
    refine List.pairwise_append.2 ⟨h.links_sorted, List.pairwise_singleton .., ?_⟩
    intro l hl m hm
    rw [List.mem_singleton.1 hm]
    exact h.link_lt hl
  circular_sorted := h.circular_sorted
  between arc := by
    by_cases harc : flow.arc = arc
    · subst harc
      obtain ⟨hlinks, -⟩ := h.leavesOut hmem
      obtain ⟨hocc, hnone⟩ := h.occurrences_eq_nil hmem hreach
      refine Or.inl ⟨(flow, flows.length), [], ?_, ?_, hnone⟩
      · rw [occurrences_append_self, hocc, List.nil_append]
      · rw [linksBetween_accepted_self, hlinks, List.nil_append]
    · exact h.between_of_ne harc (linksBetween_accepted_of_ne s flow _ harc) rfl
  count := by
    -- for the new link the flow counts alone, for the others as much as before
    obtain ⟨hocc, -⟩ := h.occurrences_eq_nil hmem hreach
    have hone : ((s.accepted flow flows.length).links.filter fun l => l.arc = flow.arc).length
        = 1 := by
      rw [← linksBetween, linksBetween_accepted_self, (h.leavesOut hmem).1, List.nil_append,
        List.length_singleton]
    have hnew : (occurrences flows
        (Link.unplaced flow.source flow.target flow.value flows.length).arc).length = 0 := by
      rw [Link.arc_unplaced, ← ResolvedFlow.arc, hocc, List.length_nil]
    have hcount := h.count
    rw [sum_occurrences_append, hone, List.length_append, List.length_singleton]
    simp only [Intake.accepted, List.map_append, List.sum_append, List.map_singleton,
      List.sum_singleton, hnew]
    omega

/-- **A step `s.take n flow` keeps `Accounts`**, with `flow` behind the flows before it. -/
theorem take {n : Nat} {next : Intake α} (hn : ArcsBelow n (flows.map ResolvedFlow.arc))
    (h : s.Accounts flows) (hstep : s.take n flow flows.length = .ok next) :
    next.Accounts (flows ++ [flow]) := by
  have hbelow : ArcsBelow n s.arcs := hn.of_subset h.arcs_subset
  rcases take_cases hbelow hstep with ⟨hmem, rfl⟩ | ⟨hmem, hreach, rfl⟩ | ⟨hmem, hreach, rfl⟩
  · exact h.absorbed hmem
  · exact h.excluded hmem hreach
  · exact h.accepted hmem hreach

/-- **A run `s.takeAll n more` keeps `Accounts`**, with `more` behind the flows before them. -/
theorem takeAll {n : Nat} {final : Intake α} {more : List (ResolvedFlow α)}
    (hn : ArcsBelow n ((flows ++ more).map ResolvedFlow.arc)) (h : s.Accounts flows)
    (hrun : s.takeAll n more flows.length = .ok final) : final.Accounts (flows ++ more) := by
  -- on the flows still to come; those taken so far grow by one with each step
  induction more generalizing flows s with
  | nil =>
    rw [Intake.takeAll] at hrun
    rw [List.append_nil, ← Except.ok.inj hrun]
    exact h
  | cons flow more ih =>
    rw [Intake.takeAll] at hrun
    split at hrun
    · cases hrun
    · rename_i next hstep
      have hfirst : ArcsBelow n (flows.map ResolvedFlow.arc) := hn.of_map_append
      have hnext := h.take hfirst hstep
      rw [List.append_cons] at hn ⊢
      refine ih hn hnext ?_
      rwa [List.length_append, List.length_singleton]

end Accounts

end Intake

end SankeyDiagram
