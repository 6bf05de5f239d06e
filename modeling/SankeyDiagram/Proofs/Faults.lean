import SankeyDiagram.Proofs.Meaning

/-! # What is wrong with names and flows

When names and flows make no diagram, and what is reported then. Of all that is wrong the first is:
a repeated name comes before a flow without a meaning, that before a link whose flows add up beyond
the ordinary numbers, and that before a node with a side where its links do.

* **`keptArcs`** the arcs of links, told by the arcs of flows alone.
* **`Intake.Taken.takeAll`** links are along them until a flow takes one of them beyond the ordinary
  numbers.
* **`Diagram.overflowingFlow?_eq_some_iff`** of all nodes the first with such a side is reported.
* **`FirstFault`**, **`Faultless`** what is wrong with names and flows, and when nothing is.
* **`SameKept`** flows that differ where they are left out;
  **`Diagram.firstFault_of_sameKept`** the same is wrong with them.
* **`Diagram.ofFlows_reportsFirstFault`** what is reported is what is wrong. -/

namespace SankeyDiagram

variable {α : Type} [Scalar α]

/-! ## Links -/

section Kept

open Classical in
/-- The arcs of links after one more flow: its arc comes last, unless it is there or would close a
cycle. -/
noncomputable def keepArc (kept : List Arc) (arc : Arc) : List Arc :=
  if arc ∈ kept ∨ Reaches kept arc.2 arc.1 then kept else kept ++ [arc]

/-- The arcs of the links for flows along some arcs, in order. -/
noncomputable def keptArcs (arcs : List Arc) : List Arc := arcs.foldl keepArc []

/-- `keptArcs` takes one arc after another with `keepArc`. -/
theorem keptArcs_append_singleton (arcs : List Arc) (arc : Arc) :
    keptArcs (arcs ++ [arc]) = keepArc (keptArcs arcs) arc := by
  rw [keptArcs, List.foldl_append]
  rfl

/-- `keepArc` drops no arc. -/
theorem subset_keepArc (kept : List Arc) (arc : Arc) : kept ⊆ keepArc kept arc := by
  rw [keepArc]
  split
  · exact List.Subset.refl kept
  · exact List.subset_append_left kept [arc]

/-- Later flows drop no arc of `keptArcs`. -/
theorem keptArcs_subset_append (arcs more : List Arc) :
    keptArcs arcs ⊆ keptArcs (arcs ++ more) := by
  induction more using List.reverseRecOn with
  | nil =>
    rw [List.append_nil]
    exact List.Subset.refl _
  | append_singleton more arc ih =>
    rw [← List.append_assoc, keptArcs_append_singleton]
    exact List.Subset.trans ih (subset_keepArc _ arc)

/-- An arc that is there, or that comes back to its start, changes nothing. -/
theorem keepArc_eq_self {kept : List Arc} {arc : Arc} (h : arc ∈ kept ∨ Reaches kept arc.2 arc.1) :
    keepArc kept arc = kept :=
  if_pos h

/-- An arc that is new, and does not come back to its start, is put last. -/
theorem keepArc_eq_append {kept : List Arc} {arc : Arc} (hmem : arc ∉ kept)
    (hreach : ¬Reaches kept arc.2 arc.1) : keepArc kept arc = kept ++ [arc] :=
  if_neg (not_or.2 ⟨hmem, hreach⟩)

end Kept

/-- The amounts of the flows along an arc, added up in order from the first on. -/
def arcTotal (flows : List (ResolvedFlow α)) (arc : Arc) : α :=
  match (flows.filter fun flow => flow.arc = arc).map ResolvedFlow.value with
  | [] => 0
  | first :: later => later.foldl (· + ·) first

/-- The flow at a position goes into the link of earlier ones, and beyond the ordinary numbers with
them. -/
def LinkOverflowsAt (flows : List (ResolvedFlow α)) (position : Nat) : Prop :=
  ∃ flow, flows[position]? = some flow ∧
    flow.arc ∈ keptArcs ((flows.take position).map ResolvedFlow.arc) ∧
    ¬Scalar.isFinite (arcTotal (flows.take (position + 1)) flow.arc)

section Links

variable {flows more : List (ResolvedFlow α)} {flow : ResolvedFlow α} {position : Nat}

/-- `LinkOverflowsAt` reads the flows up to its position. -/
theorem linkOverflowsAt_append_iff (hlt : position < flows.length) :
    LinkOverflowsAt (flows ++ more) position ↔ LinkOverflowsAt flows position := by
  rw [LinkOverflowsAt, LinkOverflowsAt, List.getElem?_append_left hlt,
    List.take_append_of_le_length hlt.le, List.take_append_of_le_length hlt]

/-- The next flow overflows its link iff its arc is kept and `arcTotal` with it is no ordinary
number. -/
theorem linkOverflowsAt_length_iff :
    LinkOverflowsAt (flows ++ flow :: more) flows.length
      ↔ flow.arc ∈ keptArcs (flows.map ResolvedFlow.arc) ∧
        ¬Scalar.isFinite (arcTotal (flows ++ [flow]) flow.arc) := by
  have htake : (flows ++ flow :: more).take (flows.length + 1) = flows ++ [flow] := by
    rw [List.append_cons, List.take_left' (by simp)]
  rw [LinkOverflowsAt, htake, List.take_left]
  simp

/-- The value of a link is `arcTotal` of the flows along its arc. -/
theorem Link.value_ofOccurrences {arc : Arc} {first : ResolvedFlow α × Nat}
    {later : List (ResolvedFlow α × Nat)} (h : occurrences flows arc = first :: later) :
    (ofOccurrences first later).value = arcTotal flows arc := by
  rw [ofOccurrences_eq, arcTotal, ← map_fst_occurrences, h, List.map_cons, List.map_cons]
  simp only [unplaced, List.map_map, List.foldl_map, Function.comp_apply]

end Links

namespace Intake

variable {s : Intake α} {names : List String} {flows more : List (ResolvedFlow α)}
  {flow : ResolvedFlow α} {n position : Nat} {e : FlowError α}

/-- `s.take n flow position` fails iff `s` has a link along the arc and `arcTotal` with `flow` is no
ordinary number. -/
theorem Accounts.take_eq_error_iff (h : s.Accounts flows) :
    s.take n flow position = .error e ↔ flow.arc ∈ s.arcs ∧
      ¬Scalar.isFinite (arcTotal (flows ++ [flow]) flow.arc) ∧ e = .linkFlowOverflow position := by
  rw [Intake.take]
  split
  case h_1 link hfind =>
    have hjoins : link.arc = flow.arc :=
      (Link.joins_iff ..).1 (by simpa using List.find?_some hfind)
    have hlink : link ∈ s.links := List.mem_of_find?_eq_some hfind
    have hmem : flow.arc ∈ s.arcs := List.mem_map.2 ⟨link, hlink, hjoins⟩
    -- the link is that of the flows before, so it absorbs the next one of them
    obtain ⟨first, later, hocc, rfl, -⟩ := h.exists_occurrences hlink
    have hnext : occurrences (flows ++ [flow]) flow.arc
        = first :: (later ++ [(flow, flows.length)]) := by
      rw [occurrences_append_self, ← hjoins, hocc, List.cons_append]
    have htotal : ((Link.ofOccurrences first later).absorb flow.value).value
        = arcTotal (flows ++ [flow]) flow.arc := by
      rw [← Link.value_ofOccurrences hnext, Link.ofOccurrences_append]
    rw [htotal]
    split
    case isTrue hfinite => simp [hfinite]
    case isFalse hfinite => simp [hmem, hfinite, eq_comm]
  case h_2 hfind =>
    have hmem : flow.arc ∉ s.arcs := find?_joins_eq_none_iff.1 hfind
    split <;> simp [hmem]

/-- The links account for the flows so far, their arcs are those that flows along such arcs keep,
and none went beyond the ordinary numbers. -/
structure Taken (flows : List (ResolvedFlow α)) (s : Intake α) : Prop where
  /-- The links account for the flows. -/
  accounts : s.Accounts flows
  /-- The links of `s` are along the `keptArcs` of the flows. -/
  arcs_eq : s.arcs = keptArcs (flows.map ResolvedFlow.arc)
  /-- No flow took its link beyond the ordinary numbers. -/
  not_overflows : ∀ position, ¬LinkOverflowsAt flows position

namespace Taken

/-- `Taken` holds before the first flow. -/
theorem empty_taken : (empty : Intake α).Taken [] where
  accounts := empty_accounts
  arcs_eq := rfl
  not_overflows position := by
    rintro ⟨flow, hflow, -⟩
    cases hflow

/-- `Intake.take` keeps `Taken`, for one more flow. -/
theorem take (hn : ArcsBelow n (flows.map ResolvedFlow.arc)) (h : s.Taken flows)
    {next : Intake α} (hstep : s.take n flow flows.length = .ok next) :
    next.Taken (flows ++ [flow]) where
  accounts := h.accounts.take hn hstep
  arcs_eq := by
    have hbelow : ArcsBelow n s.arcs := hn.of_subset h.accounts.arcs_subset
    rw [List.map_append, List.map_singleton, keptArcs_append_singleton, ← h.arcs_eq]
    -- the flow goes into a link, is left out, or gets a link of its own
    rcases take_cases hbelow hstep with ⟨hmem, rfl⟩ | ⟨-, hreach, rfl⟩ | ⟨hmem, hreach, rfl⟩
    · rw [keepArc_eq_self (Or.inl hmem), arcs_absorbed]
    · rw [keepArc_eq_self (Or.inr hreach)]
      rfl
    · rw [keepArc_eq_append hmem hreach, arcs_accepted]
  not_overflows position hover := by
    have hlt : position < (flows ++ [flow]).length := by
      obtain ⟨last, hlast, -⟩ := hover
      exact (List.getElem?_eq_some_iff.1 hlast).1
    rw [List.length_append, List.length_singleton, Nat.lt_succ_iff] at hlt
    rcases hlt.lt_or_eq with hlt | rfl
    · exact h.not_overflows position ((linkOverflowsAt_append_iff hlt).1 hover)
    · -- the step would have failed
      rw [linkOverflowsAt_length_iff, ← h.arcs_eq] at hover
      rw [h.accounts.take_eq_error_iff.2 ⟨hover.1, hover.2, rfl⟩] at hstep
      cases hstep

/-- `Intake.takeAll` keeps `Taken`, or fails at the least position of `LinkOverflowsAt`. -/
theorem takeAll (hn : ArcsBelow n ((flows ++ more).map ResolvedFlow.arc)) (h : s.Taken flows) :
    (∃ final, s.takeAll n more flows.length = .ok final ∧ final.Taken (flows ++ more)) ∨
      ∃ position, s.takeAll n more flows.length = .error (.linkFlowOverflow position) ∧
        IsLeast {p | LinkOverflowsAt (flows ++ more) p} position := by
  -- on the flows still to come; those taken so far grow by one with each step
  induction more generalizing flows s with
  | nil => exact Or.inl ⟨s, rfl, by rwa [List.append_nil]⟩
  | cons flow more ih =>
    rw [Intake.takeAll]
    cases hstep : s.take n flow flows.length with
    | error e =>
      obtain ⟨hmem, hfinite, rfl⟩ := h.accounts.take_eq_error_iff.1 hstep
      rw [h.arcs_eq] at hmem
      refine Or.inr ⟨flows.length, rfl, linkOverflowsAt_length_iff.2 ⟨hmem, hfinite⟩, ?_⟩
      intro position hover
      by_contra hlt
      exact h.not_overflows position ((linkOverflowsAt_append_iff (not_le.1 hlt)).1 hover)
    | ok next =>
      have hfirst : ArcsBelow n (flows.map ResolvedFlow.arc) := hn.of_map_append
      have hnext := h.take hfirst hstep
      rw [List.append_cons] at hn ⊢
      have hrest := ih hn hnext
      rwa [List.length_append, List.length_singleton] at hrest

end Taken

end Intake

/-! ## Nodes -/

/-- The end of an arc on a side. -/
def Arc.nearEnd (arc : Arc) : Side → NodeId
  | .outgoing => arc.1
  | .incoming => arc.2

/-- `Arc.nearEnd` of the arc of a link is `Link.nearEnd`. -/
theorem Link.nearEnd_arc {α : Type} (l : Link α) (side : Side) :
    l.arc.nearEnd side = l.nearEnd side := by
  cases side <;> rfl

/-- The totals of the arcs that are kept and end at a node on a side, added up in order. -/
noncomputable def sideTotal (flows : List (ResolvedFlow α)) (side : Side) (id : NodeId) : α :=
  Scalar.sum (((keptArcs (flows.map ResolvedFlow.arc)).filter
    fun arc => arc.nearEnd side = id).map (arcTotal flows))

/-- On a side of the node at a position they go beyond the ordinary numbers. -/
def NodeOverflowsAt (flows : List (ResolvedFlow α)) (position : Nat) : Prop :=
  ∃ side, ¬Scalar.isFinite (sideTotal flows side ⟨position⟩)

namespace Diagram

variable {d : Diagram α} {name : String}

/-- On a side of the node at a position the flows of the links go beyond the ordinary numbers. -/
def OverflowsAt (d : Diagram α) (position : Nat) : Prop :=
  ∃ side, ¬Scalar.isFinite (d.flow ((d.node ⟨position⟩).linksAt side))

/-- `OverflowsAt` examines the two sides of a node. -/
theorem overflowsAt_iff {position : Nat} : d.OverflowsAt position
    ↔ (!Scalar.isFinite (d.flow (d.node ⟨position⟩).outgoing) ||
      !Scalar.isFinite (d.flow (d.node ⟨position⟩).incoming)) = true := by
  rw [Bool.or_eq_true, Bool.not_eq_true', Bool.not_eq_true', ← Bool.not_eq_true,
    ← Bool.not_eq_true]
  constructor
  · rintro ⟨side, hover⟩
    cases side with
    | outgoing => exact Or.inl hover
    | incoming => exact Or.inr hover
  · rintro (hover | hover)
    · exact ⟨.outgoing, hover⟩
    · exact ⟨.incoming, hover⟩

/-- `overflowingFlow?` is the name of the first node with `OverflowsAt`. -/
theorem overflowingFlow?_eq_some_iff : d.overflowingFlow? = some name
    ↔ ∃ position, IsLeast {p | p < d.nodes.size ∧ d.OverflowsAt p} position ∧
      (d.node ⟨position⟩).name = name := by
  have hget : ∀ i (hi : i < d.nodes.toList.length), d.nodes.toList[i] = d.node ⟨i⟩ := by
    intro i hi
    rw [node_of_lt _ (by simpa using hi), Array.getElem_toList]
  -- what `find?` tells of the list of nodes, told of their positions
  simp only [overflowingFlow?, Option.map_eq_some_iff, List.find?_eq_some_iff_getElem]
  constructor
  · rintro ⟨n, ⟨htest, i, hi, rfl, hbefore⟩, rfl⟩
    rw [hget] at htest ⊢
    refine ⟨i, ⟨⟨by simpa using hi, overflowsAt_iff.2 htest⟩, ?_⟩, rfl⟩
    rintro j ⟨hj, hover⟩
    by_contra hlt
    have hpass := hbefore j (not_le.1 hlt)
    rw [hget, overflowsAt_iff.1 hover] at hpass
    cases hpass
  · rintro ⟨i, ⟨⟨hi, hover⟩, hle⟩, rfl⟩
    refine ⟨d.node ⟨i⟩, ⟨overflowsAt_iff.1 hover, i, by simpa using hi, hget i _, ?_⟩, rfl⟩
    intro j hj
    rw [hget, Bool.not_eq_true', ← Bool.not_eq_true, ← overflowsAt_iff]
    exact fun hover' => hj.not_ge (hle ⟨hj.trans hi, hover'⟩)

/-- `overflowingFlow?` is `none` iff no node has `OverflowsAt`. -/
theorem overflowingFlow?_eq_none_iff_overflowsAt :
    d.overflowingFlow? = none ↔ ∀ position < d.nodes.size, ¬d.OverflowsAt position := by
  rw [overflowingFlow?_eq_none_iff]
  constructor
  · rintro h position hlt ⟨side, hover⟩
    obtain ⟨houtgoing, hincoming⟩ := h ⟨position⟩ ((d.hasNode_iff _).2 hlt)
    cases side with
    | outgoing => exact hover houtgoing
    | incoming => exact hover hincoming
  · intro h id hid
    have hnot := h id.index ((d.hasNode_iff id).1 hid)
    rw [OverflowsAt, not_exists] at hnot
    exact ⟨not_not.1 (hnot .outgoing), not_not.1 (hnot .incoming)⟩

end Diagram

namespace Intake

variable {s : Intake α} {names : List String} {flows : List (ResolvedFlow α)} {id : NodeId}
  {name : String}

/-- `linkIds` finds the links that pass the test, in order. -/
theorem map_link_linkIds (s : Intake α) (names : List String) (test : Link α → Bool) :
    (linkIds s.links test).map (s.diagram names).link = s.links.filter test := by
  rw [linkIds, List.map_map]
  conv_rhs => rw [← List.zipIdx_map_fst 0 s.links, List.filter_map]
  refine List.map_congr_left fun p hl => ?_
  obtain ⟨l, i⟩ := p
  have hget := List.mk_mem_zipIdx_iff_getElem?.1 (List.mem_filter.1 hl).1
  have hlink : (s.diagram names).hasLink ⟨i⟩ ∧ (s.diagram names).link ⟨i⟩ = l :=
    (hasLink_and_link_diagram (· = l)).2 ⟨l, hget, rfl⟩
  exact hlink.2

namespace Taken

/-- The flow on a side of a node is `sideTotal` of the flows taken. -/
theorem flow_linksAt (h : s.Taken flows) (hid : id.index < names.length) (side : Side) :
    (s.diagram names).flow (((s.diagram names).node id).linksAt side)
      = sideTotal flows side id := by
  have hvalue : ∀ l ∈ s.links, l.value = arcTotal flows l.arc := by
    intro l hl
    obtain ⟨first, later, hocc, hlink, -⟩ := h.accounts.exists_occurrences hl
    rw [← Link.value_ofOccurrences hocc, ← hlink]
  rw [node_diagram hid, linksAt_node, Diagram.flow, ← Function.comp_def Link.value,
    ← List.map_map, map_link_linkIds, sideTotal, ← h.arcs_eq, arcs, List.filter_map, List.map_map]
  simp only [Function.comp_def, Link.nearEnd_arc]
  exact congrArg _ (List.map_congr_left fun l hl => hvalue l (List.mem_filter.1 hl).1)

/-- `OverflowsAt` of the diagram is `NodeOverflowsAt` of the flows taken. -/
theorem overflowsAt_iff (h : s.Taken flows) {position : Nat} (hlt : position < names.length) :
    (s.diagram names).OverflowsAt position ↔ NodeOverflowsAt flows position :=
  exists_congr fun side => by rw [h.flow_linksAt hlt]

/-- `overflowingFlow?` is the name of the first node with `NodeOverflowsAt`. -/
theorem overflowingFlow?_eq_some_iff (h : s.Taken flows) :
    (s.diagram names).overflowingFlow? = some name
      ↔ ∃ position, IsLeast {p | p < names.length ∧ NodeOverflowsAt flows p} position ∧
        names[position]? = some name := by
  have hset : {p | p < (s.diagram names).nodes.size ∧ (s.diagram names).OverflowsAt p}
      = {p | p < names.length ∧ NodeOverflowsAt flows p} := by
    ext p
    rw [size_nodes_diagram]
    exact and_congr_right fun hlt => h.overflowsAt_iff hlt
  rw [Diagram.overflowingFlow?_eq_some_iff, hset]
  refine exists_congr fun position => and_congr_right fun hleast => ?_
  have hlt : position < names.length := hleast.1.1
  rw [node_diagram hlt, List.getElem?_eq_getElem hlt, Option.some.injEq]
  rfl

/-- `overflowingFlow?` is `none` iff no node has `NodeOverflowsAt`. -/
theorem overflowingFlow?_eq_none_iff (h : s.Taken flows) :
    (s.diagram names).overflowingFlow? = none
      ↔ ∀ position < names.length, ¬NodeOverflowsAt flows position := by
  rw [Diagram.overflowingFlow?_eq_none_iff_overflowsAt, size_nodes_diagram]
  exact forall₂_congr fun position hlt => not_congr (h.overflowsAt_iff hlt)

end Taken

end Intake

/-! ## Flows that are left out -/

/-- `arcTotal` reads the values of the flows along its arc. -/
theorem arcTotal_congr {flows others : List (ResolvedFlow α)} {arc : Arc}
    (h : List.Forall₂ (fun flow other => other.arc = flow.arc ∧
      (flow.arc = arc → other.value = flow.value)) flows others) :
    arcTotal others arc = arcTotal flows arc := by
  have hvalues : (others.filter fun flow => flow.arc = arc).map ResolvedFlow.value
      = (flows.filter fun flow => flow.arc = arc).map ResolvedFlow.value := by
    induction h with
    | nil => rfl
    | @cons flow other _ _ hsame _ ih =>
      obtain ⟨harc, hvalue⟩ := hsame
      by_cases heq : flow.arc = arc
      · rw [List.filter_cons_of_pos (by simpa [harc] using heq),
          List.filter_cons_of_pos (by simpa using heq), List.map_cons, List.map_cons, ih,
          hvalue heq]
      · rw [List.filter_cons_of_neg (by simpa [harc] using heq),
          List.filter_cons_of_neg (by simpa using heq), ih]
  rw [arcTotal, arcTotal, hvalues]

/-- Flows between the same positions, of the same amounts where their arcs are kept. -/
def SameKept (flows others : List (ResolvedFlow α)) : Prop :=
  List.Forall₂ (fun flow other => other.arc = flow.arc ∧
    (flow.arc ∈ keptArcs (flows.map ResolvedFlow.arc) → other.value = flow.value)) flows others

namespace SameKept

variable {flows others : List (ResolvedFlow α)} (h : SameKept flows others)
include h

omit [Scalar α] in
/-- Flows with `SameKept` go along the same arcs. -/
theorem map_arc_eq : others.map ResolvedFlow.arc = flows.map ResolvedFlow.arc := by
  have harcs : List.Forall₂ (fun flow other => flow.arc = other.arc) flows others :=
    h.imp fun _ _ hsame => hsame.1.symm
  have hmap := List.forall₂_map_left_iff.2 (List.forall₂_map_right_iff.2 harcs)
  rw [List.forall₂_eq_eq_eq] at hmap
  exact hmap.symm

omit [Scalar α] in
/-- `SameKept` is symmetric, as it is about flows along arcs that both keep. -/
theorem symm : SameKept others flows := by
  rw [SameKept, h.map_arc_eq]
  refine h.flip.imp fun other flow hsame => ⟨hsame.1.symm, fun hkept => ?_⟩
  rw [hsame.1] at hkept
  exact (hsame.2 hkept).symm

/-- Along an arc that is kept, `arcTotal` up to any position is the same under `SameKept`. -/
theorem arcTotal_take {arc : Arc} (hkept : arc ∈ keptArcs (flows.map ResolvedFlow.arc)) (k : Nat) :
    arcTotal (others.take k) arc = arcTotal (flows.take k) arc := by
  refine arcTotal_congr (List.forall₂_take k (h.imp fun flow other hsame => ⟨hsame.1, ?_⟩))
  rintro rfl
  exact hsame.2 hkept

/-- `sideTotal` is the same under `SameKept`. -/
theorem sideTotal_eq (side : Side) (id : NodeId) :
    sideTotal others side id = sideTotal flows side id := by
  have htotal : ∀ arc ∈ keptArcs (flows.map ResolvedFlow.arc),
      arcTotal others arc = arcTotal flows arc := by
    intro arc hkept
    have htake := h.arcTotal_take hkept flows.length
    rwa [List.take_length, h.length_eq, List.take_length] at htake
  rw [sideTotal, sideTotal, h.map_arc_eq]
  exact congrArg _ (List.map_congr_left fun arc hmem => htotal arc (List.mem_filter.1 hmem).1)

/-- `NodeOverflowsAt` is the same under `SameKept`. -/
theorem nodeOverflowsAt_iff (position : Nat) :
    NodeOverflowsAt others position ↔ NodeOverflowsAt flows position :=
  exists_congr fun side => by rw [h.sideTotal_eq]

/-- `LinkOverflowsAt` carries over under `SameKept`. -/
theorem linkOverflowsAt {position : Nat} (hover : LinkOverflowsAt flows position) :
    LinkOverflowsAt others position := by
  obtain ⟨flow, hflow, hkept, hfinite⟩ := hover
  have harcs := congrArg (·[position]?) h.map_arc_eq
  simp only [List.getElem?_map, hflow, Option.map_some, Option.map_eq_some_iff] at harcs
  obtain ⟨other, hother, harc⟩ := harcs
  have hall : flow.arc ∈ keptArcs (flows.map ResolvedFlow.arc) := by
    rw [← List.take_append_drop position (flows.map ResolvedFlow.arc), ← List.map_take]
    exact keptArcs_subset_append _ _ hkept
  refine ⟨other, hother, ?_, ?_⟩
  · rwa [harc, List.map_take, h.map_arc_eq, ← List.map_take]
  · rwa [harc, h.arcTotal_take hall]

end SameKept

/-! ## Names and flows -/

/-- What is wrong with names and flows, if they make no diagram: all names are examined first, then
all flows, then all links, and all nodes last. -/
inductive FirstFault (names : List String) (flows : List (Flow α)) : FlowError α → Prop
  /-- A name stands for the second time, where none did before. -/
  | name {name : String} {first second : Nat} (hleast : IsLeast {p | RepeatsAt names p} second)
    (hsecond : names[second]? = some name) (hlt : first < second)
    (hfirst : names[first]? = some name) : FirstFault names flows (.duplicateNode name first second)
  /-- Names are all different, and something is wrong with a flow, but not with any before it. -/
  | flow {position : Nat} {flow : Flow α} {e : FlowError α} (hnodup : names.Nodup)
    (hleast : IsLeast {p | FaultyAt names flows p} position)
    (hflow : flows[position]? = some flow) (hfault : flow.Fault names position e) :
    FirstFault names flows e
  /-- All flows mean something, and one of them takes its link beyond the ordinary numbers where
  none did before. -/
  | link {resolved : List (ResolvedFlow α)} {position : Nat} (hnodup : names.Nodup)
    (hmeans : List.Forall₂ (Flow.Means names) flows resolved)
    (hleast : IsLeast {p | LinkOverflowsAt resolved p} position) :
    FirstFault names flows (.linkFlowOverflow position)
  /-- No flow takes its link beyond the ordinary numbers, and a node has a side on which links go
  beyond them, but none before it has. -/
  | node {resolved : List (ResolvedFlow α)} {position : Nat} {name : String} (hnodup : names.Nodup)
    (hmeans : List.Forall₂ (Flow.Means names) flows resolved)
    (hlinks : ∀ p, ¬LinkOverflowsAt resolved p)
    (hleast : IsLeast {p | p < names.length ∧ NodeOverflowsAt resolved p} position)
    (hname : names[position]? = some name) : FirstFault names flows (.nodeFlowOverflow name)

/-- Names are all different, flows mean something, and no sum goes beyond the ordinary numbers. -/
structure Faultless (names : List String) (flows : List (Flow α)) : Prop where
  /-- Names are all different. -/
  nodup : names.Nodup
  /-- All flows mean something, and neither a link nor a side of a node goes beyond the ordinary
  numbers. -/
  exists_means : ∃ resolved, List.Forall₂ (Flow.Means names) flows resolved ∧
    (∀ p, ¬LinkOverflowsAt resolved p) ∧ ∀ p < names.length, ¬NodeOverflowsAt resolved p

section Outcome

variable {names : List String} {flows others : List (Flow α)} {resolved : List (ResolvedFlow α)}
  {e : FlowError α}

/-- `takeAll` over what flows mean gives `Taken`, or reports the least position of
`LinkOverflowsAt`. -/
theorem takeAll_of_means (hnodup : names.Nodup)
    (hmeans : List.Forall₂ (Flow.Means names) flows resolved) :
    (∃ s, Intake.empty.takeAll names.length resolved 0 = .ok s ∧ s.Taken resolved) ∨
      ∃ position, Intake.empty.takeAll names.length resolved 0
          = .error (.linkFlowOverflow position) ∧
        IsLeast {p | LinkOverflowsAt resolved p} position := by
  have hbelow := arcsBelow_of_resolveAll ((resolveAll_eq_ok_iff_means hnodup).2 hmeans)
  exact Intake.Taken.empty_taken.takeAll hbelow

/-- `takeAll` succeeds if no link overflows. -/
theorem exists_takeAll_of_means (hnodup : names.Nodup)
    (hmeans : List.Forall₂ (Flow.Means names) flows resolved)
    (hlinks : ∀ p, ¬LinkOverflowsAt resolved p) :
    ∃ s, Intake.empty.takeAll names.length resolved 0 = .ok s ∧ s.Taken resolved := by
  refine (takeAll_of_means hnodup hmeans).resolve_right ?_
  rintro ⟨position, -, hleast⟩
  exact hlinks position hleast.1

namespace Diagram

/-- `ofFlows` once names are found to be all different and flows are resolved. -/
theorem ofFlows_of_means (hnodup : names.Nodup)
    (hmeans : List.Forall₂ (Flow.Means names) flows resolved) :
    ofFlows names flows = (do
      let intake ← Intake.empty.takeAll names.length resolved 0
      match (intake.diagram names).overflowingFlow? with
      | some name => .error (.nodeFlowOverflow name)
      | none => return intake.diagram names) := by
  rw [ofFlows, firstRepeat?_eq_none_iff.2 hnodup]
  simp only [(resolveAll_eq_ok_iff_means hnodup).2 hmeans]
  rfl

/-- `ofFlows` reports only a `FirstFault`. -/
theorem firstFault_of_ofFlows (h : ofFlows names flows = .error e) : FirstFault names flows e := by
  -- the cases are those of the program: names, flows, links, and nodes last
  cases hnames : firstRepeat? names with
  | some repeated =>
    obtain ⟨name, first, second⟩ := repeated
    obtain ⟨hleast, hsecond, hlt, hfirst⟩ := firstRepeat?_eq_some_iff.1 hnames
    rw [ofFlows, hnames] at h
    rw [← Except.error.inj h]
    exact .name hleast hsecond hlt hfirst
  | none =>
    have hnodup := firstRepeat?_eq_none_iff.1 hnames
    cases hresolve : resolveAll names flows with
    | error e' =>
      rw [ofFlows, hnames] at h
      simp only [hresolve] at h
      obtain rfl : e' = e := Except.error.inj h
      obtain ⟨position, flow, hleast, hflow, hfault⟩ := (resolveAll_eq_error_iff hnodup).1 hresolve
      exact .flow hnodup hleast hflow hfault
    | ok resolved =>
      have hmeans := (resolveAll_eq_ok_iff_means hnodup).1 hresolve
      rw [ofFlows_of_means hnodup hmeans] at h
      rcases takeAll_of_means hnodup hmeans with ⟨s, hs, htaken⟩ | ⟨position, herror, hleast⟩
      · rw [hs] at h
        cases hflow : (s.diagram names).overflowingFlow? with
        | none =>
          simp only [bind, Except.bind, hflow] at h
          cases h
        | some name =>
          simp only [bind, Except.bind, hflow] at h
          rw [← Except.error.inj h]
          obtain ⟨position, hleast, hname⟩ := htaken.overflowingFlow?_eq_some_iff.1 hflow
          exact .node hnodup hmeans htaken.not_overflows hleast hname
      · rw [herror] at h
        obtain rfl := Except.error.inj h
        exact .link hnodup hmeans hleast

/-- `ofFlows` reports a `FirstFault` that there is. -/
theorem ofFlows_of_firstFault (h : FirstFault names flows e) : ofFlows names flows = .error e := by
  cases h with
  | name hleast hsecond hlt hfirst =>
    rw [ofFlows, firstRepeat?_eq_some_iff.2 ⟨hleast, hsecond, hlt, hfirst⟩]
  | flow hnodup hleast hflow hfault =>
    rw [ofFlows, firstRepeat?_eq_none_iff.2 hnodup]
    simp only [(resolveAll_eq_error_iff hnodup).2 ⟨_, _, hleast, hflow, hfault⟩]
    rfl
  | link hnodup hmeans hleast =>
    rw [ofFlows_of_means hnodup hmeans]
    rcases takeAll_of_means hnodup hmeans with ⟨s, -, htaken⟩ | ⟨position, herror, hleast'⟩
    · -- had all flows been taken, no link would have gone beyond the ordinary numbers
      exact absurd hleast.1 (htaken.not_overflows _)
    · rw [herror, hleast.unique hleast']
      rfl
  | node hnodup hmeans hlinks hleast hname =>
    obtain ⟨s, hs, htaken⟩ := exists_takeAll_of_means hnodup hmeans hlinks
    have hflow := htaken.overflowingFlow?_eq_some_iff.2 ⟨_, hleast, hname⟩
    rw [ofFlows_of_means hnodup hmeans, hs]
    simp only [bind, Except.bind, hflow]

/-- A diagram of `ofFlows` is made of an `Intake` that has `Taken` what flows mean. -/
theorem exists_taken {d : Diagram α} (h : ofFlows names flows = .ok d) :
    names.Nodup ∧ ∃ resolved s, List.Forall₂ (Flow.Means names) flows resolved ∧
      Intake.Taken resolved s ∧ d = s.diagram names ∧ d.overflowingFlow? = none := by
  obtain ⟨hnames, resolved, s, hresolve, hs, rfl, hflow⟩ := ofFlows_eq_ok_iff.1 h
  have hnodup := firstRepeat?_eq_none_iff.1 hnames
  have hmeans := (resolveAll_eq_ok_iff_means hnodup).1 hresolve
  refine ⟨hnodup, resolved, s, hmeans, ?_, rfl, hflow⟩
  rcases takeAll_of_means hnodup hmeans with ⟨s', hs', htaken⟩ | ⟨position, herror, -⟩
  · obtain rfl : s' = s := Except.ok.inj (hs'.symm.trans hs)
    exact htaken
  · rw [herror] at hs
    cases hs

/-- `ofFlows` succeeds iff names and flows are `Faultless`. -/
theorem exists_ofFlows_iff : (∃ d, ofFlows names flows = .ok d) ↔ Faultless names flows := by
  constructor
  · rintro ⟨d, h⟩
    obtain ⟨hnodup, resolved, s, hmeans, htaken, rfl, hflow⟩ := exists_taken h
    exact ⟨hnodup, resolved, hmeans, htaken.not_overflows,
      htaken.overflowingFlow?_eq_none_iff.1 hflow⟩
  · rintro ⟨hnodup, resolved, hmeans, hlinks, hnodes⟩
    obtain ⟨s, hs, htaken⟩ := exists_takeAll_of_means hnodup hmeans hlinks
    exact ⟨s.diagram names, ofFlows_eq_ok_iff.2 ⟨firstRepeat?_eq_none_iff.2 hnodup, resolved, s,
      (resolveAll_eq_ok_iff_means hnodup).2 hmeans, hs, rfl,
      htaken.overflowingFlow?_eq_none_iff.2 hnodes⟩⟩

/-- `d.arcs` are the `keptArcs` of what flows mean. -/
theorem arcs_of_ofFlows {d : Diagram α} (h : ofFlows names flows = .ok d)
    (hmeans : List.Forall₂ (Flow.Means names) flows resolved) :
    d.arcs = keptArcs (resolved.map ResolvedFlow.arc) := by
  obtain ⟨hnodup, resolved', s, hmeans', htaken, rfl, -⟩ := exists_taken h
  rw [Flow.Means.unique hnodup hmeans hmeans', Intake.arcs_diagram, htaken.arcs_eq]

/-- `FirstFault` carries over under `SameKept`: the amounts of flows that are left out do not
matter. -/
theorem firstFault_of_sameKept {more : List (ResolvedFlow α)}
    (hmeans : List.Forall₂ (Flow.Means names) flows resolved)
    (hothers : List.Forall₂ (Flow.Means names) others more) (hsame : SameKept resolved more)
    (h : FirstFault names flows e) : FirstFault names others e := by
  have hlinks : {p | LinkOverflowsAt more p} = {p | LinkOverflowsAt resolved p} :=
    Set.ext fun p => ⟨hsame.symm.linkOverflowsAt, hsame.linkOverflowsAt⟩
  cases h with
  | name hleast hsecond hlt hfirst => exact .name hleast hsecond hlt hfirst
  | flow hnodup hleast hflow hfault =>
    -- every flow means something
    obtain ⟨flow, hget, hnot⟩ := hleast.1
    obtain ⟨hlt, rfl⟩ := List.getElem?_eq_some_iff.1 hget
    exact absurd ⟨_, hmeans.get hlt (hmeans.length_eq ▸ hlt)⟩ hnot
  | link hnodup hmeans' hleast =>
    rw [← Flow.Means.unique hnodup hmeans hmeans', ← hlinks] at hleast
    exact .link hnodup hothers hleast
  | node hnodup hmeans' hnone hleast hname =>
    rw [← Flow.Means.unique hnodup hmeans hmeans'] at hnone hleast
    refine .node hnodup hothers (fun p hover => hnone p (hsame.symm.linkOverflowsAt hover)) ?_ hname
    simpa only [hsame.nodeOverflowsAt_iff] using hleast

/-! ## Main statement -/

/-- How names and flows fail to make a diagram, and when they make one. -/
structure ReportsFirstFault (names : List String) (flows : List (Flow α)) : Prop where
  /-- `ofFlows` reports `e` iff it is the `FirstFault`. -/
  error_iff : ∀ e, ofFlows names flows = .error e ↔ FirstFault names flows e
  /-- `ofFlows` succeeds iff names and flows are `Faultless`. -/
  ok_iff : (∃ d, ofFlows names flows = .ok d) ↔ Faultless names flows
  /-- `d.arcs` are the `keptArcs` of what the flows mean. -/
  arcs_eq : ∀ d resolved, ofFlows names flows = .ok d →
    List.Forall₂ (Flow.Means names) flows resolved →
      d.arcs = keptArcs (resolved.map ResolvedFlow.arc)
  /-- `ofFlows` reports the same for flows that are `SameKept`, whatever amounts are left out. -/
  leftOut : ∀ others resolved more, List.Forall₂ (Flow.Means names) flows resolved →
    List.Forall₂ (Flow.Means names) others more → SameKept resolved more →
      ∀ e, ofFlows names flows = .error e ↔ ofFlows names others = .error e

/-- **Of all that is wrong with names and flows `ofFlows` reports the first, names before flows
before links before nodes, and it makes a diagram if nothing is wrong.** -/
theorem ofFlows_reportsFirstFault (names : List String) (flows : List (Flow α)) :
    ReportsFirstFault names flows where
  error_iff _ := ⟨firstFault_of_ofFlows, ofFlows_of_firstFault⟩
  ok_iff := exists_ofFlows_iff
  arcs_eq _ _ := arcs_of_ofFlows
  leftOut others resolved more hmeans hothers hsame e := by
    constructor
    · intro h
      have hfault := firstFault_of_ofFlows h
      exact ofFlows_of_firstFault (firstFault_of_sameKept hmeans hothers hsame hfault)
    · intro h
      have hfault := firstFault_of_ofFlows h
      exact ofFlows_of_firstFault (firstFault_of_sameKept hothers hmeans hsame.symm hfault)

/-- A repeated name is reported, whatever is wrong with flows. -/
example : ofFlows ["a", "b", "a"] [(⟨.position 9, .named "c", -1⟩ : Flow Rat)]
    = .error (.duplicateNode "a" 0 2) := by
  decide +kernel

end Diagram

end Outcome

end SankeyDiagram
