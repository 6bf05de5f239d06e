import Mathlib.Algebra.Order.Field.Rat
import SankeyDiagram.Proofs.Agreement

/-! # The order of flows

Flows that make no cycle can be given in any order. Links come in the order of their first flows,
and so do the links at the sides of nodes; but in exact numbers sums do not depend on it, no flow is
left out because of the flows before it, and layers are told by the longest walks.

* **`Link.ofArc`** the link that all flows between two nodes share, wherever they stand.
* **`Diagram.Reorders`** two diagrams are the same but for the order of their links.
* **`Diagram.Reorders.samePulls`**, **`Diagram.Reorders.sameGraph`** no stage up to the columns
  tells them apart; **`Diagram.Reorders.placed`** they are laid out alike.
* **`Diagram.ofFlowsPlaced_reorders`** flows without cycles are laid out alike in any order. -/

namespace SankeyDiagram

/-! ## Links without their order -/

/-- A link without its slots and without the position of its first flow. -/
def Link.unordered {α : Type} [Scalar α] (l : Link α) : Link α :=
  { l with sy := 0, ty := 0, inputIndex := 0 }

/-- The sum of the flows between two nodes. -/
def total (flows : List (ResolvedFlow Rat)) (arc : Arc) : Rat :=
  ((flows.filter fun flow => flow.arc = arc).map ResolvedFlow.value).sum

/-- The link that all flows between two nodes share, wherever they stand. -/
def Link.ofArc (flows : List (ResolvedFlow Rat)) (arc : Arc) : Link Rat :=
  { unplaced arc.1 arc.2 (total flows arc) 0 with
    merged := UInt64.ofNat (flows.filter fun flow => flow.arc = arc).length }

/-- `Link.ofArc` sums exact amounts, and does not depend on their order. -/
theorem Link.ofArc_congr {flows others : List (ResolvedFlow Rat)} (h : others.Perm flows) :
    Link.ofArc others = Link.ofArc flows := by
  funext arc
  have hbetween := h.filter fun flow => flow.arc = arc
  rw [ofArc, ofArc, total, total, (hbetween.map _).sum_eq, hbetween.length_eq]

/-! ## Taking flows in another order -/

namespace Intake

variable {s other : Intake Rat} {flows others : List (ResolvedFlow Rat)} {names : List String}

/-- Under `Accounts` a link is `Link.ofArc` of the flows along its arc, but for its order. -/
theorem Accounts.unordered_eq (h : s.Accounts flows) {l : Link Rat} (hl : l ∈ s.links) :
    l.unordered = .ofArc flows l.arc := by
  obtain ⟨first, later, hocc, hlink, -⟩ := h.exists_occurrences hl
  have hbetween := map_fst_occurrences flows l.arc
  rw [hocc, List.map_cons] at hbetween
  -- a link adds up flow by flow, from the first on
  have hsum : ∀ (sum : Rat) (later : List (ResolvedFlow Rat × Nat)),
      later.foldl (fun sum o => sum + o.1.value) sum
        = sum + ((later.map Prod.fst).map ResolvedFlow.value).sum := by
    intro sum later
    induction later generalizing sum with
    | nil => simp
    | cons o later ih =>
      rw [List.foldl_cons, ih, List.map_cons, List.map_cons, List.sum_cons, add_assoc]
  have harc : l.arc = (first.1.source, first.1.target) := by
    rw [hlink, Link.ofOccurrences_eq]
    rfl
  rw [Link.ofArc, total, ← hbetween, List.map_cons, List.sum_cons, ← hsum, harc]
  conv_lhs => rw [hlink, Link.ofOccurrences_eq]
  simp [Link.unordered, Link.unplaced]

/-- Two intakes that account for the same flows without cycles have the same arcs, each once. -/
theorem Accounts.arcs_perm (h : s.Accounts flows) (hother : other.Accounts others)
    (hnil : s.circularLinks = []) (hnil' : other.circularLinks = []) (hperm : others.Perm flows) :
    other.arcs.Perm s.arcs := by
  rw [List.perm_ext_iff_of_nodup hother.nodup_arcs h.nodup_arcs]
  intro arc
  have hmem := (hperm.map ResolvedFlow.arc).mem_iff (a := arc)
  -- as nothing is left out, every flow has a link, and only flows have one
  constructor
  · intro harc
    exact h.mem_arcs_of_mem hnil (hmem.1 (hother.arcs_subset harc))
  · intro harc
    exact hother.mem_arcs_of_mem hnil' (hmem.2 (h.arcs_subset harc))

/-- Two intakes that account for the same flows without cycles have the same `Link.unordered`. -/
theorem Accounts.links_perm (h : s.Accounts flows) (hother : other.Accounts others)
    (hnil : s.circularLinks = []) (hnil' : other.circularLinks = []) (hperm : others.Perm flows) :
    (other.links.map Link.unordered).Perm (s.links.map Link.unordered) := by
  have hlinks : ∀ {s : Intake Rat} {flows : List (ResolvedFlow Rat)}, s.Accounts flows →
      s.links.map Link.unordered = s.arcs.map (Link.ofArc flows) := by
    intro s flows h
    rw [arcs, List.map_map]
    exact List.map_congr_left fun l hl => h.unordered_eq hl
  rw [hlinks h, hlinks hother, Link.ofArc_congr hperm]
  exact (h.arcs_perm hother hnil hnil' hperm).map _

end Intake

/-- `resolveAll` of rearranged flows rearranges what they are resolved to. -/
theorem exists_resolveAll_perm {α : Type} [Scalar α] {names : List String}
    {flows others : List (Flow α)} {resolved : List (ResolvedFlow α)}
    (h : resolveAll names flows = .ok resolved) (hperm : others.Perm flows) :
    ∃ moved, resolveAll names others = .ok moved ∧ moved.Perm resolved := by
  obtain ⟨moved, hmoved, hsame⟩ := List.perm_comp_forall₂ hperm (resolveAll_eq_ok_iff.1 h)
  exact ⟨moved, resolveAll_eq_ok_iff.2 hmoved, hsame⟩

/-! ## Reordered diagrams -/

namespace Diagram

/-- A diagram is the same as another but for the order of its links, which shows in the lists of
links at the sides of nodes, in slots, and in which flow is the first of a link. -/
structure Reorders {α : Type} [Scalar α] (e d : Diagram α) : Prop where
  /-- `e` has as many nodes as `d`. -/
  size_nodes : e.nodes.size = d.nodes.size
  /-- Nodes are the same up to `Node.unlinked`, and in the same places. -/
  unlinked : ∀ id, (e.node id).unlinked = (d.node id).unlinked
  /-- Links are the same up to `Link.unordered`, of the same values, counts and thicknesses. -/
  links_perm : (e.links.toList.map Link.unordered).Perm (d.links.toList.map Link.unordered)
  /-- No two links of `e` join the same nodes. -/
  nodup_arcs : e.arcs.Nodup
  /-- `e` leaves out the flows that `d` leaves out. -/
  circularLinks : e.circularLinks = d.circularLinks
  /-- The roots are the same. -/
  roots : e.roots = d.roots
  /-- `e` has as many layers as `d`. -/
  layerCount : e.layerCount = d.layerCount
  /-- `e` reports the layers that `d` reports, with the same heights. -/
  warnings : e.warnings = d.warnings

/-- In a `WellFormed` diagram the links on a side of a node are those that end there. -/
theorem WellFormed.map_link_linksAt_perm {α : Type} [Scalar α] {d : Diagram α} (h : d.WellFormed)
    (side : Side) (id : NodeId) :
    (((d.node id).linksAt side).map d.link).Perm
      (d.links.toList.filter fun l => l.nearEnd side = id) := by
  have hall : ((List.range d.links.size).map LinkId.mk).map d.link = d.links.toList := by
    apply List.ext_getElem
    · simp
    · intro i hi hi'
      have hlt : i < d.links.size := by simpa using hi'
      have hlink : d.link ⟨i⟩ = d.links[i] := d.link_of_lt hlt
      simpa using hlink
  have hids : ((d.node id).linksAt side).Perm (((List.range d.links.size).map LinkId.mk).filter
      fun l => (d.link l).nearEnd side = id) := by
    have hnodup : ((List.range d.links.size).map LinkId.mk).Nodup :=
      List.nodup_range.map fun _ _ heq => congrArg LinkId.index heq
    -- neither list holds a link twice, so that the same members are enough
    rw [List.perm_ext_iff_of_nodup (h.nodup_linksAt side id) (hnodup.filter _)]
    intro l
    rw [h.mem_linksAt, List.mem_filter, hasLink_iff, decide_eq_true_eq]
    refine and_congr_left fun _ => ?_
    rw [List.mem_map]
    constructor
    · intro hl
      exact ⟨l.index, List.mem_range.2 hl, rfl⟩
    · rintro ⟨i, hi, rfl⟩
      exact List.mem_range.1 hi
  rw [← hall, List.filter_map]
  exact hids.map d.link

namespace Reorders

section Pulls

variable {d e : Diagram Rat} (h : e.Reorders d)
include h

/-- `Reorders` rearranges arcs. -/
theorem arcs_perm : e.arcs.Perm d.arcs := by
  have hbare : ∀ d : Diagram Rat, d.arcs = (d.links.toList.map Link.unordered).map Link.arc := by
    intro d
    rw [arcs, List.map_map]
    rfl
  rw [hbare e, hbare d]
  exact h.links_perm.map _

/-- `Reorders` gives `SameGraph`. -/
theorem sameGraph : e.SameGraph d := ⟨h.size_nodes, fun _ => h.arcs_perm.mem_iff⟩

/-- `Reorders` rearranges the links on a side of a node. -/
theorem linksAt_perm (he : e.WellFormed) (hd : d.WellFormed) (side : Side) (id : NodeId) :
    ((((e.node id).linksAt side).map e.link).map Link.unordered).Perm
      ((((d.node id).linksAt side).map d.link).map Link.unordered) := by
  have hnear : ∀ d : Diagram Rat, (d.links.toList.filter fun l => l.nearEnd side = id).map
        Link.unordered
      = (d.links.toList.map Link.unordered).filter fun l => l.nearEnd side = id := by
    intro d
    rw [List.filter_map]
    cases side <;> rfl
  refine ((he.map_link_linksAt_perm side id).map _).trans
    (List.Perm.trans ?_ ((hd.map_link_linksAt_perm side id).map _).symm)
  rw [hnear, hnear]
  exact h.links_perm.filter _

/-- `Reorders` gives `SamePulls`, as exact sums do not depend on the order. -/
theorem samePulls (he : e.WellFormed) (hd : d.WellFormed) : e.SamePulls d where
  size_nodes := h.size_nodes
  isEmpty_eq side id := by
    simpa using (h.linksAt_perm he hd side id).isEmpty_eq
  sum_eq side id f := by
    -- what is summed up does not tell in which order links are
    have hsum : ∀ d : Diagram Rat,
        (((d.node id).linksAt side).map fun l => f ((d.link l).farEnd side) (d.link l).value)
          = ((((d.node id).linksAt side).map d.link).map Link.unordered).map
            fun l => f (l.farEnd side) l.value := by
      intro d
      rw [List.map_map, List.map_map]
      cases side <;> rfl
    rw [Scalar.sum_rat, Scalar.sum_rat, hsum, hsum]
    exact ((h.linksAt_perm he hd side id).map _).sum_eq

end Pulls

end Reorders

/-! ## Layouts -/

section Placed

variable {α : Type} [Scalar α] (d : Diagram α) (config : Config α) (rounds : Nat)

/-- `placed` gives links their thickness, in the `scale` of the layers, and slots. -/
theorem map_unordered_placed :
    (d.placed config rounds).links.toList.map Link.unordered
      = (d.links.toList.map Link.unordered).map fun l =>
        { l with dy := l.value * (d.withValues.withLayers config).scale config } := by
  generalize hlayers : d.withValues.withLayers config = layered
  have hslots : (d.placed config rounds).links.map Link.unslotted
      = (layered.withColumns config rounds).links.map Link.unslotted := by
    rw [placed, hlayers]
    exact congrArg Diagram.links (layered.withColumns config rounds).unslotted_withSlots
  have hcolumns : (layered.withColumns config rounds).links
      = d.links.map fun l => { l with dy := l.value * layered.scale config } := by
    have hkept := congrArg Diagram.links (layered.flattened_withColumns config rounds)
    have hlinks : layered.links = d.links := by
      rw [← hlayers]
      rfl
    rw [← hlinks]
    exact hkept
  have hmap : ∀ links : Array (Link α),
      links.toList.map Link.unordered = (links.map Link.unslotted).toList.map Link.unordered := by
    intro links
    rw [Array.toList_map, List.map_map]
    rfl
  -- `unordered` forgets slots, so that the last stage does not matter
  rw [hmap, hslots, ← hmap, hcolumns, Array.toList_map, List.map_map, List.map_map]
  rfl

end Placed

/-- `placed` keeps `Reorders`. -/
theorem Reorders.placed {d e : Diagram Rat} (h : e.Reorders d) (he : e.WellFormed)
    (hd : d.WellFormed) (hac : Acyclic d.arcs) (config : Config Rat) (rounds : Nat) :
    (e.placed config rounds).Reorders (d.placed config rounds) := by
  have hpulls := h.samePulls he hd
  have hwf := d.redraws_withValues.wellFormed hd
  have hwf' := e.redraws_withValues.wellFormed he
  have hgraph : e.withValues.SameGraph d.withValues := by
    refine ⟨?_, fun arc => ?_⟩
    · rw [e.redraws_withValues.size_nodes, h.size_nodes, d.redraws_withValues.size_nodes]
    · rw [e.redraws_withValues.arcs, d.redraws_withValues.arcs]
      exact h.sameGraph.mem_arcs_iff arc
  have hname : ∀ id, (e.withValues.node id).name = (d.withValues.node id).name := by
    intro id
    have hnode := congrArg Node.name (h.unlinked id)
    rw [e.redraws_withValues.name, d.redraws_withValues.name]
    exact hnode
  rw [← d.redraws_withValues.arcs] at hac
  -- from the layers on only what was placed counts, not how it was
  generalize hlayers : d.withValues.withLayers config = layered
  generalize hlayers' : e.withValues.withLayers config = layered'
  have hunsized : ∀ id, (layered'.node id).unsized = (layered.node id).unsized := by
    rw [← hlayers, ← hlayers']
    exact hgraph.unsized_withLayers hwf' hwf hac hname hpulls.value_withValues config
  have hcount : layered'.layerCount = layered.layerCount := by
    rw [← hlayers, ← hlayers']
    exact hgraph.length_sweep hwf' hwf hac
  have hlayered : layered'.SamePulls layered := by
    rw [← hlayers, ← hlayers']
    have hfirst := (sameFlows_withLayers e.withValues config).trans e.sameFlows_withValues
    have hlast := (sameFlows_withLayers d.withValues config).trans d.sameFlows_withValues
    exact (hfirst.samePulls.trans hpulls).trans hlast.samePulls.symm
  have hlayer := fun id => Node.layer_eq_of_unsized (hunsized id)
  have hvalue := fun id => Node.value_eq_of_unsized (hunsized id)
  have hscale : layered'.scale config = layered.scale config :=
    scale_congr (layers_congr hlayered.size_nodes hlayer) hvalue config
  have hredraw := e.redraws_placed config rounds
  have hredraw' := d.redraws_placed config rounds
  have hslots := (layered.withColumns config rounds).samePlaces_withSlots
  have hslots' := (layered'.withColumns config rounds).samePlaces_withSlots
  -- counts and lists are read off `Redraws`, places off the columns
  refine ⟨?_, fun id => ?_, ?_, ?_, ?_, ?_, ?_, ?_⟩
  · rw [hredraw.size_nodes, h.size_nodes, hredraw'.size_nodes]
  · rw [Diagram.placed, Diagram.placed, hlayers, hlayers', hslots.unlinked, hslots'.unlinked]
    exact hlayered.unlinked_withColumns hunsized config rounds id
  · rw [map_unordered_placed, map_unordered_placed, hlayers, hlayers', hscale]
    exact h.links_perm.map _
  · rw [hredraw.arcs]
    exact h.nodup_arcs
  · rw [hredraw.circularLinks, h.circularLinks, hredraw'.circularLinks]
  · rw [hredraw.roots, h.roots, hredraw'.roots]
  · rw [Diagram.placed, Diagram.placed, hlayers, hlayers', hslots.layerCount, hslots'.layerCount,
      layerCount_withColumns, layerCount_withColumns, hcount]
  · rw [Diagram.placed, Diagram.placed, hlayers, hlayers', hslots.warnings, hslots'.warnings]
    exact hlayered.warnings_withColumns hlayer hvalue config rounds

/-! ## Main statement -/

/-- `SameGraph` diagrams have the same roots. -/
theorem SameGraph.roots_eq {α : Type} [Scalar α] {d e : Diagram α} (h : e.SameGraph d)
    (he : e.WellFormed) (hd : d.WellFormed) : e.roots = d.roots := by
  have hmem : ∀ id, id ∈ e.roots ↔ id ∈ d.roots := by
    intro id
    rw [he.mem_roots_iff, hd.mem_roots_iff, h.hasNode]
    simp only [h.mem_arcs_iff]
  have hids : e.nodeIds = d.nodeIds := by rw [nodeIds, h.size_nodes, nodeIds]
  rw [he.roots_eq, hd.roots_eq] at hmem ⊢
  rw [hids] at hmem ⊢
  refine List.filter_congr fun id hid => ?_
  simpa [List.mem_filter, hid] using hmem id

variable {names : List String} {flows others : List (Flow Rat)} {d : Diagram Rat}

/-- `ofFlows` of rearranged flows without cycles succeeds, with a diagram that `Reorders` the
other. -/
theorem ofFlows_reorders (h : ofFlows names flows = .ok d) (hnil : d.circularLinks = [])
    (hperm : others.Perm flows) : ∃ e, ofFlows names others = .ok e ∧ e.Reorders d := by
  obtain ⟨resolved, intake, hrepeat, hresolve, hacc, rfl, -⟩ := exists_intake h
  obtain ⟨moved, hmoved, hsame⟩ := exists_resolveAll_perm hresolve hperm
  obtain ⟨other, hother, hmade⟩ := exists_ofFlows_of_resolveAll hrepeat hmoved
  have haccother : other.Accounts moved :=
    Intake.empty_accounts.takeAll (arcsBelow_of_resolveAll hmoved) hother
  -- that flows make no cycle does not depend on their order
  have hnil' : other.circularLinks = [] := by
    rw [haccother.circularLinks_eq_nil_iff]
    exact (hacc.circularLinks_eq_nil_iff.1 hnil).mono ((hsame.map _).subset)
  have hwf := hacc.wellFormed (arcsBelow_of_resolveAll hresolve)
  have hwf' := haccother.wellFormed (arcsBelow_of_resolveAll hmoved)
  have hgraph : (other.diagram names).SameGraph (intake.diagram names) := by
    refine ⟨by simp, fun arc => ?_⟩
    rw [Intake.arcs_diagram, Intake.arcs_diagram]
    exact (hacc.arcs_perm haccother hnil hnil' hsame).mem_iff
  refine ⟨other.diagram names, hmade, ?_, fun id => ?_, ?_, hwf'.nodup_arcs, ?_, ?_, rfl, rfl⟩
  · exact hgraph.size_nodes
  · by_cases hid : id.index < names.length
    · rw [Intake.node_diagram hid, Intake.node_diagram hid]
      rfl
    · rw [node_of_not_lt _ (by simpa using hid), node_of_not_lt _ (by simpa using hid)]
  · simpa [Intake.diagram] using hacc.links_perm haccother hnil hnil' hsame
  · exact hnil'.trans hnil.symm
  · exact hgraph.roots_eq hwf' hwf

/-- **In exact numbers flows that make no cycle are laid out alike in any order, by `Reorders`**:
none of them is left out, the same nodes are joined, by links of the same values, counts and
thicknesses, and the nodes are in the same places. -/
theorem ofFlowsPlaced_reorders {config : Config Rat} {rounds : Nat}
    {resolved : List (ResolvedFlow Rat)} (h : ofFlowsPlaced names flows config rounds = .ok d)
    (hresolve : resolveAll names flows = .ok resolved)
    (hac : Acyclic (resolved.map ResolvedFlow.arc)) (hperm : others.Perm flows) :
    d.circularLinks = [] ∧
      ∃ e, ofFlowsPlaced names others config rounds = .ok e ∧ e.Reorders d := by
  obtain ⟨first, hfirst, rfl⟩ := ofFlowsPlaced_eq_ok_iff.1 h
  have hnil : first.circularLinks = [] := by
    obtain ⟨resolved', intake, -, hresolve', hacc, rfl, -⟩ := exists_intake hfirst
    obtain rfl : resolved' = resolved := Except.ok.inj (hresolve'.symm.trans hresolve)
    exact hacc.circularLinks_eq_nil_iff.2 hac
  obtain ⟨e, he, hreorders⟩ := ofFlows_reorders hfirst hnil hperm
  obtain ⟨-, hwf, hacyclic⟩ := wellFormed_ofFlows hfirst
  refine ⟨?_, e.placed config rounds, ofFlowsPlaced_eq_ok_iff.2 ⟨e, he, rfl⟩,
    hreorders.placed (wellFormed_ofFlows he).2.1 hwf hacyclic config rounds⟩
  rw [(first.redraws_placed config rounds).circularLinks, hnil]

/-- The flows of the detour, and one more between two of its nodes. -/
def busyFlows : List (Flow Rat) := detourFlows ++ [⟨.position 0, .position 1, 4⟩]

/-- The detour, given from its end on: the two flows that share a link change places. -/
theorem ofFlowsPlaced_reorders_busy :
    ∃ d resolved, ofFlowsPlaced detourNames busyFlows .standard 2 = .ok d ∧
      resolveAll detourNames busyFlows = .ok resolved ∧
      Acyclic (resolved.map ResolvedFlow.arc) ∧ busyFlows.reverse.Perm busyFlows ∧
      d.circularLinks = [] ∧
      ∃ e, ofFlowsPlaced detourNames busyFlows.reverse .standard 2 = .ok e ∧ e.Reorders d := by
  have hbusy : (ofFlows detourNames busyFlows).map circularLinks = .ok [] := by decide +kernel
  cases hfirst : ofFlows detourNames busyFlows with
  | error reason =>
    rw [hfirst] at hbusy
    cases hbusy
  | ok first =>
    rw [hfirst] at hbusy
    obtain ⟨resolved, intake, -, hresolve, hacc, rfl, -⟩ := exists_intake hfirst
    have hac : Acyclic (resolved.map ResolvedFlow.arc) :=
      hacc.circularLinks_eq_nil_iff.1 (Except.ok.inj hbusy)
    have hplaced : ofFlowsPlaced detourNames busyFlows .standard 2
        = .ok ((intake.diagram detourNames).placed .standard 2) :=
      ofFlowsPlaced_eq_ok_iff.2 ⟨_, hfirst, rfl⟩
    have hperm := List.reverse_perm busyFlows
    exact ⟨_, resolved, hplaced, hresolve, hac, hperm,
      ofFlowsPlaced_reorders hplaced hresolve hac hperm⟩

end Diagram

end SankeyDiagram
