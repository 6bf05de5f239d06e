import Mathlib.Algebra.Order.Field.Basic
import SankeyDiagram.Proofs.Agreement

/-! # Units of flow

In exact numbers a layout does not depend on the unit in which flows are measured. Flows in another
unit are all multiplied by one positive factor. The scale that turns flow into height is divided by
it, and no other number that a stage computes shows it.

* **`Flow.times`**, **`Diagram.times`** flows and diagrams in another unit; nothing but values
  changes.
* **`Diagram.scale_times`** the scale is divided by the factor, so that
  **`Diagram.withSizes_times`** heights and warnings are the same.
* **`Diagram.weightedCenter?_times`** pulls are the same, and so
  **`Columns.relaxed_times`** is any number of rounds.
* **`Diagram.ofFlows_times`** flows in another unit make the diagram in that unit, or fail alike.
* **`Diagram.ofFlowsPlaced_times`** the layout is that of the flows before, in the other unit. -/

namespace SankeyDiagram

/-! ## Another unit -/

/-- A flow in another unit. -/
def Flow.times (c : Rat) (flow : Flow Rat) : Flow Rat := { flow with value := flow.value * c }

/-- A flow between positions in another unit. -/
def ResolvedFlow.times (c : Rat) (flow : ResolvedFlow Rat) : ResolvedFlow Rat :=
  { flow with value := flow.value * c }

/-- A node in another unit. -/
def Node.times (c : Rat) (n : Node Rat) : Node Rat := { n with value := n.value * c }

/-- A link in another unit. -/
def Link.times (c : Rat) (l : Link Rat) : Link Rat := { l with value := l.value * c }

/-- A flow that is left out in another unit. -/
def CircularLink.times (c : Rat) (l : CircularLink Rat) : CircularLink Rat :=
  { l with value := l.value * c }

/-- A report in another unit; one that names an amount names it in that unit. -/
def FlowError.times (c : Rat) : FlowError Rat → FlowError Rat
  | .invalidValue link value => .invalidValue link (value * c)
  | .indexOutOfRange link index nodeCount => .indexOutOfRange link index nodeCount
  | .unknownNode link name => .unknownNode link name
  | .duplicateNode name first second => .duplicateNode name first second
  | .linkFlowOverflow link => .linkFlowOverflow link
  | .nodeFlowOverflow name => .nodeFlowOverflow name

/-- Links and flows left out in another unit. -/
def Intake.times (c : Rat) (s : Intake Rat) : Intake Rat :=
  ⟨s.links.map (·.times c), s.circularLinks.map (·.times c)⟩

/-- A diagram in another unit. -/
def Diagram.times (c : Rat) (d : Diagram Rat) : Diagram Rat :=
  { d with
    nodes := d.nodes.map (·.times c)
    links := d.links.map (·.times c)
    circularLinks := d.circularLinks.map (·.times c) }

/-- Columns in another unit. -/
def Columns.times (c : Rat) (columns : Columns Rat) : Columns Rat :=
  { columns with diagram := columns.diagram.times c }

variable {c : Rat}

/-- `a * c ≤ 0` iff `a ≤ 0`, for a positive `c`. -/
theorem mul_nonpos_iff_of_pos (hc : 0 < c) {a : Rat} : a * c ≤ 0 ↔ a ≤ 0 := by
  rw [← not_lt, mul_pos_iff_of_pos_right hc, not_lt]

namespace Node

/-- A node that is not placed has no value to multiply. -/
@[simp] theorem times_unplaced (name : String) :
    (unplaced name : Node Rat).times c = unplaced name := by
  simp [times, unplaced]

/-- `times` leaves the center of a node. -/
@[simp] theorem center_times (n : Node Rat) : (n.times c).center = n.center := rfl

/-- `times` leaves the links of a node. -/
@[simp] theorem linksAt_times (n : Node Rat) (side : Side) :
    (n.times c).linksAt side = n.linksAt side := by
  cases side <;> rfl

end Node

namespace Link

/-- `times` multiplies the value of a link that is not placed. -/
theorem times_unplaced (source target : NodeId) (value : Rat) (inputIndex : Nat) :
    (unplaced source target value inputIndex).times c
      = unplaced source target (value * c) inputIndex := rfl

/-- `Link.absorb` and `times` commute. -/
theorem absorb_times (l : Link Rat) (value : Rat) :
    (l.times c).absorb (value * c) = (l.absorb value).times c := by
  simp [absorb, times, add_mul]

/-- `times` leaves the nodes that a link joins. -/
@[simp] theorem joins_times (l : Link Rat) (source target : NodeId) :
    (l.times c).joins source target = l.joins source target := rfl

/-- `times` leaves the far end of a link. -/
@[simp] theorem farEnd_times (l : Link Rat) (side : Side) :
    (l.times c).farEnd side = l.farEnd side := by
  cases side <;> rfl

/-- `Link.withSlotAt` and `times` commute. -/
theorem withSlotAt_times (l : Link Rat) (offset : Rat) (side : Side) :
    (l.times c).withSlotAt offset side = (l.withSlotAt offset side).times c := by
  cases side <;> rfl

end Link

/-! ## Taking flows -/

namespace Intake

variable (s : Intake Rat)

omit c in
/-- `successors` reads no values. -/
theorem successors_times (n : Nat) (links : List (Link Rat)) (c : Rat) :
    successors n (links.map (·.times c)) = successors n links := by
  rw [successors, successors, List.foldl_map]
  rfl

/-- `Intake.take` and `times` commute, in failures too. -/
theorem take_times (n : Nat) (flow : ResolvedFlow Rat) (position : Nat) :
    (s.times c).take n (flow.times c) position
      = ((s.take n flow position).mapError (·.times c)).map (·.times c) := by
  have hfind : (s.times c).links.find? (·.joins (flow.times c).source (flow.times c).target)
      = (s.links.find? (·.joins flow.source flow.target)).map (·.times c) := by
    rw [times, List.find?_map]
    rfl
  rw [take, take, hfind]
  cases s.links.find? (·.joins flow.source flow.target) with
  | some link =>
    -- the link between the two nodes absorbs the amount in the other unit
    have hlinks : (s.links.map (·.times c)).map (taking (flow.times c))
        = (s.links.map (taking flow)).map (·.times c) := by
      rw [List.map_map, List.map_map]
      refine List.map_congr_left fun l _ => ?_
      by_cases hjoins : l.joins flow.source flow.target
      · simpa [taking, ResolvedFlow.times, hjoins] using l.absorb_times flow.value
      · simp [taking, ResolvedFlow.times, hjoins]
    exact congrArg Except.ok (congrArg (Intake.mk · _) hlinks)
  | none =>
    have hreach : (successors n (s.times c).links).reaches (flow.times c).target
        (flow.times c).source = (successors n s.links).reaches flow.target flow.source := by
      rw [times, successors_times]
      rfl
    simp only [Option.map_none, hreach]
    split
    · simp [Except.mapError, Except.map, times, ResolvedFlow.times, CircularLink.times]
    · simp [Except.mapError, Except.map, times, ResolvedFlow.times, Link.times, Link.unplaced]

/-- `Intake.takeAll` and `times` commute, in failures too. -/
theorem takeAll_times (n : Nat) (flows : List (ResolvedFlow Rat)) (position : Nat) :
    (s.times c).takeAll n (flows.map (·.times c)) position
      = ((s.takeAll n flows position).mapError (·.times c)).map (·.times c) := by
  induction flows generalizing s position with
  | nil => rfl
  | cons flow flows ih =>
    rw [List.map_cons, takeAll, takeAll, take_times]
    cases s.take n flow position with
    | error reason => rfl
    | ok next => exact ih next (position + 1)

/-- `Intake.diagram` and `times` commute. -/
theorem diagram_times (names : List String) :
    (s.times c).diagram names = (s.diagram names).times c := by
  have hnode : ∀ (position : Nat) (name : String),
      node (s.times c).links position name = (node s.links position name).times c := by
    intro position name
    have hids : ∀ side : Side,
        linkIds (s.links.map (·.times c)) (fun l => l.nearEnd side = ⟨position⟩)
          = linkIds s.links fun l => l.nearEnd side = ⟨position⟩ := fun side =>
      linkIds_map s.links fun l => by cases side <;> rfl
    rw [times, node, node, Node.times]
    simpa [Node.unplaced] using ⟨hids .outgoing, hids .incoming⟩
  have hnodes : names.mapIdx (node (s.times c).links)
      = (names.mapIdx (node s.links)).map (·.times c) := by
    rw [List.mapIdx_eq_zipIdx_map, List.mapIdx_eq_zipIdx_map, List.map_map]
    exact List.map_congr_left fun p _ => hnode p.2 p.1
  -- roots are told by the sides of nodes, on which the links are the same
  have hroots : ((names.mapIdx (node (s.times c).links)).zipIdx.filter fun p => p.1.isSource).map
        Prod.snd
      = ((names.mapIdx (node s.links)).zipIdx.filter fun p => p.1.isSource).map Prod.snd := by
    rw [map_snd_filter_zipIdx, map_snd_filter_zipIdx, hnodes, List.length_map]
    refine List.filter_congr fun i _ => ?_
    rw [List.getElem?_map, Option.any_map]
    rfl
  have hroots' := congrArg (List.map NodeId.mk) hroots
  rw [List.map_map, List.map_map] at hroots'
  rw [diagram, diagram, Diagram.times, Diagram.mk.injEq]
  refine ⟨?_, ?_, rfl, hroots', rfl, rfl⟩
  · rw [hnodes, List.map_toArray]
  · rw [times, List.map_toArray]

end Intake

/-- `Flow.resolve` and `times` commute, in failures too. -/
theorem Flow.resolve_times (hc : 0 < c) (names : List String) (link : Nat) (flow : Flow Rat) :
    (flow.times c).resolve names link
      = ((flow.resolve names link).mapError (·.times c)).map (·.times c) := by
  have hneg : flow.value * c < 0 ↔ flow.value < 0 := by
    rw [← not_le, mul_nonneg_iff_of_pos_right hc, not_le]
  -- an endpoint that is not resolved is reported without the amount
  have hendpoint : ∀ (endpoint : Endpoint) (reason : FlowError Rat),
      endpoint.resolve names link = .error reason → reason.times c = reason := by
    intro endpoint reason h
    cases endpoint with
    | position index =>
      rw [Endpoint.resolve] at h
      split at h
      · cases h
      · rw [← Except.error.inj h]
        rfl
    | named name =>
      rw [Endpoint.resolve] at h
      split at h
      · cases h
      · rw [← Except.error.inj h]
        rfl
  rw [resolve, resolve, times]
  simp only [Scalar.isFinite_rat, Bool.not_true, Bool.false_eq_true, false_or, hneg]
  split
  · rfl
  · cases hs : flow.source.resolve (α := Rat) names link with
    | error reason => exact congrArg Except.error (hendpoint _ _ hs).symm
    | ok source =>
      cases ht : flow.target.resolve (α := Rat) names link with
      | error reason => exact congrArg Except.error (hendpoint _ _ ht).symm
      | ok target => rfl

/-- `resolveAll` and `times` commute, in failures too. -/
theorem resolveAll_times (hc : 0 < c) (names : List String) (flows : List (Flow Rat)) :
    resolveAll names (flows.map (·.times c))
      = ((resolveAll names flows).mapError (·.times c)).map (List.map (·.times c)) := by
  let resolveAt (p : Flow Rat × Nat) := p.1.resolve names p.2
  have hall : ∀ numbered : List (Flow Rat × Nat),
      (numbered.map (Prod.map (·.times c) id)).mapM resolveAt
        = ((numbered.mapM resolveAt).mapError (·.times c)).map (List.map (·.times c)) := by
    intro numbered
    induction numbered with
    | nil => rfl
    | cons p rest ih =>
      have hfirst : resolveAt (p.1.times c, p.2)
          = ((resolveAt p).mapError (·.times c)).map (·.times c) := p.1.resolve_times hc names p.2
      rw [List.map_cons, List.mapM_cons, List.mapM_cons, ih, Prod.map, id, hfirst]
      cases resolveAt p with
      | error reason => rfl
      | ok flow =>
        cases rest.mapM resolveAt with
        | error reason => rfl
        | ok flows => rfl
  rw [resolveAll, resolveAll, List.zipIdx_map]
  exact hall _

namespace Diagram

variable (d : Diagram Rat) (config : Config Rat)

/-! ## Look-up -/

/-- `times` keeps the number of nodes. -/
@[simp] theorem size_nodes_times (c : Rat) : (d.times c).nodes.size = d.nodes.size := by
  simp [times]

/-- `(d.times c).node id = (d.node id).times c`. -/
@[simp] theorem node_times (id : NodeId) : (d.times c).node id = (d.node id).times c := by
  by_cases hid : id.index < d.nodes.size
  · rw [node_of_lt _ (by simpa using hid), d.node_of_lt hid]
    simp [times]
  · rw [node_of_not_lt _ (by simpa using hid), d.node_of_not_lt hid, Node.times_unplaced]

/-- `(d.times c).link l = (d.link l).times c`. -/
@[simp] theorem link_times (l : LinkId) : (d.times c).link l = (d.link l).times c := by
  by_cases hl : l.index < d.links.size
  · rw [link_of_lt _ (by simpa [times] using hl), d.link_of_lt hl]
    simp [times]
  · simp [link, times, Array.getD, hl, Link.times_unplaced]

/-- `(d.times c).flow ids = d.flow ids * c`. -/
theorem flow_times (ids : List LinkId) : (d.times c).flow ids = d.flow ids * c := by
  rw [flow, flow, Scalar.sum_rat, Scalar.sum_rat, ← List.sum_map_mul_right]
  simp only [link_times, Link.times]

/-- **`ofFlows` and `times` commute: flows in another unit make the diagram in that unit, or fail
alike.** -/
theorem ofFlows_times (hc : 0 < c) (names : List String) (flows : List (Flow Rat)) :
    ofFlows names (flows.map (·.times c))
      = ((ofFlows names flows).mapError (·.times c)).map (·.times c) := by
  rw [ofFlows, ofFlows]
  split
  · rfl
  · rw [resolveAll_times hc]
    cases resolveAll names flows with
    | error reason => rfl
    | ok resolved =>
      have htake : (Intake.empty : Intake Rat).takeAll names.length (resolved.map (·.times c)) 0
          = ((Intake.empty.takeAll names.length resolved 0).mapError (·.times c)).map
            (·.times c) := Intake.takeAll_times Intake.empty names.length resolved 0
      simp only [Except.mapError, Except.map, bind, Except.bind, htake, overflowingFlow?_rat]
      cases Intake.empty.takeAll names.length resolved 0 with
      | error reason => rfl
      | ok intake => exact congrArg Except.ok (intake.diagram_times names)

/-! ## Values and layers -/

/-- `withValues` and `times` commute. -/
theorem withValues_times (hc : 0 ≤ c) : (d.times c).withValues = d.withValues.times c := by
  have hvalue : ∀ n : Node Rat, Scalar.larger ((d.times c).flow (n.times c).outgoing)
        ((d.times c).flow (n.times c).incoming)
      = Scalar.larger (d.flow n.outgoing) (d.flow n.incoming) * c := by
    intro n
    rw [flow_times, flow_times, Scalar.larger_rat, Scalar.larger_rat, max_mul_of_nonneg _ _ hc]
    rfl
  rw [withValues, withValues, times, times, Diagram.mk.injEq]
  refine ⟨?_, rfl, rfl, rfl, rfl, rfl⟩
  rw [Array.map_map, Array.map_map]
  exact Array.map_congr_left fun n _ => congrArg (fun value => { n with value }) (hvalue n)

/-- `sweep` reads no values. -/
theorem sweep_times (c : Rat) : (d.times c).sweep = d.sweep := by
  have htargets : (d.times c).targets = d.targets := by
    funext id
    rw [targets, targets, node_times]
    exact List.map_congr_left fun l _ => by rw [link_times]; rfl
  have hfrontiers : ∀ limit frontier,
      (d.times c).frontiers limit frontier = d.frontiers limit frontier := by
    intro limit
    induction limit with
    | zero => exact fun _ => rfl
    | succ limit ih =>
      intro frontier
      rw [frontiers, frontiers, ih, nextFrontier, nextFrontier, htargets]
  rw [sweep, sweep, hfrontiers, size_nodes_times]
  rfl

/-- `withLayers` and `times` commute. -/
theorem withLayers_times : (d.times c).withLayers config = (d.withLayers config).times c := by
  rw [withLayers, withLayers, sweep_times, times, times, Diagram.mk.injEq]
  refine ⟨?_, rfl, rfl, rfl, rfl, rfl⟩
  apply Array.ext
  · simp
  · intro i hi hi'
    simp [placeNode, placedLayer, Node.times, Node.isSink]

/-! ## Sizes -/

/-- `times` leaves `layer k`. -/
theorem layer_times (c : Rat) (k : Nat) : (d.times c).layer k = d.layer k :=
  layer_congr (d.size_nodes_times c) (fun id => by rw [node_times]; rfl) k

/-- `times` leaves `layers`. -/
theorem layers_times (c : Rat) : (d.times c).layers = d.layers :=
  layers_congr (d.size_nodes_times c) fun id => by rw [node_times]; rfl

/-- `peak` is multiplied by the factor. -/
theorem peak_times (hc : 0 ≤ c) (layer : List NodeId) :
    (d.times c).peak layer = d.peak layer * c := by
  have hfold : ∀ (values : List Rat) (greatest : Rat),
      (values.map (· * c)).foldl Scalar.larger (greatest * c)
        = values.foldl Scalar.larger greatest * c := by
    intro values
    induction values with
    | nil => exact fun _ => rfl
    | cons value values ih =>
      intro greatest
      rw [List.map_cons, List.foldl_cons, List.foldl_cons, Scalar.larger_rat, Scalar.larger_rat,
        ← max_mul_of_nonneg _ _ hc, ih]
  have hpeak := hfold (layer.map fun id => (d.node id).value) 0
  rw [zero_mul, List.map_map] at hpeak
  rw [peak, peak, ← hpeak]
  simp only [node_times]
  rfl

/-- `layerScale?` is divided by the factor: the total of a layer relative to its greatest value is
the same. -/
theorem layerScale?_times (hc : 0 < c) (layer : List NodeId) :
    (d.times c).layerScale? config layer = (d.layerScale? config layer).map (· / c) := by
  have hzero : d.peak layer * c ≤ 0 ↔ d.peak layer ≤ 0 := mul_nonpos_iff_of_pos hc
  -- the unit cancels out of the values relative to the greatest, and is left in that alone
  have hrelative : ∀ id, ((d.times c).node id).value / (d.peak layer * c)
      = (d.node id).value / d.peak layer := by
    intro id
    rw [node_times]
    exact mul_div_mul_right _ _ hc.ne'
  rw [layerScale?, layerScale?, peak_times d hc.le]
  simp only [hzero, hrelative]
  split
  · rfl
  · rw [Option.map_some, Option.some.injEq]
    rw [div_mul_eq_div_div, div_right_comm _ c, div_mul_eq_mul_div]

/-- `(d.times c).scale config = d.scale config / c`. -/
theorem scale_times (hc : 0 < c) : (d.times c).scale config = d.scale config / c := by
  have hsmaller : ∀ a b : Rat, Scalar.smaller (a / c) (b / c) = Scalar.smaller a b / c := by
    intro a b
    rw [Scalar.smaller_rat, Scalar.smaller_rat, min_div_div_right hc.le]
  have hsmallest : ∀ scales : List Rat,
      (smallest? (scales.map (· / c))).getD 0 = (smallest? scales).getD 0 / c := by
    intro scales
    cases scales with
    | nil => exact (zero_div c).symm
    | cons first rest =>
      show (rest.map (· / c)).foldl Scalar.smaller (first / c) = rest.foldl Scalar.smaller first / c
      -- by induction on the scales after the first, with any smallest one so far
      induction rest generalizing first with
      | nil => rfl
      | cons next rest ih => rw [List.map_cons, List.foldl_cons, List.foldl_cons, hsmaller, ih]
  have hscales : d.layers.filterMap ((d.times c).layerScale? config)
      = (d.layers.filterMap (d.layerScale? config)).map (· / c) := by
    rw [List.map_filterMap]
    exact List.filterMap_congr fun layer _ => d.layerScale?_times config hc layer
  rw [scale, scale, layers_times, hscales, hsmallest, Scalar.larger_rat, Scalar.larger_rat,
    ← max_div_div_right hc.le, zero_div]

/-- `withSizes` and `times` commute: heights and warnings are the same. -/
theorem withSizes_times (hc : 0 < c) :
    (d.times c).withSizes config = (d.withSizes config).times c := by
  have hdy : ∀ value : Rat, value * c * (d.scale config / c) = value * d.scale config := by
    intro value
    rw [mul_assoc, mul_div_cancel₀ _ hc.ne']
  have hrank : ∀ id, (d.times c).rank id = d.rank id := by
    intro id
    rw [rank, rank, layer_times, node_times]
    rfl
  -- the scale is smaller by the factor that values are larger by, so heights stay what they are
  have hscaled : (d.times c).scaled (d.scale config / c) = (d.scaled (d.scale config)).times c := by
    rw [scaled, scaled]
    simp only [hrank]
    rw [times, times, Diagram.mk.injEq]
    refine ⟨?_, ?_, rfl, rfl, rfl, rfl⟩
    · apply Array.ext
      · simp
      · intro i hi hi'
        simp [Node.times, hdy]
    · rw [Array.map_map, Array.map_map]
      simp only [Function.comp_def, Link.times, hdy]
  have hrequired : ∀ (e : Diagram Rat) (layer : List NodeId),
      (e.times c).requiredHeight config layer = e.requiredHeight config layer := by
    intro e layer
    rw [requiredHeight, requiredHeight]
    simp only [node_times]
    rfl
  have hwarnings : ((d.scaled (d.scale config)).times c).layerWarnings config
      = (d.scaled (d.scale config)).layerWarnings config := by
    rw [layerWarnings, layerWarnings, layers_times]
    simp only [layerWarning?, hrequired]
  rw [withSizes, withSizes, scale_times d config hc, hscaled, hwarnings]
  rfl

/-! ## Columns -/

/-- `setTop` and `times` commute. -/
theorem setTop_times (id : NodeId) (y : Rat) :
    (d.times c).setTop id y = (d.setTop id y).times c := by
  have hnodes : (d.times c).nodes.modify id.index (fun n => { n with y })
      = (d.nodes.modify id.index fun n => { n with y }).map (·.times c) := by
    rw [times]
    apply Array.ext
    · simp
    · intro i hi hi'
      simp only [Array.getElem_modify, Array.getElem_map]
      split <;> rfl
  rw [setTop, setTop, hnodes]
  rfl

/-- `setTops` and `times` commute. -/
theorem setTops_times (moves : List (NodeId × Rat)) :
    (d.times c).setTops moves = (d.setTops moves).times c := by
  refine List.foldl_hom (Diagram.times c) fun d move => ?_
  exact d.setTop_times move.1 move.2

/-- `times` leaves boxes. -/
theorem box_times (c : Rat) : (d.times c).box = d.box := by
  funext id
  rw [box, box, node_times]
  rfl

/-- `times` leaves the order of nodes from the top. -/
theorem fromTop_times (c : Rat) : (d.times c).fromTop = d.fromTop := by
  funext layer
  simp only [fromTop, node_times]
  rfl

/-- `packed` and `times` commute. -/
theorem packed_times (layer : List NodeId) :
    packed config (d.times c) layer = (packed config d layer).times c := by
  rw [packed, packed, packedTops, box_times, setTops_times]
  rfl

/-- `weightedCenter?` weighs by parts of a sum, which `times` leaves. -/
theorem weightedCenter?_times (hc : 0 < c) (side : Side) (ids : List LinkId) :
    (d.times c).weightedCenter? side ids = d.weightedCenter? side ids := by
  have hweight : ∀ l : Link Rat, (l.times c).value / (d.flow ids * c) = l.value / d.flow ids :=
    fun l => mul_div_mul_right _ _ hc.ne'
  rw [weightedCenter?, weightedCenter?, flow_times]
  simp only [mul_nonpos_iff_of_pos hc, hweight, node_times, link_times, Node.center_times,
    Link.farEnd_times]

/-- `pulled` and `times` commute. -/
theorem pulled_times (hc : 0 < c) (side : Side) (strength : Rat) (id : NodeId) :
    pulled side strength (d.times c) id = (pulled side strength d id).times c := by
  rw [pulled, pulled]
  simp only [node_times, Node.linksAt_times, Node.center_times, weightedCenter?_times d hc]
  split
  · exact d.setTop_times id _
  · rfl

/-- `Diagram.relaxed` and `times` commute. -/
theorem relaxed_times (hc : 0 < c) (side : Side) (strength : Rat) (layers : List (List NodeId)) :
    (d.times c).relaxed side strength layers = (d.relaxed side strength layers).times c := by
  refine List.foldl_hom (Diagram.times c) fun d layer => ?_
  exact List.foldl_hom (Diagram.times c) fun d id => d.pulled_times hc side strength id

end Diagram

namespace Columns

variable (columns : Columns Rat) (config : Config Rat)

/-- `settled` and `times` commute. -/
theorem settled_times (c : Rat) :
    (columns.times c).settled config = (columns.settled config).times c := by
  have hpacked : ∀ layers : List (List NodeId),
      layers.foldl (Diagram.packed config) (columns.diagram.times c)
        = (layers.foldl (Diagram.packed config) columns.diagram).times c := fun layers =>
    List.foldl_hom (Diagram.times c) fun d layer => d.packed_times config layer
  rw [settled, settled, times, Diagram.fromTop_times]
  simp only [hpacked]
  rfl

/-- `round` and `times` commute. -/
theorem round_times (hc : 0 < c) (strength : Rat) :
    (columns.times c).round config strength = (columns.round config strength).times c := by
  have hleft : ∀ columns : Columns Rat,
      (columns.times c).relaxedLeftward strength = (columns.relaxedLeftward strength).times c :=
    fun columns => congrArg (Columns.mk · _) (columns.diagram.relaxed_times hc ..)
  have hright : ∀ columns : Columns Rat,
      (columns.times c).relaxedRightward strength = (columns.relaxedRightward strength).times c :=
    fun columns => congrArg (Columns.mk · _) (columns.diagram.relaxed_times hc ..)
  rw [round, hleft, settled_times, hright, settled_times]
  rfl

/-- `Columns.relaxed` and `times` commute. -/
theorem relaxed_times (hc : 0 < c) (rounds : Nat) (strength : Rat) :
    (columns.times c).relaxed config rounds strength
      = (columns.relaxed config rounds strength).times c := by
  induction rounds generalizing columns strength with
  | zero => rfl
  | succ rounds ih =>
    rw [relaxed, relaxed]
    simp only [round_times columns config hc]
    exact ih _ _

end Columns

namespace Diagram

variable (d : Diagram Rat) (config : Config Rat)

/-- `withColumns` and `times` commute. -/
theorem withColumns_times (hc : 0 < c) (rounds : Nat) :
    (d.times c).withColumns config rounds = (d.withColumns config rounds).times c := by
  have hcolumns : ((d.withSizes config).times c).columns
      = (d.withSizes config).columns.times c := by
    rw [columns, columns, layers_times]
    rfl
  rw [withColumns, withColumns, withSizes_times d config hc, hcolumns, Columns.settled_times,
    Columns.relaxed_times _ config hc]
  rfl

/-! ## Slots -/

/-- `withLinkOrder` and `times` commute. -/
theorem withLinkOrder_times (c : Rat) : (d.times c).withLinkOrder = d.withLinkOrder.times c := by
  have horder : (d.times c).fromTopEnd = d.fromTopEnd := by
    funext side ids
    simp only [fromTopEnd, farCenter, link_times, node_times, Node.center_times, Link.farEnd_times]
  rw [withLinkOrder, withLinkOrder, horder, times, times, Diagram.mk.injEq]
  refine ⟨?_, rfl, rfl, rfl, rfl, rfl⟩
  rw [Array.map_map, Array.map_map]
  rfl

/-- `setSlot` and `times` commute. -/
theorem setSlot_times (side : Side) (l : LinkId) (offset : Rat) :
    (d.times c).setSlot side l offset = (d.setSlot side l offset).times c := by
  have hlinks : (d.times c).links.modify l.index (·.withSlotAt offset side)
      = (d.links.modify l.index (·.withSlotAt offset side)).map (·.times c) := by
    rw [times]
    apply Array.ext
    · simp
    · intro i hi hi'
      simp only [Array.getElem_modify, Array.getElem_map]
      split
      · exact Link.withSlotAt_times ..
      · rfl
  rw [setSlot, setSlot, hlinks]
  rfl

/-- `stacked` and `times` commute. -/
theorem stacked_times (side : Side) (offset : Rat) (ids : List LinkId) :
    (d.times c).stacked side offset ids = (d.stacked side offset ids).times c := by
  induction ids generalizing d offset with
  | nil => rfl
  | cons l below ih =>
    rw [stacked, stacked, setSlot_times, link_times]
    exact ih _ _

/-- `withSlots` and `times` commute. -/
theorem withSlots_times (c : Rat) : (d.times c).withSlots = d.withSlots.times c := by
  have hstacks : ∀ (d : Diagram Rat) (n : Node Rat),
      (d.times c).withStacks (n.times c) = (d.withStacks n).times c := by
    intro d n
    rw [withStacks, withStacks, stacked_times, stacked_times]
    rfl
  have hnodes : (d.withLinkOrder.times c).nodes.toList
      = d.withLinkOrder.nodes.toList.map (·.times c) := by
    rw [times, Array.toList_map]
  rw [withSlots, withSlots, withLinkOrder_times, hnodes, List.foldl_map]
  exact List.foldl_hom (Diagram.times c) hstacks

/-! ## Main statement -/

/-- `placed` and `times` commute. -/
theorem placed_times (hc : 0 < c) (rounds : Nat) :
    (d.times c).placed config rounds = (d.placed config rounds).times c := by
  rw [placed, withValues_times d hc.le, withLayers_times, withColumns_times _ config hc,
    withSlots_times, placed]

/-- **In exact numbers `ofFlowsPlaced` and `times` commute for a positive factor: values are
multiplied by it, and everything else is the same; if the flows make no diagram, they fail for the
same reason.** -/
theorem ofFlowsPlaced_times (hc : 0 < c) (names : List String) (flows : List (Flow Rat))
    (config : Config Rat) (rounds : Nat) :
    ofFlowsPlaced names (flows.map (·.times c)) config rounds
      = ((ofFlowsPlaced names flows config rounds).mapError (·.times c)).map (·.times c) := by
  rw [ofFlowsPlaced, ofFlowsPlaced, ofFlows_times hc]
  cases ofFlows names flows with
  | error reason => rfl
  | ok d => exact congrArg Except.ok (d.placed_times config hc rounds)

/-- The detour in thirds. -/
theorem ofFlowsPlaced_times_detour :
    (0 : Rat) < 1 / 3 ∧
      ofFlowsPlaced detourNames detourFlows .standard 2
        = .ok (detourDiagram.placed .standard 2) ∧
      ofFlowsPlaced detourNames (detourFlows.map (·.times (1 / 3))) .standard 2
        = .ok ((detourDiagram.placed .standard 2).times (1 / 3)) := by
  have hthird : (0 : Rat) < 1 / 3 := by decide +kernel
  have hdetour : ofFlows detourNames detourFlows = .ok detourDiagram := by decide +kernel
  have hplaced : ofFlowsPlaced detourNames detourFlows .standard 2
      = .ok (detourDiagram.placed .standard 2) :=
    ofFlowsPlaced_eq_ok_iff.2 ⟨detourDiagram, hdetour, rfl⟩
  refine ⟨hthird, hplaced, ?_⟩
  rw [ofFlowsPlaced_times hthird, hplaced]
  rfl

end Diagram

end SankeyDiagram
