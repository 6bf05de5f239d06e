import Mathlib.Algebra.Order.BigOperators.Group.List
import Mathlib.Algebra.Order.Field.Rat
import SankeyDiagram.Proofs.Columns

/-! # Sizes and warnings

How high nodes are and which layers are reported as too high.

* **`Scalar.larger_rat`**, **`Scalar.smaller_rat`**, **`Scalar.sum_rat`** operations on scalars in
  exact numbers.
* **`Config.isFinite_dimension`**, **`Config.not_dimension_lt_zero`** the lengths of settings that
  nothing is wrong with are ordinary numbers and not below zero.
* **`Diagram.mem_layerWarnings`** a layer is reported iff it needs more height than there is.
* **`Diagram.exists_ofFlows_of_resolveAll`** exact flows do not add up to anything too great.
* **`Diagram.link_value_nonneg`**, **`Diagram.dy_withSizes_nonneg`** neither flows nor heights are
  below zero. -/

namespace SankeyDiagram

/-! ## Exact scalars -/

namespace Scalar

/-- In exact numbers `larger` is `max`. -/
@[simp] theorem larger_rat (a b : Rat) : larger a b = max a b := by
  rw [larger]
  by_cases h : a ≤ b
  · rw [if_pos h, max_eq_right h]
  · rw [if_neg h, if_pos le_rfl, max_eq_left (not_le.1 h).le]

/-- In exact numbers `smaller` is `min`. -/
@[simp] theorem smaller_rat (a b : Rat) : smaller a b = min a b := by
  rw [smaller]
  by_cases h : a ≤ b
  · rw [if_pos h, min_eq_left h]
  · rw [if_neg h, if_pos le_rfl, min_eq_right (not_le.1 h).le]

/-- In exact numbers `Scalar.sum` is `List.sum`. -/
@[simp] theorem sum_rat (xs : List Rat) : sum xs = xs.sum := by
  induction xs using List.reverseRecOn with
  | nil => rfl
  | append_singleton xs x ih =>
    rw [sum_append_singleton, ih, List.sum_append, List.sum_singleton]

end Scalar

variable {α : Type} [Scalar α]

/-! ## Settings -/

/-- If `config.error?` is `none`, nothing is wrong with any of its lengths. -/
theorem Config.dimensionError?_eq_none {config : Config α} (h : config.error? = none)
    (field : Dimension) : config.dimensionError? field = none := by
  have hmem : field ∈ Dimension.all := by
    cases field <;> decide
  rw [error?] at h
  split at h
  · cases h
  · rename_i hnone
    exact List.findSome?_eq_none_iff.1 hnone field hmem

/-- If `config.error?` is `none`, every length is an ordinary number. -/
theorem Config.isFinite_dimension {config : Config α} (h : config.error? = none)
    (field : Dimension) : Scalar.isFinite (config.dimension field) := by
  have hfield := dimensionError?_eq_none h field
  by_contra hfinite
  rw [dimensionError?, if_pos (by simpa using hfinite)] at hfield
  cases hfield

/-- If `config.error?` is `none`, no length is below zero. -/
theorem Config.not_dimension_lt_zero {config : Config α} (h : config.error? = none)
    (field : Dimension) : ¬ config.dimension field < 0 := by
  intro hneg
  have hfield := dimensionError?_eq_none h field
  rw [dimensionError?, if_neg (by simp [isFinite_dimension h field]), if_pos hneg] at hfield
  cases hfield

namespace Diagram

variable {d : Diagram α} {config : Config α}

/-! ## Warnings -/

/-- `d.layerWarnings config` reports a layer iff it needs more height than there is, by more than
`tolerance`. -/
theorem mem_layerWarnings {k : Nat} {required available : α} :
    .layerOverflow k required available ∈ d.layerWarnings config
      ↔ k < d.layerBound ∧ required = d.requiredHeight config (d.layer k) ∧
        available = config.height ∧ config.height + tolerance < required := by
  -- what a layer is reported with tells the layer, and what it needs
  have hwarning : ∀ (layer : List NodeId) (position : Nat),
      d.layerWarning? config layer position = some (.layerOverflow k required available)
        ↔ position = k ∧ required = d.requiredHeight config layer ∧ available = config.height ∧
          config.height + tolerance < required := by
    intro layer position
    rw [layerWarning?]
    by_cases h : config.height + tolerance < d.requiredHeight config layer
    · rw [if_pos h, Option.some.injEq, Warning.layerOverflow.injEq]
      constructor
      · rintro ⟨rfl, rfl, rfl⟩
        exact ⟨rfl, rfl, rfl, h⟩
      · rintro ⟨rfl, rfl, rfl, -⟩
        exact ⟨rfl, rfl, rfl⟩
    · rw [if_neg h]
      constructor
      · intro hnone
        cases hnone
      · rintro ⟨-, rfl, -, hover⟩
        exact absurd hover h
  rw [layerWarnings, List.mem_filterMap]
  constructor
  · rintro ⟨⟨layer, position⟩, hmem, hsome⟩
    obtain ⟨rfl, hrest⟩ := (hwarning layer position).1 hsome
    rw [List.mk_mem_zipIdx_iff_getElem?, getElem?_layers] at hmem
    obtain ⟨hlt, rfl⟩ := hmem
    exact ⟨hlt, hrest⟩
  · rintro ⟨hlt, hrest⟩
    refine ⟨(d.layer k, k), ?_, (hwarning _ _).2 ⟨rfl, hrest⟩⟩
    rw [List.mk_mem_zipIdx_iff_getElem?, getElem?_layers]
    exact ⟨hlt, rfl⟩

omit [Scalar α] in
/-- `d.isDegenerate` holds iff a layer is reported. -/
theorem isDegenerate_iff :
    d.isDegenerate ↔ ∃ k required available, .layerOverflow k required available ∈ d.warnings := by
  rw [isDegenerate, List.any_eq_true]
  constructor
  · rintro ⟨⟨k, required, available⟩, hmem, -⟩
    exact ⟨k, required, available, hmem⟩
  · rintro ⟨k, required, available, hmem⟩
    exact ⟨_, hmem, rfl⟩

end Diagram

/-! ## Sizes -/

namespace Diagram

variable (d : Diagram α) (config : Config α)

/-- `d.withSizes config` reports its own `layerWarnings`. -/
theorem warnings_withSizes :
    (d.withSizes config).warnings = (d.withSizes config).layerWarnings config := rfl

/-- `withSizes` puts a node at its rank in its layer, makes it as high as its value in
`d.scale config`, and leaves the rest. -/
theorem node_withSizes {id : NodeId} (hid : d.hasNode id) :
    (d.withSizes config).node id = { d.node id with
      y := (d.rank id : α), dy := (d.node id).value * d.scale config } := by
  rw [hasNode_iff] at hid
  rw [node_of_lt _ (by simpa [withSizes, scaled] using hid), d.node_of_lt hid]
  simp [withSizes, scaled]

/-- `withValues` gives a node the larger of the flows on its two sides as its value, and leaves the
rest. -/
theorem node_withValues {id : NodeId} (hid : d.hasNode id) :
    d.withValues.node id = { d.node id with
      value := Scalar.larger (d.flow (d.node id).outgoing) (d.flow (d.node id).incoming) } := by
  rw [hasNode_iff] at hid
  rw [node_of_lt _ (by simpa [withValues] using hid), d.node_of_lt hid]
  simp [withValues]

/-- `withLayers` leaves the values of nodes as they are. -/
theorem value_withLayers (id : NodeId) :
    ((d.withLayers config).node id).value = (d.node id).value := by
  by_cases hid : d.hasNode id
  · rw [node_withLayers config hid]
    rfl
  · rw [node_eq_of_not_hasNode (size_nodes_withLayers config) hid]

end Diagram

section Exact

/-! ## Nothing is too great -/

/-- In exact numbers `takeAll` takes all flows: no sum is too great. -/
theorem Intake.exists_takeAll (s : Intake Rat) (n : Nat) (flows : List (ResolvedFlow Rat))
    (position : Nat) : ∃ final, s.takeAll n flows position = .ok final := by
  induction flows generalizing s position with
  | nil => exact ⟨s, rfl⟩
  | cons flow flows ih =>
    have hstep : ∃ next, s.take n flow position = .ok next := by
      rw [take]
      split
      · exact ⟨_, rfl⟩
      · split
        · exact ⟨_, rfl⟩
        · exact ⟨_, rfl⟩
    obtain ⟨next, hnext⟩ := hstep
    rw [takeAll, hnext]
    exact ih next (position + 1)

namespace Diagram

variable {names : List String} {flows : List (Flow Rat)} {resolved : List (ResolvedFlow Rat)}

/-- In exact numbers all flows add up to ordinary numbers. -/
theorem overflowingFlow?_rat (d : Diagram Rat) : d.overflowingFlow? = none := by
  simp [overflowingFlow?]

/-- In exact numbers `ofFlows` makes a diagram once names are all different and `resolveAll`
succeeds. -/
theorem exists_ofFlows_of_resolveAll (hnames : firstRepeat? names = none)
    (hresolve : resolveAll names flows = .ok resolved) :
    ∃ taken, Intake.empty.takeAll names.length resolved 0 = .ok taken ∧
      ofFlows names flows = .ok (taken.diagram names) := by
  obtain ⟨taken, htaken⟩ := Intake.empty.exists_takeAll names.length resolved 0
  exact ⟨taken, htaken, ofFlows_eq_ok_iff.2
    ⟨hnames, resolved, taken, hresolve, htaken, rfl, overflowingFlow?_rat _⟩⟩

end Diagram

/-! ## Nothing is below zero -/

/-- The value of `ofOccurrences first later` is not below zero if no value of the flows is. -/
theorem Link.value_ofOccurrences_nonneg {first : ResolvedFlow Rat × Nat}
    {later : List (ResolvedFlow Rat × Nat)} (h : ∀ o ∈ first :: later, 0 ≤ o.1.value) :
    0 ≤ (ofOccurrences first later).value := by
  rw [List.forall_mem_cons] at h
  induction later using List.reverseRecOn with
  | nil => exact h.1
  | append_singleton later o ih =>
    rw [ofOccurrences_append]
    have hlater : ∀ o ∈ later, 0 ≤ o.1.value := fun o ho => h.2 o (List.mem_append_left _ ho)
    have hlast : 0 ≤ o.1.value := h.2 o (List.mem_append_right _ (List.mem_singleton_self o))
    exact add_nonneg (ih ⟨h.1, hlater⟩) hlast

namespace Diagram

variable {d : Diagram Rat} {names : List String} {flows : List (Flow Rat)}

/-- No link of the diagram of `ofFlows` has a value below zero. -/
theorem link_value_nonneg (h : ofFlows names flows = .ok d) (l : LinkId) :
    0 ≤ (d.link l).value := by
  obtain ⟨resolved, intake, -, hresolve, hacc, rfl, -⟩ := exists_intake h
  by_cases hl : l.index < (intake.diagram names).links.size
  · have hmem : (intake.diagram names).link l ∈ intake.links := by
      rw [link_of_lt _ hl]
      simp [Intake.diagram]
    obtain ⟨first, later, hocc, hlink, -⟩ := hacc.exists_occurrences hmem
    rw [hlink]
    -- a link adds up the amounts of its flows, none of which was below zero
    refine Link.value_ofOccurrences_nonneg fun o ho => ?_
    rw [← hocc] at ho
    obtain ⟨flow, position, hflow⟩ :=
      resolve_of_mem_resolveAll hresolve (List.mem_of_getElem? (mem_occurrences.1 ho).1)
    exact not_lt.1 (Flow.resolve_eq_ok hflow).1.2
  · have hblank : (intake.diagram names).link l = .unplaced ⟨0⟩ ⟨0⟩ 0 0 := by
      simp [link, Array.getD, hl]
    rw [hblank]
    exact le_rfl

/-- `d.flow ids` is not below zero if no value of a link is. -/
theorem flow_nonneg (h : ∀ l, 0 ≤ (d.link l).value) (ids : List LinkId) : 0 ≤ d.flow ids := by
  rw [flow, Scalar.sum_rat]
  apply List.sum_nonneg
  intro value hvalue
  obtain ⟨l, -, rfl⟩ := List.mem_map.1 hvalue
  exact h l

/-- `tolerance` is not below zero. -/
theorem tolerance_nonneg : (0 : Rat) ≤ tolerance := by decide +kernel

/-- `d.scale config` is not below zero. -/
theorem scale_nonneg (d : Diagram Rat) (config : Config Rat) : 0 ≤ d.scale config := by
  rw [scale, Scalar.larger_rat]
  exact le_max_right _ _

/-- After `withValues` and `withLayers` the value of a node is the larger of the flows on its two
sides. -/
theorem value_node_withLayers (d : Diagram Rat) (config : Config Rat) (id : NodeId) :
    ((d.withValues.withLayers config).node id).value
      = max (d.flow (d.node id).outgoing) (d.flow (d.node id).incoming) := by
  rw [value_withLayers]
  by_cases hid : d.hasNode id
  · rw [node_withValues d hid, Scalar.larger_rat]
  · rw [hasNode_iff] at hid
    rw [node_of_not_lt _ (by simpa [withValues] using hid), d.node_of_not_lt hid]
    rfl

/-- No node of the diagram of `ofFlows` gets a value below zero. -/
theorem value_nonneg (h : ofFlows names flows = .ok d) (config : Config Rat) (id : NodeId) :
    0 ≤ ((d.withValues.withLayers config).node id).value := by
  rw [value_node_withLayers]
  exact (flow_nonneg (link_value_nonneg h) _).trans (le_max_left _ _)

/-- After `withSizes` a node is as high as its value times `d.scale config`. -/
theorem dy_node_withSizes (d : Diagram Rat) (config : Config Rat) (id : NodeId) :
    ((d.withSizes config).node id).dy = (d.node id).value * d.scale config := by
  by_cases hid : d.hasNode id
  · rw [node_withSizes d config hid]
  · rw [hasNode_iff] at hid
    rw [node_of_not_lt _ (by simpa [withSizes, scaled] using hid), d.node_of_not_lt hid]
    simp [Node.unplaced]

/-- `withSizes` makes no height below zero if no value of a node is below zero. -/
theorem dy_withSizes_nonneg_of_value (h : ∀ id, 0 ≤ (d.node id).value) (config : Config Rat)
    (id : NodeId) : 0 ≤ ((d.withSizes config).node id).dy := by
  rw [dy_node_withSizes]
  exact mul_nonneg (h id) (scale_nonneg d config)

/-- `withSizes` makes no height below zero in the diagram of `ofFlows`. -/
theorem dy_withSizes_nonneg (h : ofFlows names flows = .ok d) (config : Config Rat) (id : NodeId) :
    0 ≤ (((d.withValues.withLayers config).withSizes config).node id).dy :=
  dy_withSizes_nonneg_of_value (value_nonneg h config) config id

/-- `d.requiredHeight config layer` is what the boxes of its nodes need, in any order. -/
theorem requiredHeight_eq {layer order : List NodeId} {boxes : List (Box Rat)}
    (config : Config Rat) (hperm : order.Perm layer)
    (hboxes : boxes.map Box.height = order.map fun id => (d.node id).dy) :
    d.requiredHeight config layer = Box.required config.nodePadding boxes := by
  have hsum : (layer.map fun id => (d.node id).dy).sum = (boxes.map Box.height).sum := by
    rw [hboxes]
    exact ((hperm.map _).sum_eq).symm
  have hlen : boxes.length = layer.length := by
    have hlen := congrArg List.length hboxes
    rwa [List.length_map, List.length_map, hperm.length_eq] at hlen
  rw [requiredHeight, gaps, Scalar.sum_rat, hsum, Box.required, hlen]

end Diagram

end Exact

end SankeyDiagram
