import Mathlib.Algebra.BigOperators.Ring.List
import Mathlib.Algebra.Order.Field.Basic
import SankeyDiagram.Proofs.Sizing

/-! # The scale of a layout

What one scale for all layers does to each of them, in exact numbers.

* **`Diagram.layerScale?_eq`** taking totals relative to the greatest value changes no scale.
* **`Diagram.scale_le`** the scale of a diagram is one that every layer with flow allows.
* **`Diagram.throughput_mul_scale_le`** the nodes of a layer fit into what its gaps leave.
* **`Diagram.requiredHeight_withSizes_le`**, **`Diagram.dy_withSizes_le`** what that says of the
  height that a layer needs, and of the height of a node. -/

namespace SankeyDiagram

/-! ## The greatest and the smallest of some scalars -/

namespace Scalar

variable {xs : List Rat} {first bound : Rat}

/-- The largest of some numbers is bounded by what bounds each. -/
theorem foldl_larger_le (hfirst : first ≤ bound) (h : ∀ x ∈ xs, x ≤ bound) :
    xs.foldl larger first ≤ bound := by
  induction xs generalizing first with
  | nil => exact hfirst
  | cons x xs ih =>
    rw [List.forall_mem_cons] at h
    rw [List.foldl_cons, larger_rat]
    exact ih (max_le hfirst h.1) h.2

/-- The largest of some numbers bounds each. -/
theorem le_foldl_larger (first : Rat) (xs : List Rat) :
    first ≤ xs.foldl larger first ∧ ∀ x ∈ xs, x ≤ xs.foldl larger first := by
  induction xs generalizing first with
  | nil => simp
  | cons x xs ih =>
    have hrest := ih (max first x)
    rw [List.foldl_cons, larger_rat, List.forall_mem_cons]
    exact ⟨(le_max_left _ _).trans hrest.1, (le_max_right _ _).trans hrest.1, hrest.2⟩

/-- The smallest of some numbers is bounded by each. -/
theorem foldl_smaller_le (first : Rat) (xs : List Rat) :
    xs.foldl smaller first ≤ first ∧ ∀ x ∈ xs, xs.foldl smaller first ≤ x := by
  induction xs generalizing first with
  | nil => simp
  | cons x xs ih =>
    have hrest := ih (min first x)
    rw [List.foldl_cons, smaller_rat, List.forall_mem_cons]
    exact ⟨hrest.1.trans (min_le_left _ _), hrest.1.trans (min_le_right _ _), hrest.2⟩

/-- The smallest of some numbers is one of them. -/
theorem foldl_smaller_mem (first : Rat) (xs : List Rat) :
    xs.foldl smaller first ∈ first :: xs := by
  induction xs generalizing first with
  | nil => exact List.mem_singleton_self first
  | cons x xs ih =>
    rw [List.foldl_cons, smaller_rat]
    rcases List.mem_cons.1 (ih (min first x)) with h | h
    · rw [h, List.mem_cons, List.mem_cons]
      exact (min_choice first x).imp_right Or.inl
    · exact List.mem_cons_of_mem _ (List.mem_cons_of_mem _ h)

end Scalar

namespace Diagram

variable {d : Diagram Rat} {config : Config Rat} {layer : List NodeId} {id : NodeId}

/-! ## What flows through a layer -/

/-- The values of the nodes of a layer together. -/
def throughput (d : Diagram Rat) (layer : List NodeId) : Rat :=
  (layer.map fun id => (d.node id).value).sum

/-- The height that the gaps of a layer leave to its nodes. -/
def freeHeight (config : Config Rat) (layer : List NodeId) : Rat :=
  config.height - gaps config layer

/-- `d.peak layer` bounds the values of its nodes. -/
theorem value_le_peak (hid : id ∈ layer) : (d.node id).value ≤ d.peak layer :=
  (Scalar.le_foldl_larger 0 _).2 _ (List.mem_map_of_mem hid)

section Values

variable (hvalue : ∀ id, 0 ≤ (d.node id).value)
include hvalue

/-- `d.throughput layer` bounds the values of its nodes, as none is negative. -/
theorem value_le_throughput (hid : id ∈ layer) : (d.node id).value ≤ d.throughput layer := by
  refine List.single_le_sum ?_ _ (List.mem_map_of_mem hid)
  simpa using fun other _ => hvalue other

/-- No `throughput` is negative. -/
theorem throughput_nonneg (layer : List NodeId) : 0 ≤ d.throughput layer := by
  apply List.sum_nonneg
  simpa using fun other _ => hvalue other

/-- The peak of a layer is part of its `throughput`. -/
theorem peak_le_throughput (layer : List NodeId) : d.peak layer ≤ d.throughput layer := by
  refine Scalar.foldl_larger_le (throughput_nonneg hvalue layer) ?_
  simpa using fun other hother => value_le_throughput hvalue hother

/-- A layer without peak has no `throughput`. -/
theorem throughput_eq_zero (h : d.peak layer ≤ 0) : d.throughput layer = 0 := by
  refine List.sum_eq_zero ?_
  simpa using fun other hother => le_antisymm ((value_le_peak hother).trans h) (hvalue other)

end Values

/-! ## The scale -/

/-- `fullness` is not negative. -/
theorem fullness_nonneg : (0 : Rat) ≤ fullness := by decide +kernel

/-- `fullness` is at most one. -/
theorem fullness_le_one : (fullness : Rat) ≤ 1 := by decide +kernel

/-- The scale that a layer with flow allows is `freeHeight / throughput * fullness`; its greatest
value cancels out. -/
theorem layerScale?_eq (h : 0 < d.peak layer) : d.layerScale? config layer
    = some (freeHeight config layer / d.throughput layer * fullness) := by
  have hrelative : (layer.map fun id => (d.node id).value / d.peak layer).sum
      = d.throughput layer / d.peak layer := by
    simp only [div_eq_mul_inv, List.sum_map_mul_right, throughput]
  rw [layerScale?]
  simp only [if_neg (not_le.2 h), Scalar.sum_rat, hrelative]
  rw [div_div_div_cancel_right₀ h.ne', freeHeight]

/-- A layer without flow allows any scale. -/
theorem layerScale?_eq_none (h : d.peak layer ≤ 0) : d.layerScale? config layer = none := by
  rw [layerScale?]
  exact if_pos h

/-- `d.scale config` is a scale that every layer with flow allows. -/
theorem scale_le (hlayer : layer ∈ d.layers) (h : 0 < d.peak layer) :
    d.scale config ≤ max (freeHeight config layer / d.throughput layer * fullness) 0 := by
  have hmem : freeHeight config layer / d.throughput layer * fullness
      ∈ d.layers.filterMap (d.layerScale? config) :=
    List.mem_filterMap.2 ⟨layer, hlayer, layerScale?_eq h⟩
  rw [scale, Scalar.larger_rat]
  refine max_le_max_right 0 ?_
  cases hscales : d.layers.filterMap (d.layerScale? config) with
  | nil =>
    -- the layer itself allows a scale
    rw [hscales] at hmem
    cases hmem
  | cons first rest =>
    rw [hscales, List.mem_cons] at hmem
    have hle := Scalar.foldl_smaller_le first rest
    rcases hmem with heq | hmem
    · rw [heq]
      exact hle.1
    · exact hle.2 _ hmem

/-- Without flow `d.scale config = 0`. -/
theorem scale_eq_zero (h : ∀ layer ∈ d.layers, d.peak layer ≤ 0) : d.scale config = 0 := by
  have hnone : d.layers.filterMap (d.layerScale? config) = [] :=
    List.filterMap_eq_nil_iff.2 fun layer hlayer => layerScale?_eq_none (h layer hlayer)
  rw [scale, hnone]
  rfl

section Values

variable (hvalue : ∀ id, 0 ≤ (d.node id).value)
include hvalue

/-- `d.scale config` is at most the free height in the unit of the greatest value. -/
theorem scale_le_abs (hlayer : layer ∈ d.layers) (h : 0 < d.peak layer) :
    d.scale config ≤ |freeHeight config layer / d.peak layer| := by
  have hthroughput := peak_le_throughput hvalue layer
  refine (scale_le hlayer h).trans (max_le ?_ (abs_nonneg _))
  calc freeHeight config layer / d.throughput layer * fullness
      ≤ |freeHeight config layer| / d.throughput layer * fullness := by
        gcongr
        · exact fullness_nonneg
        · exact h.le.trans hthroughput
        · exact le_abs_self _
    _ ≤ |freeHeight config layer| / d.throughput layer :=
        mul_le_of_le_one_right (div_nonneg (abs_nonneg _) (h.le.trans hthroughput)) fullness_le_one
    _ ≤ |freeHeight config layer| / d.peak layer := by gcongr
    _ = |freeHeight config layer / d.peak layer| := by rw [abs_div, abs_of_pos h]

/-- **The nodes of a layer, as high as `throughput * scale`, fit into the height that its gaps
leave.** -/
theorem throughput_mul_scale_le (hlayer : layer ∈ d.layers) :
    d.throughput layer * d.scale config ≤ max (freeHeight config layer) 0 := by
  by_cases h : 0 < d.peak layer
  · have hpos : 0 < d.throughput layer := h.trans_le (peak_le_throughput hvalue layer)
    calc d.throughput layer * d.scale config
        ≤ d.throughput layer
            * max (freeHeight config layer / d.throughput layer * fullness) 0 :=
          mul_le_mul_of_nonneg_left (scale_le hlayer h) hpos.le
      _ = max (freeHeight config layer * fullness) 0 := by
          rw [mul_max_of_nonneg _ _ hpos.le, mul_zero, ← mul_assoc, mul_div_cancel₀ _ hpos.ne']
      _ ≤ max (freeHeight config layer) 0 := by
          -- most of what is free is less than all of it, and below zero there is nothing
          rcases le_total 0 (freeHeight config layer) with hfree | hfree
          · exact max_le_max_right 0 (mul_le_of_le_one_right hfree fullness_le_one)
          · rw [max_eq_right (mul_nonpos_of_nonpos_of_nonneg hfree fullness_nonneg)]
            exact le_max_right _ _
  · rw [throughput_eq_zero hvalue (not_lt.1 h), zero_mul]
    exact le_max_right _ _

end Values

/-! ## Heights -/

/-- After `withSizes`, a layer needs `throughput * scale` and its `gaps`. -/
theorem requiredHeight_withSizes (d : Diagram Rat) (config : Config Rat) (layer : List NodeId) :
    (d.withSizes config).requiredHeight config layer
      = d.throughput layer * d.scale config + gaps config layer := by
  rw [requiredHeight, Scalar.sum_rat, throughput, ← List.sum_map_mul_right]
  simp only [dy_node_withSizes]

section Values

variable (hvalue : ∀ id, 0 ≤ (d.node id).value)
include hvalue

/-- After `withSizes`, a layer needs no more than `config.height`, or than its `gaps` alone where
these take up more. -/
theorem requiredHeight_withSizes_le (hlayer : layer ∈ d.layers) :
    (d.withSizes config).requiredHeight config layer ≤ max config.height (gaps config layer) := by
  have hle : d.throughput layer * d.scale config ≤ max (freeHeight config layer) 0 :=
    throughput_mul_scale_le hvalue hlayer
  rw [requiredHeight_withSizes]
  rcases le_total 0 (freeHeight config layer) with hfree | hfree
  · rw [max_eq_left hfree, freeHeight] at hle
    exact le_max_of_le_left (by linarith)
  · rw [max_eq_right hfree] at hle
    exact le_max_of_le_right (by linarith)

/-- After `withSizes`, no node is higher than `config.height`. -/
theorem dy_withSizes_le (hheight : 0 ≤ config.height) (hgap : 0 ≤ config.nodePadding)
    (id : NodeId) : ((d.withSizes config).node id).dy ≤ config.height := by
  by_cases hid : d.hasNode id
  · have hmem : id ∈ d.layer (d.node id).layer := mem_layer.2 ⟨hid, rfl⟩
    have hlayer : d.layer (d.node id).layer ∈ d.layers :=
      mem_layers.2 ⟨_, layerBound_le_iff.1 le_rfl id hid, rfl⟩
    have hgaps : 0 ≤ gaps config (d.layer (d.node id).layer) :=
      mul_nonneg (Nat.cast_nonneg _) hgap
    rw [dy_node_withSizes]
    -- a node is part of its layer, which fits into the height that gaps leave
    calc (d.node id).value * d.scale config
        ≤ d.throughput (d.layer (d.node id).layer) * d.scale config :=
          mul_le_mul_of_nonneg_right (value_le_throughput hvalue hmem) (scale_nonneg d config)
      _ ≤ max (freeHeight config (d.layer (d.node id).layer)) 0 :=
          throughput_mul_scale_le hvalue hlayer
      _ ≤ config.height := max_le (sub_le_self _ hgaps) hheight
  · rw [hasNode_iff] at hid
    rw [dy_node_withSizes, d.node_of_not_lt hid]
    simpa [Node.unplaced] using hheight

end Values

end Diagram

end SankeyDiagram
