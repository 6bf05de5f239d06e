import Mathlib.Algebra.Order.Field.Basic
import SankeyDiagram.Proofs.Agreement
import SankeyDiagram.Proofs.Scale
import SankeyDiagram.Proofs.Spacing

/-! # How far layers are filled

The scale of a layout is the greatest at which no layer with flow takes up more than a part of the
height that its gaps leave, in exact numbers. So it is never flow that makes a layer too high: a
layer is reported iff its gaps alone need more height than there is.

* **`Diagram.pairwise_layerWarnings`** layers are reported from the left, each at most once.
* **`Diagram.allowedScales`** the scales that layers with flow allow;
  **`Diagram.isLeast_scale`** the scale is the least of them, or zero.
* **`Diagram.isGreatest_fittingScales`** the least scale allowed is the greatest that fits.
* **`Diagram.lt_requiredHeight_withSizes_iff`** a layer is too high iff its gaps are.
* **`Diagram.FillsLayers`** what all this says of a layout;
  **`Diagram.ofFlows_withColumns_fillsLayers`** it is so for the diagram of flows. -/

namespace SankeyDiagram

/-- The layer that a warning reports. -/
def Warning.layer {α : Type} : Warning α → Nat
  | .layerOverflow layer _ _ => layer

namespace Diagram

/-! ## The order of warnings -/

section Warnings

variable {α : Type} [Scalar α] {d : Diagram α} {config : Config α}

/-- `layerWarning?` reports the layer that it is asked for. -/
theorem layer_of_layerWarning? {layer : List NodeId} {position : Nat} {warning : Warning α}
    (h : d.layerWarning? config layer position = some warning) : warning.layer = position := by
  rw [layerWarning?] at h
  split at h
  · rw [← Option.some.inj h]
    rfl
  · cases h

/-- `layerWarnings` go from the left, with each layer at most once. -/
theorem pairwise_layerWarnings (d : Diagram α) (config : Config α) :
    (d.layerWarnings config).Pairwise fun v w => v.layer < w.layer := by
  have hpositions : d.layers.zipIdx.Pairwise fun p q => p.2 < q.2 := by
    rw [← List.pairwise_map, List.zipIdx_map_snd]
    exact List.pairwise_lt_range'
  refine hpositions.filterMap _ fun p q hlt v hv w hw => ?_
  rw [layer_of_layerWarning? hv, layer_of_layerWarning? hw]
  exact hlt

end Warnings

/-! ## The scale as a greatest one -/

variable {d : Diagram Rat} {config : Config Rat} {layer : List NodeId} {c : Rat}

/-- The scales at each of which one of the layers with flow takes up the part of its free height
that it may. -/
def allowedScales (d : Diagram Rat) (config : Config Rat) : Set Rat :=
  {c | ∃ layer ∈ d.layers, 0 < d.throughput layer ∧
    c = freeHeight config layer / d.throughput layer * fullness}

/-- `scale` is the smallest `layerScale?`, and zero if there is none. -/
theorem scale_of_smallest? (h : smallest? (d.layers.filterMap (d.layerScale? config)) = some c) :
    d.scale config = max c 0 := by
  rw [scale, h, Option.getD_some, Scalar.larger_rat]

section Values

variable (hvalue : ∀ id, 0 ≤ (d.node id).value)
include hvalue

/-- `0 < d.peak layer` iff flow passes through a node of the layer. -/
theorem peak_pos_iff : 0 < d.peak layer ↔ 0 < d.throughput layer := by
  constructor
  · intro h
    exact h.trans_le (peak_le_throughput hvalue layer)
  · intro h
    by_contra hpeak
    exact h.ne' (throughput_eq_zero hvalue (not_lt.1 hpeak))

/-- The scales of `layerScale?` are `allowedScales`. -/
theorem mem_filterMap_layerScale?_iff :
    c ∈ d.layers.filterMap (d.layerScale? config) ↔ c ∈ d.allowedScales config := by
  rw [List.mem_filterMap]
  refine exists_congr fun layer => and_congr_right fun _ => ?_
  rw [← peak_pos_iff hvalue]
  by_cases h : 0 < d.peak layer
  · rw [layerScale?_eq h, Option.some.injEq, eq_comm]
    exact (and_iff_right h).symm
  · rw [layerScale?_eq_none (not_lt.1 h)]
    constructor
    · intro hnone
      cases hnone
    · rintro ⟨hpos, -⟩
      exact absurd hpos h

/-- If flow passes through a layer, `allowedScales` has a least element. -/
theorem exists_isLeast (hflow : ∃ layer ∈ d.layers, 0 < d.throughput layer) :
    ∃ c, IsLeast (d.allowedScales config) c ∧ d.scale config = max c 0 := by
  obtain ⟨layer, hlayer, hpos⟩ := hflow
  have hmem : freeHeight config layer / d.throughput layer * fullness
      ∈ d.layers.filterMap (d.layerScale? config) :=
    (mem_filterMap_layerScale?_iff hvalue).2 ⟨layer, hlayer, hpos, rfl⟩
  -- folding takes one of the scales, and none of them is less
  cases hscales : d.layers.filterMap (d.layerScale? config) with
  | nil =>
    rw [hscales] at hmem
    cases hmem
  | cons first rest =>
    refine ⟨rest.foldl Scalar.smaller first, ⟨?_, fun c hc => ?_⟩, ?_⟩
    · rw [← mem_filterMap_layerScale?_iff hvalue, hscales]
      exact Scalar.foldl_smaller_mem first rest
    · rw [← mem_filterMap_layerScale?_iff hvalue, hscales, List.mem_cons] at hc
      have hle := Scalar.foldl_smaller_le first rest
      rcases hc with rfl | hc
      · exact hle.1
      · exact hle.2 c hc
    · apply scale_of_smallest?
      rw [hscales, smallest?]

/-- Without flow `d.scale config = 0`. -/
theorem scale_eq_zero_of_throughput (hnone : ∀ layer ∈ d.layers, ¬ 0 < d.throughput layer) :
    d.scale config = 0 :=
  scale_eq_zero fun layer hlayer =>
    not_lt.1 fun hpeak => hnone layer hlayer ((peak_pos_iff hvalue).1 hpeak)

/-- A positive `scale` is the least of `allowedScales`. -/
theorem isLeast_scale (hpos : 0 < d.scale config) :
    IsLeast (d.allowedScales config) (d.scale config) := by
  have hflow : ∃ layer ∈ d.layers, 0 < d.throughput layer := by
    by_contra hnone
    push Not at hnone
    exact hpos.ne' (scale_eq_zero_of_throughput hvalue fun layer hlayer =>
      (hnone layer hlayer).not_gt)
  have hmax : ∃ c, IsLeast (d.allowedScales config) c ∧ d.scale config = max c 0 :=
    exists_isLeast hvalue hflow
  obtain ⟨c, hleast, hscale⟩ := hmax
  have hc : d.scale config = c := by
    rw [hscale, lt_max_iff] at hpos
    rw [hscale, max_eq_left (hpos.resolve_right (lt_irrefl 0)).le]
  rw [hc]
  exact hleast

/-- However high a layer is allowed to be, if not less than `config.height`, it is too high iff its
`gaps` alone are. -/
theorem lt_requiredHeight_withSizes_iff {bound : Rat} (hlayer : layer ∈ d.layers)
    (hbound : config.height ≤ bound) :
    bound < (d.withSizes config).requiredHeight config layer ↔ bound < gaps config layer := by
  constructor
  · intro hover
    -- nodes and gaps together are within the extent unless the gaps alone are not
    have hle := hover.trans_le (requiredHeight_withSizes_le hvalue hlayer)
    exact (lt_max_iff.1 hle).resolve_left hbound.not_gt
  · intro hover
    have hheights : 0 ≤ d.throughput layer * d.scale config :=
      mul_nonneg (throughput_nonneg hvalue layer) (scale_nonneg d config)
    rw [requiredHeight_withSizes]
    linarith

end Values

/-- What a layer takes up at `c` is within `fullness` iff the layer allows a scale as great as
`c`. -/
theorem throughput_mul_le_iff (h : 0 < d.throughput layer) :
    d.throughput layer * c ≤ freeHeight config layer * fullness
      ↔ c ≤ freeHeight config layer / d.throughput layer * fullness := by
  rw [div_mul_eq_mul_div, le_div_iff₀ h, mul_comm c]

/-! ## How the layout fills layers -/

/-- The heights of the nodes of a layer together. -/
def fill (d : Diagram Rat) (layer : List NodeId) : Rat :=
  (layer.map fun id => (d.node id).dy).sum

/-- The scales at which no layer with flow takes up more of its free height than it may. -/
def fittingScales (d : Diagram Rat) (config : Config Rat) : Set Rat :=
  {c | ∀ layer ∈ d.layers, 0 < d.throughput layer →
    d.throughput layer * c ≤ freeHeight config layer * fullness}

/-- How a placed diagram fills the layers that a diagram has been put in. -/
structure FillsLayers (placed d : Diagram Rat) (config : Config Rat) : Prop where
  /-- Nodes are as high as their values in the scale. -/
  dy_node : ∀ id, (placed.node id).dy = (d.node id).value * d.scale config
  /-- With flow, the scale is the least that a layer allows, and at least zero. -/
  scale_eq_max : (∃ layer ∈ d.layers, 0 < d.throughput layer) →
    ∃ c, IsLeast (d.allowedScales config) c ∧ d.scale config = max c 0
  /-- Without flow the scale is zero. -/
  scale_eq_zero : (∀ layer ∈ d.layers, ¬ 0 < d.throughput layer) → d.scale config = 0
  /-- A scale that is not zero is the greatest that fits. -/
  isGreatest_scale : 0 < d.scale config →
    IsGreatest (d.fittingScales config) (d.scale config)
  /-- At such a scale no layer with flow takes up more of its free height than it may. -/
  fill_le : 0 < d.scale config → ∀ layer ∈ d.layers, 0 < d.throughput layer →
    placed.fill layer ≤ freeHeight config layer * fullness
  /-- One of them takes up as much. -/
  exists_fill_eq : 0 < d.scale config → ∃ layer ∈ d.layers, 0 < d.throughput layer ∧
    placed.fill layer = freeHeight config layer * fullness
  /-- A layer is reported iff its gaps alone are higher than the extent, whatever flows. -/
  reported_iff : ∀ k, (∃ required available,
      Warning.layerOverflow k required available ∈ placed.warnings) ↔
    config.height + tolerance < (((d.layer k).length : Rat) - 1) * config.nodePadding
  /-- Layers are reported from the left, each at most once. -/
  reported_once : placed.warnings.Pairwise fun v w => v.layer < w.layer

/-- The least of `allowedScales` is the greatest of `fittingScales`. -/
theorem isGreatest_fittingScales (h : IsLeast (d.allowedScales config) c) :
    IsGreatest (d.fittingScales config) c := by
  obtain ⟨⟨layer, hlayer, hpos, hc⟩, hle⟩ := h
  constructor
  · intro other hother hflow
    exact (throughput_mul_le_iff hflow).2 (hle ⟨other, hother, hflow, rfl⟩)
  · intro fitting hfitting
    rw [hc]
    exact (throughput_mul_le_iff hpos).1 (hfitting layer hlayer hpos)

/-- `gaps` count from the first node on; a layer without nodes has none, and is not too high. -/
theorem lt_gaps_iff {bound : Rat} (hbound : 0 ≤ bound) (hgap : 0 ≤ config.nodePadding) :
    bound < gaps config layer ↔ bound < ((layer.length : Rat) - 1) * config.nodePadding := by
  rw [gaps]
  cases layer with
  | nil =>
    rw [List.length_nil, Nat.zero_sub, Nat.cast_zero, zero_mul, zero_sub, neg_one_mul]
    exact iff_of_false hbound.not_gt ((neg_nonpos.2 hgap).trans hbound).not_gt
  | cons id ids =>
    rw [List.length_cons, Nat.add_sub_cancel, Nat.cast_succ, add_sub_cancel_right]

/-- `withSizes` reports a layer iff its gaps alone are higher than `config.height + tolerance`. -/
theorem mem_warnings_withSizes_iff (hvalue : ∀ id, 0 ≤ (d.node id).value)
    (hconfig : config.error? = none) (k : Nat) :
    (∃ required available,
        Warning.layerOverflow k required available ∈ (d.withSizes config).warnings) ↔
      config.height + tolerance < (((d.layer k).length : Rat) - 1) * config.nodePadding := by
  have hgap : 0 ≤ config.nodePadding :=
    not_lt.1 (Config.not_dimension_lt_zero hconfig .nodePadding)
  have hheight : 0 ≤ config.height := not_lt.1 (Config.not_dimension_lt_zero hconfig .height)
  have hbound : config.height ≤ config.height + tolerance :=
    le_add_of_nonneg_right tolerance_nonneg
  rw [warnings_withSizes, ← lt_gaps_iff (hheight.trans hbound) hgap]
  constructor
  · rintro ⟨required, available, hmem⟩
    obtain ⟨hk, rfl, -, hover⟩ := mem_layerWarnings.1 hmem
    rw [layer_withSizes] at hover
    have hlayer : d.layer k ∈ d.layers := by
      rw [← layers_withSizes d config, ← layer_withSizes d config]
      exact mem_layers.2 ⟨k, hk, rfl⟩
    exact (lt_requiredHeight_withSizes_iff hvalue hlayer hbound).1 hover
  · intro hover
    -- a layer with gaps holds a node, so that it is one of the layers
    have hne : d.layer k ≠ [] := by
      intro hnil
      rw [hnil, gaps, List.length_nil, Nat.zero_sub, Nat.cast_zero, zero_mul] at hover
      exact hover.not_ge (hheight.trans hbound)
    obtain ⟨id, hid⟩ := List.exists_mem_of_ne_nil _ hne
    have hlayer : d.layer k ∈ d.layers := mem_layers.2 ⟨k, LayersPacked.lt_layerBound hid, rfl⟩
    have hrequired := (lt_requiredHeight_withSizes_iff hvalue hlayer hbound).2 hover
    rw [← layer_withSizes d config] at hid hrequired
    exact ⟨_, _, mem_layerWarnings.2 ⟨LayersPacked.lt_layerBound hid, rfl, rfl, hrequired⟩⟩

/-- `withColumns` is `FillsLayers`, with any number of rounds. -/
theorem fillsLayers_withColumns (hvalue : ∀ id, 0 ≤ (d.node id).value)
    (hconfig : config.error? = none) (rounds : Nat) :
    (d.withColumns config rounds).FillsLayers d config := by
  have hdy : ∀ id, ((d.withColumns config rounds).node id).dy
      = (d.node id).value * d.scale config := by
    intro id
    rw [dy_of_flattened (d.flattened_withColumns config rounds), dy_node_withSizes]
  have hfill : ∀ layer, (d.withColumns config rounds).fill layer
      = d.throughput layer * d.scale config := by
    intro layer
    rw [fill, throughput, ← List.sum_map_mul_right]
    simp only [hdy]
  have hwarnings := d.warnings_withColumns config rounds
  -- heights are values in the scale, which columns leave as they are
  refine ⟨hdy, exists_isLeast hvalue, scale_eq_zero_of_throughput hvalue, ?_, ?_, ?_, ?_, ?_⟩
  · intro hpos
    exact isGreatest_fittingScales (isLeast_scale hvalue hpos)
  · intro hpos layer hlayer hflow
    rw [hfill]
    exact (isGreatest_fittingScales (isLeast_scale hvalue hpos)).1 layer hlayer hflow
  · intro hpos
    obtain ⟨layer, hlayer, hflow, hscale⟩ := (isLeast_scale hvalue hpos).1
    refine ⟨layer, hlayer, hflow, ?_⟩
    rw [hfill, hscale, div_mul_eq_mul_div, mul_div_cancel₀ _ hflow.ne']
  · intro k
    rw [hwarnings]
    exact mem_warnings_withSizes_iff hvalue hconfig k
  · rw [hwarnings, warnings_withSizes]
    exact pairwise_layerWarnings _ config

variable {names : List String} {flows : List (Flow Rat)}

/-- **If `config.error? = none`, the layout `FillsLayers` of the diagram of flows, with whatever
settings and whatever number of rounds it was put in layers and is pulled.** -/
theorem ofFlows_withColumns_fillsLayers (h : ofFlows names flows = .ok d)
    (hconfig : config.error? = none) (placing : Config Rat) (rounds : Nat) :
    ((d.withValues.withLayers placing).withColumns config rounds).FillsLayers
      (d.withValues.withLayers placing) config :=
  fillsLayers_withColumns (value_nonneg h placing) hconfig rounds

/-- With the usual settings the last layer of the detour allows the scale; under `lowConfig`, where
its gap is higher than the extent, there is none, and it alone is reported. -/
theorem ofFlows_withColumns_fillsLayers_detour :
    ofFlows detourNames detourFlows = .ok detourDiagram ∧
      (Config.standard : Config Rat).error? = none ∧ lowConfig.error? = none ∧
      (detourDiagram.withValues.withLayers .standard).scale .standard = 1159 / 15 ∧
      (detourDiagram.withValues.withLayers .standard).scale lowConfig = 0 ∧
      ((detourDiagram.withValues.withLayers .standard).withColumns lowConfig 3).warnings
        = [.layerOverflow 2 12 10] ∧
      ((detourDiagram.withValues.withLayers .standard).withColumns .standard 3).FillsLayers
        (detourDiagram.withValues.withLayers .standard) .standard ∧
      ((detourDiagram.withValues.withLayers .standard).withColumns lowConfig 3).FillsLayers
        (detourDiagram.withValues.withLayers .standard) lowConfig := by
  have hdetour : ofFlows detourNames detourFlows = .ok detourDiagram := by decide +kernel
  have hstandard : (Config.standard : Config Rat).error? = none := by decide +kernel
  have hlow : lowConfig.error? = none := by decide +kernel
  refine ⟨hdetour, hstandard, hlow, by decide +kernel, by decide +kernel, ?_,
    ofFlows_withColumns_fillsLayers hdetour hstandard .standard 3,
    ofFlows_withColumns_fillsLayers hdetour hlow .standard 3⟩
  rw [warnings_withColumns]
  decide +kernel

end Diagram

end SankeyDiagram
