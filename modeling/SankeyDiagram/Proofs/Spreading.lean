import Mathlib.Algebra.Order.Field.Basic
import SankeyDiagram.Proofs.Staleness

/-! # Layers over the width

In exact numbers layers stand one step apart from the left edge of the layout on. The step is chosen
so that the last of several layers ends at the right edge, and settings are accepted only if this
leaves room between them. Nodes that the sweep left in an earlier layer and that were moved to the
last one end there too.

* **`Diagram.layerStep_pos`**, **`Diagram.mul_layerStep_add_le`**,
  **`Diagram.last_mul_layerStep_add`** how far the step leads.
* **`Diagram.SpreadOver`** the layers of a diagram are spread over the width.
* **`Diagram.ofFlows_spreadOver`** those of a layout are. -/

namespace SankeyDiagram

/-- If `config.error? = none`, nodes leave room between the layers. -/
theorem Config.not_width_le_nodeWidth {α : Type} [Scalar α] {config : Config α}
    (h : config.error? = none) : ¬config.width ≤ config.nodeWidth := by
  intro hle
  rw [error?] at h
  split at h
  · cases h
  · rw [if_pos hle] at h
    cases h

namespace Diagram

variable {d e : Diagram Rat} {config : Config Rat} {count k : Nat} {id : NodeId}

/-! ## From layer to layer -/

/-- `layerStep` is positive if `config.error? = none`. -/
theorem layerStep_pos (hconfig : config.error? = none) (count : Nat) :
    0 < layerStep config count := by
  have hnodeWidth : 0 ≤ config.nodeWidth :=
    not_lt.1 (Config.not_dimension_lt_zero hconfig .nodeWidth)
  have hroom : config.nodeWidth < config.width := not_le.1 (Config.not_width_le_nodeWidth hconfig)
  rw [layerStep]
  split
  · rename_i hcount
    exact div_pos (sub_pos.2 hroom) (Nat.cast_pos.2 (Nat.sub_pos_of_lt hcount))
  · exact hnodeWidth.trans_lt hroom

/-- The last of several layers ends at `config.width`. -/
theorem last_mul_layerStep_add (config : Config Rat) (hcount : 1 < count) :
    ((count - 1 : Nat) : Rat) * layerStep config count + config.nodeWidth = config.width := by
  have hlast : ((count - 1 : Nat) : Rat) ≠ 0 := Nat.cast_ne_zero.2 (Nat.sub_ne_zero_of_lt hcount)
  rw [layerStep, if_pos hcount, mul_div_cancel₀ _ hlast, sub_add_cancel]

/-- No layer ends beyond `config.width`, a single one included. -/
theorem mul_layerStep_add_le (hconfig : config.error? = none) (hk : k < count) :
    (k : Rat) * layerStep config count + config.nodeWidth ≤ config.width := by
  by_cases hcount : 1 < count
  · have hstep := layerStep_pos hconfig count
    have hle : (k : Rat) ≤ (count - 1 : Nat) := Nat.cast_le.2 (Nat.le_sub_one_of_lt hk)
    calc (k : Rat) * layerStep config count + config.nodeWidth
        ≤ ((count - 1 : Nat) : Rat) * layerStep config count + config.nodeWidth := by gcongr
      _ = config.width := last_mul_layerStep_add config hcount
  · obtain rfl : k = 0 := by omega
    rw [Nat.cast_zero, zero_mul, zero_add]
    exact (not_le.1 (Config.not_width_le_nodeWidth hconfig)).le

/-! ## Spread layers -/

/-- The layers of a diagram are spread over the width of the layout from the left to the right. -/
structure SpreadOver (d : Diagram Rat) (config : Config Rat) : Prop where
  /-- No node starts left of zero. -/
  x_nonneg : ∀ id, d.hasNode id → 0 ≤ (d.node id).x
  /-- No node reaches beyond `config.width`. -/
  right_le : ∀ id, d.hasNode id → (d.node id).right ≤ config.width
  /-- Nodes start at the same place iff they are in the same layer. -/
  x_eq_iff : ∀ a b, d.hasNode a → d.hasNode b →
    ((d.node a).x = (d.node b).x ↔ (d.node a).layer = (d.node b).layer)
  /-- Links lead to the right. -/
  x_lt : ∀ l, d.hasLink l → (d.node (d.link l).source).x < (d.node (d.link l).target).x
  /-- If there is more than one layer, nodes that no link leaves end at the right edge. -/
  right_eq : 1 < d.layerCount → ∀ id, d.hasNode id → (d.node id).isSink →
    (d.node id).right = config.width

/-- `SpreadOver` carries over to a diagram that is redrawn with `SameLayers`. -/
theorem SpreadOver.of_sameLayers (h : d.SpreadOver config) (hdraw : e.Redraws d)
    (hlayers : e.SameLayers d) : e.SpreadOver config := by
  have hright : ∀ id, (e.node id).right = (d.node id).right := fun id => by
    rw [Node.right, Node.right, hlayers.x, hlayers.dx]
  -- every part is about places across, which are the same in `e` and in `d`
  constructor
  · intro id hid
    rw [hdraw.hasNode] at hid
    rw [hlayers.x]
    exact h.x_nonneg id hid
  · intro id hid
    rw [hdraw.hasNode] at hid
    rw [hright]
    exact h.right_le id hid
  · intro a b ha hb
    rw [hdraw.hasNode] at ha hb
    rw [hlayers.x, hlayers.x, hlayers.layer, hlayers.layer]
    exact h.x_eq_iff a b ha hb
  · intro l hl
    rw [hdraw.hasLink] at hl
    have hsource := hdraw.nearEnd .outgoing l
    have htarget := hdraw.nearEnd .incoming l
    simp only [Link.nearEnd] at hsource htarget
    rw [hsource, htarget, hlayers.x, hlayers.x]
    exact h.x_lt l hl
  · intro hcount id hid hsink
    rw [hlayers.layerCount] at hcount
    rw [hdraw.hasNode] at hid
    rw [hdraw.isSink] at hsink
    rw [hright]
    exact h.right_eq hcount id hid hsink

/-- `withLayers` starts a node as many times `layerStep` to the right as its layer says. -/
theorem x_withLayers (config : Config Rat) (hid : d.hasNode id) :
    ((d.withLayers config).node id).x
      = (((d.withLayers config).node id).layer : Rat) * layerStep config d.sweep.length := by
  rw [node_withLayers config hid]
  rfl

/-- `withLayers` ends a node `config.nodeWidth` to the right of its start. -/
theorem right_withLayers (config : Config Rat) (hid : d.hasNode id) :
    ((d.withLayers config).node id).right = (((d.withLayers config).node id).layer : Rat)
      * layerStep config d.sweep.length + config.nodeWidth := by
  rw [Node.right, x_withLayers config hid, node_withLayers config hid]
  rfl

/-- Where links make no cycle, `withLayers` is `SpreadOver` the width. -/
theorem WellFormed.spreadOver_withLayers (h : d.WellFormed) (hac : Acyclic d.arcs)
    (hconfig : config.error? = none) : (d.withLayers config).SpreadOver config := by
  have hdraw := d.redraws_withLayers config
  have hstep := layerStep_pos hconfig d.sweep.length
  -- a node starts as many steps to the right as its layer says, and no step is zero
  constructor
  · intro id hid
    rw [hdraw.hasNode] at hid
    rw [x_withLayers config hid]
    exact mul_nonneg (Nat.cast_nonneg _) hstep.le
  · intro id hid
    have hlayer := layerBound_le_iff.1 (h.layerBound_withLayers hac).le id hid
    rw [hdraw.hasNode] at hid
    rw [right_withLayers config hid]
    exact mul_layerStep_add_le hconfig hlayer
  · intro a b ha hb
    rw [hdraw.hasNode] at ha hb
    rw [x_withLayers config ha, x_withLayers config hb, mul_left_inj' hstep.ne', Nat.cast_inj]
  · intro l hl
    have harc := mem_arcs_iff_exists_link.2 ⟨l, hl, rfl, rfl⟩
    rw [hdraw.arcs] at harc
    have hends := h.below _ harc
    rw [x_withLayers config (d.hasNode_iff _ |>.2 hends.1),
      x_withLayers config (d.hasNode_iff _ |>.2 hends.2)]
    exact mul_lt_mul_of_pos_right (Nat.cast_lt.2 (h.layer_lt hac harc)) hstep
  · intro hcount id hid hsink
    rw [hdraw.hasNode] at hid
    rw [hdraw.isSink] at hsink
    rw [right_withLayers config hid, h.layer_of_sink hid (h.isSink_iff.1 hsink)]
    exact last_mul_layerStep_add config hcount

/-! ## Main statement -/

/-- **In exact numbers the layers of flows are `SpreadOver` the width, whatever the flows, if
`config.error? = none`**, and no stage after the layers moves them. -/
theorem ofFlows_spreadOver {names : List String} {flows : List (Flow Rat)}
    (h : ofFlows names flows = .ok d) (hconfig : config.error? = none) :
    (d.withValues.withLayers config).SpreadOver config ∧
      ∀ rounds, (d.placed config rounds).SpreadOver config := by
  obtain ⟨-, hwf, hac⟩ := wellFormed_ofFlows h
  have hvalues := d.redraws_withValues
  rw [← hvalues.arcs] at hac
  have hlayers := (hvalues.wellFormed hwf).spreadOver_withLayers hac hconfig
  refine ⟨hlayers, fun rounds => hlayers.of_sameLayers ?_ (d.sameLayers_placed config rounds)⟩
  exact (redraws_withSlots _).trans (redraws_withColumns _ config rounds)

/-- The detour over the standard width. -/
theorem ofFlows_spreadOver_detour :
    ofFlows detourNames detourFlows = .ok detourDiagram ∧
      (Config.standard : Config Rat).error? = none ∧
      (detourDiagram.withValues.withLayers .standard).SpreadOver .standard ∧
      (detourDiagram.placed .standard 1).SpreadOver .standard := by
  have hdetour : ofFlows detourNames detourFlows = .ok detourDiagram := by decide +kernel
  have hconfig : (Config.standard : Config Rat).error? = none := by decide +kernel
  obtain ⟨hlayers, hplaced⟩ := ofFlows_spreadOver hdetour hconfig
  exact ⟨hdetour, hconfig, hlayers, hplaced 1⟩

end Diagram

end SankeyDiagram
