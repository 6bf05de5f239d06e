import Mathlib.Data.List.Pairwise
import SankeyDiagram.Proofs.Sizing

/-! # Space between nodes

Where the nodes of a layer end up, in exact numbers. However many rounds of pulls there are, the
last thing that happens to a layer is that it is packed, and how much height it needs was settled
before the first one.

* **`Diagram.KeepsSpace`** nodes at zero or below, apart from each other, and reported iff they do
  not fit.
* **`Diagram.LayersPacked`** the nodes of every layer are packed in some order, which is all that is
  used of the rounds.
* **`Diagram.ofFlows_withColumns_keepsSpace`** the layout keeps this for the diagram of flows. -/

namespace SankeyDiagram

/-- Settings with an extent that is lower than a gap. -/
def lowConfig : Config Rat := { Config.standard with height := 10 }

/-! ## Packed layers -/

namespace Diagram

variable {d : Diagram Rat} {config : Config Rat} {names : List String} {flows : List (Flow Rat)}

/-- Of two nodes one ends a gap above the other. -/
def Apart (d : Diagram Rat) (config : Config Rat) (a b : NodeId) : Prop :=
  (d.node a).bottom + config.nodePadding ≤ (d.node b).y ∨
    (d.node b).bottom + config.nodePadding ≤ (d.node a).y

instance : Std.Symm (d.Apart config) where
  symm _ _ h := h.symm

/-- The nodes of every layer are packed in some order, and the layers that are too high are
reported. -/
structure LayersPacked (d : Diagram Rat) (config : Config Rat) : Prop where
  /-- No height is below zero. -/
  dy_nonneg : ∀ id, 0 ≤ (d.node id).dy
  /-- Packing some boxes puts them where the nodes of a layer are. -/
  exists_pack : ∀ k < d.layerBound, ∃ (order : List NodeId) (boxes : List (Box Rat)),
    order.Perm (d.layer k) ∧
      order.map d.box = Box.pack config.nodePadding config.height boxes
  /-- The layers that are reported are those that need more height than there is. -/
  warnings_eq : d.warnings = d.layerWarnings config

/-- How the nodes of a placed diagram keep their space, and how it is told which do not. -/
structure KeepsSpace (d : Diagram Rat) (config : Config Rat) : Prop where
  /-- No node starts above zero. -/
  y_nonneg : ∀ id, d.hasNode id → 0 ≤ (d.node id).y
  /-- The nodes of a layer are apart. -/
  apart : ∀ k, ∀ a ∈ d.layer k, ∀ b ∈ d.layer k, a ≠ b → d.Apart config a b
  /-- A layer is reported iff one of its nodes ends below the extent. -/
  reported_iff : ∀ k, (∃ required available,
      Warning.layerOverflow k required available ∈ d.warnings) ↔
    ∃ id ∈ d.layer k, config.height + tolerance < (d.node id).bottom
  /-- The diagram is degenerate iff a node reaches beyond the extent. -/
  degenerate_iff : d.isDegenerate ↔ d.overflowingNodes config.height ≠ []
  /-- The nodes of a layer that is reported are packed from zero on without slack, and the last of
  them ends at the height that is reported as required. -/
  reported_tight : ∀ k required available,
    Warning.layerOverflow k required available ∈ d.warnings →
      available = config.height ∧ ∃ (order : List NodeId) (last : NodeId),
        order.Perm (d.layer k) ∧ Box.Tight config.nodePadding 0 (order.map d.box) ∧
        order.getLast? = some last ∧ (d.node last).bottom = required

namespace LayersPacked

variable {k : Nat} {id : NodeId}

/-- Where `LayersPacked` holds, a layer is `Box.pack` of boxes that need as much height as the
layer. -/
theorem exists_boxes (h : d.LayersPacked config) (hk : k < d.layerBound) :
    ∃ (order : List NodeId) (boxes : List (Box Rat)), order.Perm (d.layer k) ∧
      order.map d.box = Box.pack config.nodePadding config.height boxes ∧
      (∀ b ∈ boxes, 0 ≤ b.height) ∧
      d.requiredHeight config (d.layer k) = Box.required config.nodePadding boxes := by
  obtain ⟨order, boxes, hperm, hpack⟩ := h.exists_pack k hk
  have hheights : boxes.map Box.height = order.map fun id => (d.node id).dy := by
    rw [← Box.map_height_pack config.nodePadding config.height boxes, ← hpack, List.map_map]
    rfl
  refine ⟨order, boxes, hperm, hpack, ?_, requiredHeight_eq config hperm hheights⟩
  intro b hb
  have hmem : b.height ∈ order.map fun id => (d.node id).dy := by
    rw [← hheights]
    exact List.mem_map_of_mem hb
  obtain ⟨id, -, heq⟩ := List.mem_map.1 hmem
  rw [← heq]
  exact h.dy_nonneg id

/-- A layer that holds a node is below `d.layerBound`. -/
theorem lt_layerBound (hid : id ∈ d.layer k) : k < d.layerBound := by
  obtain ⟨hnode, rfl⟩ := mem_layer.1 hid
  exact layerBound_le_iff.1 le_rfl id hnode

/-- The box of a node is among the packed boxes of its layer. -/
theorem box_mem {order : List NodeId} {boxes : List (Box Rat)} (hperm : order.Perm (d.layer k))
    (hpack : order.map d.box = Box.pack config.nodePadding config.height boxes)
    (hid : id ∈ d.layer k) : d.box id ∈ Box.pack config.nodePadding config.height boxes := by
  rw [← hpack]
  exact List.mem_map_of_mem (hperm.mem_iff.2 hid)

/-- No node starts above zero, as `Box.pack` starts there. -/
theorem y_nonneg (h : d.LayersPacked config) (hgap : 0 ≤ config.nodePadding)
    (hid : id ∈ d.layer k) : 0 ≤ (d.node id).y := by
  obtain ⟨order, boxes, hperm, hpack, hheight, -⟩ := h.exists_boxes (lt_layerBound hid)
  show 0 ≤ (d.box id).top
  exact Box.top_pack_nonneg hgap hheight (box_mem hperm hpack hid)

/-- Two nodes of a layer are `Apart`. -/
theorem apart (h : d.LayersPacked config) (hgap : 0 ≤ config.nodePadding) {a b : NodeId}
    (ha : a ∈ d.layer k) (hb : b ∈ d.layer k) (hne : a ≠ b) : d.Apart config a b := by
  obtain ⟨order, boxes, hperm, hpack, hheight, -⟩ := h.exists_boxes (lt_layerBound ha)
  have hspaced : Box.Spaced config.nodePadding
      (Box.pack config.nodePadding config.height boxes) := Box.spaced_pack hgap hheight
  rw [← hpack, Box.Spaced, List.pairwise_map] at hspaced
  have hpair : order.Pairwise (d.Apart config) := hspaced.imp fun hle => Or.inl hle
  exact hpair.forall (hperm.mem_iff.2 ha) (hperm.mem_iff.2 hb) hne

/-- No node ends below both `config.height` and what its layer requires. -/
theorem bottom_le (h : d.LayersPacked config) (hgap : 0 ≤ config.nodePadding)
    (hid : id ∈ d.layer k) :
    (d.node id).bottom ≤ max (d.requiredHeight config (d.layer k)) config.height := by
  obtain ⟨order, boxes, hperm, hpack, hheight, hrequired⟩ := h.exists_boxes (lt_layerBound hid)
  rw [hrequired, ← bottom_box]
  exact Box.bottom_pack_le hgap hheight (box_mem hperm hpack hid)

/-- The nodes of a layer that requires more than `config.height` are packed without slack, from zero
to the required height. -/
theorem exists_tight (h : d.LayersPacked config) (hheight : 0 ≤ config.height)
    (hk : k < d.layerBound) (hover : config.height < d.requiredHeight config (d.layer k)) :
    ∃ (order : List NodeId) (last : NodeId), order.Perm (d.layer k) ∧
      Box.Tight config.nodePadding 0 (order.map d.box) ∧ order.getLast? = some last ∧
      (d.node last).bottom = d.requiredHeight config (d.layer k) := by
  obtain ⟨order, boxes, hperm, hpack, -, hrequired⟩ := h.exists_boxes hk
  rw [hrequired] at hover ⊢
  have htight := Box.tight_pack hover
  have hne : order ≠ [] := by
    -- without nodes no height is needed
    rintro rfl
    have hlen := congrArg List.length hpack
    rw [List.map_nil, Box.length_pack, List.length_nil, eq_comm, List.length_eq_zero_iff] at hlen
    rw [hlen] at hover
    have hzero : Box.required config.nodePadding [] = 0 := by simp [Box.required]
    linarith
  have hlast := List.getLast?_eq_getLast_of_ne_nil hne
  refine ⟨order, order.getLast hne, hperm, by rwa [hpack], hlast, ?_⟩
  have hbox : (order.map d.box).getLast? = some (d.box (order.getLast hne)) := by
    rw [List.getLast?_map, hlast]
    rfl
  rw [hpack] at hbox
  have hbottom := htight.bottom_eq hbox
  rw [Box.required_congr _ (Box.map_height_pack ..), bottom_box] at hbottom
  exact hbottom

/-- A layer is reported iff one of its nodes ends below `config.height` by more than `tolerance`. -/
theorem reported_iff (h : d.LayersPacked config) (hgap : 0 ≤ config.nodePadding)
    (hheight : 0 ≤ config.height) (k : Nat) :
    (∃ required available, Warning.layerOverflow k required available ∈ d.warnings) ↔
      ∃ id ∈ d.layer k, config.height + tolerance < (d.node id).bottom := by
  have htolerance := tolerance_nonneg
  rw [h.warnings_eq]
  constructor
  · -- without slack the last node of the layer ends where the layer needs to
    rintro ⟨required, available, hmem⟩
    obtain ⟨hk, rfl, -, hover⟩ := mem_layerWarnings.1 hmem
    obtain ⟨order, last, hperm, -, hlast, hbottom⟩ := h.exists_tight hheight hk (by linarith)
    refine ⟨last, hperm.mem_iff.1 (List.mem_of_getLast? hlast), ?_⟩
    rw [hbottom]
    exact hover
  · rintro ⟨id, hid, hover⟩
    -- the node ends below the extent, so its layer does
    have hle := h.bottom_le hgap hid
    have hrequired : config.height + tolerance < d.requiredHeight config (d.layer k) := by
      rcases le_max_iff.1 hle with hle | hle
      · exact hover.trans_le hle
      · linarith
    exact ⟨_, _, mem_layerWarnings.2 ⟨lt_layerBound hid, rfl, rfl, hrequired⟩⟩

/-- `d.overflowingNodes config.height` is empty iff no node ends below that height by more than
`tolerance`. -/
theorem overflowingNodes_ne_nil_iff (h : d.LayersPacked config) (hgap : 0 ≤ config.nodePadding) :
    d.overflowingNodes config.height ≠ []
      ↔ ∃ k, ∃ id ∈ d.layer k, config.height + tolerance < (d.node id).bottom := by
  have hmem : ∀ id, id ∈ d.overflowingNodes config.height ↔
      d.hasNode id ∧ config.height + tolerance < (d.node id).bottom := by
    intro id
    rw [overflowingNodes, List.mem_filter, mem_nodeIds, Bool.or_eq_true, decide_eq_true_eq,
      decide_eq_true_eq]
    refine and_congr_right fun hid => or_iff_right ?_
    exact not_lt.2 (h.y_nonneg hgap (mem_layer.2 ⟨hid, rfl⟩))
  constructor
  · intro hne
    obtain ⟨id, hid⟩ := List.exists_mem_of_ne_nil _ hne
    obtain ⟨hnode, hover⟩ := (hmem id).1 hid
    exact ⟨_, id, mem_layer.2 ⟨hnode, rfl⟩, hover⟩
  · rintro ⟨k, id, hid, hover⟩
    exact List.ne_nil_of_mem ((hmem id).2 ⟨(mem_layer.1 hid).1, hover⟩)

/-- Where `LayersPacked` holds, for settings that nothing is wrong with, nodes keep their space. -/
theorem keepsSpace (h : d.LayersPacked config) (hconfig : config.error? = none) :
    d.KeepsSpace config := by
  have hgap : 0 ≤ config.nodePadding :=
    not_lt.1 (Config.not_dimension_lt_zero hconfig .nodePadding)
  have hheight : 0 ≤ config.height := not_lt.1 (Config.not_dimension_lt_zero hconfig .height)
  have htolerance := tolerance_nonneg
  refine ⟨?_, ?_, h.reported_iff hgap hheight, ?_, ?_⟩
  · intro id hid
    exact h.y_nonneg hgap (mem_layer.2 ⟨hid, rfl⟩)
  · intro k a ha b hb hne
    exact h.apart hgap ha hb hne
  · rw [isDegenerate_iff, h.overflowingNodes_ne_nil_iff hgap]
    exact exists_congr fun k => h.reported_iff hgap hheight k
  · intro k required available hmem
    rw [h.warnings_eq] at hmem
    obtain ⟨hk, rfl, havailable, hover⟩ := mem_layerWarnings.1 hmem
    exact ⟨havailable, h.exists_tight hheight hk (by linarith)⟩

end LayersPacked

/-- Wherever the nodes of a diagram with sizes are moved, `settled` packs its layers. -/
theorem layersPacked_settled {c : Columns Rat} (config : Config Rat)
    (hc : c.Arranges (d.withSizes config)) (hdy : ∀ id, 0 ≤ ((d.withSizes config).node id).dy) :
    (c.settled config).diagram.LayersPacked config := by
  have hflat := (hc.settled config).flattened
  refine ⟨?_, ?_, ?_⟩
  · intro id
    rw [dy_of_flattened hflat]
    exact hdy id
  · intro k hk
    rw [layerBound_of_flattened hflat] at hk
    obtain ⟨order, hperm, hpack⟩ := hc.exists_packed config hk
    refine ⟨order, order.map c.diagram.box, ?_, hpack⟩
    rw [layer_of_flattened hflat]
    exact hperm
  · rw [warnings_of_flattened hflat, layerWarnings_of_flattened hflat, warnings_withSizes]

/-- `withColumns` packs layers, whatever number of rounds there is. -/
theorem layersPacked_withColumns (d : Diagram Rat) (config : Config Rat) (rounds : Nat)
    (hdy : ∀ id, 0 ≤ ((d.withSizes config).node id).dy) :
    (d.withColumns config rounds).LayersPacked config := by
  obtain ⟨c, hc, heq⟩ := d.exists_settled config rounds
  rw [heq]
  exact layersPacked_settled config hc hdy

/-- **For settings that nothing is wrong with and any number of rounds, `withColumns` lets the nodes
of the diagram of `ofFlows` keep their space.** -/
theorem ofFlows_withColumns_keepsSpace (h : ofFlows names flows = .ok d)
    (hconfig : config.error? = none) (rounds : Nat) :
    ((d.withValues.withLayers config).withColumns config rounds).KeepsSpace config :=
  (layersPacked_withColumns _ config rounds (dy_withSizes_nonneg h config)).keepsSpace hconfig

/-- In `lowConfig` the two sinks of the detour need a height of `12` where there is `10`, and that
is reported. -/
theorem ofFlows_withColumns_keepsSpace_detour :
    ofFlows detourNames detourFlows = .ok detourDiagram ∧ lowConfig.error? = none ∧
      .layerOverflow 2 12 10 ∈
        ((detourDiagram.withValues.withLayers lowConfig).withColumns lowConfig 3).warnings ∧
      ((detourDiagram.withValues.withLayers lowConfig).withColumns lowConfig 3).KeepsSpace
        lowConfig := by
  have hdetour : ofFlows detourNames detourFlows = .ok detourDiagram := by decide +kernel
  have hconfig : lowConfig.error? = none := by decide +kernel
  refine ⟨hdetour, hconfig, ?_, ofFlows_withColumns_keepsSpace hdetour hconfig 3⟩
  rw [warnings_withColumns]
  decide +kernel

end Diagram

end SankeyDiagram
