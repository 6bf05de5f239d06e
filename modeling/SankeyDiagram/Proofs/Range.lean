import SankeyDiagram.Proofs.Agreement
import SankeyDiagram.Proofs.Denotation
import SankeyDiagram.Proofs.Scale
import SankeyDiagram.Proofs.Spacing

/-! # The range of sizes and places

How great the magnitudes of a layout in exact numbers are, whose flows and settings come from words.
No node is higher than the extent. The scale is a quotient by the greatest value of a layer, though,
which a very small flow takes beyond all words, and great gaps add up to numbers beyond them.

* **`Diagram.y_settled_mem`**, **`Diagram.exists_gaps_le_y`** how far down packing puts nodes.
* **`Columns.packings`** the columns after each packing of a number of rounds.
* **`Diagram.StaysInRange`** all magnitudes on the way to places are in the range of words, and so
  are the places.
* **`Diagram.LayersInRange`** what the layers have to be like for that.
* **`Diagram.ofFlows_staysInRange_iff`** flows in words stay in range iff their layers are like
  that. -/

namespace SankeyDiagram

/-! ## Places -/

namespace Diagram

variable {d : Diagram Rat} {config : Config Rat} {layer : List NodeId} {id : NodeId}

section Values

variable (hvalue : ∀ id, 0 ≤ (d.node id).value)
include hvalue

/-- Wherever nodes are moved before `settled`, they start between zero and `config.height`, or the
end of the gaps of their layer where these take up more. -/
theorem y_settled_mem {c : Columns Rat} (hc : c.Arranges (d.withSizes config))
    (hgap : 0 ≤ config.nodePadding) (hid : d.hasNode id) :
    ∃ layer ∈ d.layers, ((c.settled config).diagram.node id).y
      ∈ Set.Icc 0 (max config.height (gaps config layer)) := by
  have hpacked := layersPacked_settled config hc (dy_withSizes_nonneg_of_value hvalue config)
  have hflat := (hc.settled config).flattened
  have hnode : (c.settled config).diagram.hasNode id := by
    rwa [hasNode_of_flattened hflat, (d.redraws_withSizes config).hasNode]
  have hmem := mem_layer.2 ⟨hnode, rfl⟩
  have hlayer : (c.settled config).diagram.layer ((c.settled config).diagram.node id).layer
      ∈ d.layers := by
    rw [← layers_withSizes d config, ← layers_of_flattened hflat, mem_layers]
    exact ⟨_, LayersPacked.lt_layerBound hmem, rfl⟩
  have hbottom := hpacked.bottom_le hgap hmem
  -- how much height the layer needs was settled before anything was moved
  rw [requiredHeight_of_flattened hflat] at hbottom
  have hstart : ((c.settled config).diagram.node id).y
      ≤ ((c.settled config).diagram.node id).bottom :=
    le_add_of_nonneg_right (hpacked.dy_nonneg id)
  exact ⟨_, hlayer, hpacked.y_nonneg hgap hmem,
    hstart.trans (hbottom.trans
      (max_le (requiredHeight_withSizes_le hvalue hlayer) (le_max_left _ _)))⟩

/-- Where the `gaps` of a layer take up more than the extent, a node starts below them all. -/
theorem exists_gaps_le_y (hheight : 0 ≤ config.height) (hlayer : layer ∈ d.layers)
    (hover : config.height < gaps config layer) (rounds : Nat) :
    ∃ id, d.hasNode id ∧ gaps config layer ≤ ((d.withColumns config rounds).node id).y := by
  have hpacked := layersPacked_withColumns d config rounds
    (dy_withSizes_nonneg_of_value hvalue config)
  have hflat := d.flattened_withColumns config rounds
  rw [← layers_withSizes d config, ← layers_of_flattened hflat, mem_layers] at hlayer
  obtain ⟨k, hk, rfl⟩ := hlayer
  have hrequired : (d.withColumns config rounds).requiredHeight config
        ((d.withColumns config rounds).layer k)
      = d.throughput ((d.withColumns config rounds).layer k) * d.scale config
        + gaps config ((d.withColumns config rounds).layer k) := by
    rw [requiredHeight_of_flattened hflat, requiredHeight_withSizes]
  have hheights := mul_nonneg (throughput_nonneg hvalue ((d.withColumns config rounds).layer k))
    (scale_nonneg d config)
  -- a layer that does not fit is packed without slack, and its last node ends where it does
  obtain ⟨order, last, hperm, -, hlast, hbottom⟩ :=
    hpacked.exists_tight hheight hk (by linarith)
  have hmem : last ∈ (d.withColumns config rounds).layer k :=
    hperm.mem_iff.1 (List.mem_of_getLast? hlast)
  refine ⟨last, ?_, ?_⟩
  · rw [← (d.redraws_withColumns config rounds).hasNode]
    exact (mem_layer.1 hmem).1
  · -- the last node ends where its layer does, and is not higher than all of them together
    have hdy : ((d.withColumns config rounds).node last).dy
        ≤ d.throughput ((d.withColumns config rounds).layer k) * d.scale config := by
      rw [dy_node_withColumns]
      exact mul_le_mul_of_nonneg_right (value_le_throughput hvalue hmem) (scale_nonneg d config)
    rw [Node.bottom] at hbottom
    linarith

end Values

end Diagram

/-! ## Packings -/

namespace Columns

variable {α : Type} [Scalar α]

/-- The columns after each packing of a number of rounds, in order; the strength given is that of
the round before them. -/
def packings (config : Config α) : Nat → α → Columns α → List (Columns α)
  | 0, _, _ => []
  | rounds + 1, strength, c =>
    let weaker := strength * decay
    let left := (c.relaxedLeftward weaker).settled config
    let right := (left.relaxedRightward weaker).settled config
    left :: right :: packings config rounds weaker right

/-- The last of `packings` are the columns after all rounds. -/
theorem getLast_packings (config : Config α) (rounds : Nat) (strength : α) (c : Columns α) :
    (c :: c.packings config rounds strength).getLast (List.cons_ne_nil _ _)
      = c.relaxed config rounds strength := by
  induction rounds generalizing strength c with
  | zero => rfl
  | succ rounds ih => exact ih (strength * decay) (c.round config (strength * decay))

/-- At every one of `packings`, columns that arrange `d` are settled. -/
theorem Arranges.of_mem_packings {c p : Columns α} {d : Diagram α} (h : c.Arranges d)
    {config : Config α} {rounds : Nat} {strength : α} (hp : p ∈ c.packings config rounds strength) :
    ∃ moved : Columns α, moved.Arranges d ∧ p = moved.settled config := by
  induction rounds generalizing strength c with
  | zero => cases hp
  | succ rounds ih =>
    have hleft := h.relaxedLeftward (strength * decay)
    have hright := (hleft.settled config).relaxedRightward (strength * decay)
    rw [packings, List.mem_cons, List.mem_cons] at hp
    rcases hp with rfl | rfl | hp
    · exact ⟨_, hleft, rfl⟩
    · exact ⟨_, hright, rfl⟩
    · exact ih (hright.settled config) hp

end Columns

/-- The columns after each packing of a layout, in order. -/
def Diagram.packings {α : Type} [Scalar α] (d : Diagram α) (config : Config α) (rounds : Nat) :
    List (Columns α) :=
  let first := (d.withSizes config).columns.settled config
  first :: first.packings config rounds 1

/-- `withColumns` is one of `packings`. -/
theorem Diagram.exists_mem_packings {α : Type} [Scalar α] (d : Diagram α) (config : Config α)
    (rounds : Nat) : ∃ c ∈ d.packings config rounds, c.diagram = d.withColumns config rounds :=
  ⟨_, List.getLast_mem (List.cons_ne_nil _ _),
    congrArg Columns.diagram (Columns.getLast_packings config rounds 1 _)⟩

/-! ## Range -/

/-- A number is in the range of words. -/
def InRange (a : Rat) : Prop := |a| ≤ Binary64.greatest

instance : DecidablePred InRange := fun a => inferInstanceAs (Decidable (|a| ≤ Binary64.greatest))

/-- A number from zero to `greatest` is `InRange`. -/
theorem inRange_of_nonneg {a : Rat} (h : 0 ≤ a) (hle : a ≤ Binary64.greatest) : InRange a := by
  rwa [InRange, abs_of_nonneg h]

/-- Where a node is, and how large. -/
def Node.coordinates {α : Type} (n : Node α) : List α := [n.x, n.dx, n.y, n.dy]

/-- Where a link is, and how thick. -/
def Link.coordinates {α : Type} (l : Link α) : List α := [l.dy, l.sy, l.ty]

namespace Diagram

/-- All magnitudes on the way from layers to places are in range for a number of rounds, and so are
the places. -/
structure StaysInRange (d : Diagram Rat) (config : Config Rat) (rounds : Nat) : Prop where
  /-- The free height of a layer with flow in the unit of its greatest value. -/
  quotient : ∀ layer ∈ d.layers, 0 < d.peak layer →
    InRange (freeHeight config layer / d.peak layer)
  /-- The scale of all layers. -/
  scale : InRange (d.scale config)
  /-- The height that a layer is reported to need. -/
  required : ∀ k required available,
    Warning.layerOverflow k required available ∈ (d.withSizes config).warnings → InRange required
  /-- The upper edges of nodes after every packing. -/
  packed : ∀ c ∈ d.packings config rounds, ∀ id, d.hasNode id → InRange (c.diagram.node id).y
  /-- Where nodes are in the end. -/
  node : ∀ id, d.hasNode id →
    ∀ a ∈ ((d.withColumns config rounds).withSlots.node id).coordinates, InRange a
  /-- Where links are in the end. -/
  link : ∀ l, d.hasLink l →
    ∀ a ∈ ((d.withColumns config rounds).withSlots.link l).coordinates, InRange a

/-- The gaps of no layer go beyond the greatest word, and neither does the free height of a layer
with flow in the unit of its greatest value. -/
structure LayersInRange (d : Diagram Rat) (config : Config Rat) : Prop where
  /-- Gaps add up to numbers in range. -/
  gaps_le : ∀ layer ∈ d.layers, gaps config layer ≤ Binary64.greatest
  /-- The greatest value of a layer with flow is not too small for its free height. -/
  freeHeight_le : ∀ layer ∈ d.layers, 0 < d.peak layer →
    |freeHeight config layer| ≤ Binary64.greatest * d.peak layer

variable {d : Diagram Rat} {config : Config Rat} {layer : List NodeId} {id : NodeId}

/-- The quotient of a layer is `InRange` iff its peak is not too small for the free height. -/
theorem inRange_quotient_iff (h : 0 < d.peak layer) :
    InRange (freeHeight config layer / d.peak layer)
      ↔ |freeHeight config layer| ≤ Binary64.greatest * d.peak layer := by
  rw [InRange, abs_div, abs_of_pos h, div_le_iff₀ h]

/-- No node of `withLayers` starts farther to the right than nodes leave room for between the
layers. -/
theorem abs_x_withLayers_le (h : d.WellFormed) (hac : Acyclic d.arcs) (hid : d.hasNode id) :
    |((d.withLayers config).node id).x| ≤ |config.width - config.nodeWidth| := by
  have hpos : 0 < d.nodes.size := Nat.zero_lt_of_lt (d.hasNode_iff id |>.1 hid)
  obtain ⟨m, hm⟩ := hac.exists_longest h.below hpos
  have hlayer : ((d.withLayers config).node id).layer ≤ m := h.layer_le hac hid hm
  have hx : ((d.withLayers config).node id).x
      = (((d.withLayers config).node id).layer : Rat) * layerStep config (m + 1) := by
    rw [node_withLayers config hid, h.length_sweep hac hpos hm]
    rfl
  rw [hx, layerStep, Nat.add_sub_cancel]
  -- a single layer starts at zero; of several, the last one starts at all that is left
  rcases Nat.eq_zero_or_pos m with rfl | hm
  · rw [Nat.le_zero.1 hlayer, Nat.cast_zero, zero_mul, abs_zero]
    exact abs_nonneg _
  · have hm' : (0 : Rat) < m := Nat.cast_pos.2 hm
    rw [if_pos (Nat.lt_add_of_pos_left hm), mul_div_left_comm, abs_mul]
    refine mul_le_of_le_one_right (abs_nonneg _) ?_
    rw [abs_of_nonneg (by positivity), div_le_one hm']
    exact Nat.cast_le.2 hlayer

section Placed

variable {names : List String} {flows : List (Flow Rat)}
  (hconfig : ∀ field, config.dimension field ∈ Set.Icc 0 Binary64.greatest)
include hconfig

/-- If the `gaps` of all layers are in range, nodes are `InRange` in all `packings`. -/
theorem inRange_packed (hvalue : ∀ id, 0 ≤ (d.node id).value)
    (hgaps : ∀ layer ∈ d.layers, gaps config layer ≤ Binary64.greatest) {rounds : Nat}
    {c : Columns Rat} (hc : c ∈ d.packings config rounds) (hid : d.hasNode id) :
    InRange (c.diagram.node id).y := by
  have hmoved : ∃ moved : Columns Rat, moved.Arranges (d.withSizes config) ∧
      c = moved.settled config := by
    have hfirst := Columns.Arranges.columns (d.withSizes config)
    rcases List.mem_cons.1 hc with rfl | hc
    · exact ⟨_, hfirst, rfl⟩
    · exact (hfirst.settled config).of_mem_packings hc
  obtain ⟨moved, hmoved, rfl⟩ := hmoved
  obtain ⟨layer, hlayer, hpos, hle⟩ := y_settled_mem hvalue hmoved (hconfig .nodePadding).1 hid
  exact inRange_of_nonneg hpos (hle.trans (max_le (hconfig .height).2 (hgaps layer hlayer)))

/-- If the `gaps` of all layers are in range, the heights of `layerOverflow` are. -/
theorem inRange_required (hvalue : ∀ id, 0 ≤ (d.node id).value)
    (hgaps : ∀ layer ∈ d.layers, gaps config layer ≤ Binary64.greatest) {k : Nat}
    {required available : Rat}
    (h : .layerOverflow k required available ∈ (d.withSizes config).warnings) :
    InRange required := by
  rw [warnings_withSizes] at h
  obtain ⟨hk, rfl, -, hover⟩ := mem_layerWarnings.1 h
  have hlayer : (d.withSizes config).layer k ∈ d.layers := by
    rw [← layers_withSizes d config]
    exact mem_layers.2 ⟨k, hk, rfl⟩
  have hpos : 0 ≤ config.height + tolerance := add_nonneg (hconfig .height).1 tolerance_nonneg
  refine inRange_of_nonneg (hpos.trans hover.le) ?_
  exact (requiredHeight_withSizes_le hvalue hlayer).trans
    (max_le (hconfig .height).2 (hgaps _ hlayer))

/-- If the quotients of all layers are in range, `scale` is. -/
theorem inRange_scale (hvalue : ∀ id, 0 ≤ (d.node id).value)
    (hquotient : ∀ layer ∈ d.layers, 0 < d.peak layer →
      InRange (freeHeight config layer / d.peak layer)) : InRange (d.scale config) := by
  -- any layer with flow will do to bound the scale, and without one there is none
  by_cases h : ∀ layer ∈ d.layers, d.peak layer ≤ 0
  · rw [scale_eq_zero h]
    exact inRange_of_nonneg le_rfl ((hconfig .height).1.trans (hconfig .height).2)
  · push Not at h
    obtain ⟨layer, hlayer, hpos⟩ := h
    exact inRange_of_nonneg (scale_nonneg d config)
      ((scale_le_abs hvalue hlayer hpos).trans (hquotient layer hlayer hpos))

/-- A node with its upper edge in range has all its `coordinates` in range. -/
theorem inRange_node (hd : d.WellFormed) (hac : Acyclic d.arcs) (hid : d.hasNode id)
    (hvalue : ∀ id, 0 ≤ ((d.withLayers config).node id).value) {rounds : Nat}
    (hy : InRange (((d.withLayers config).withColumns config rounds).node id).y) :
    ∀ a ∈ (((d.withLayers config).withColumns config rounds).withSlots.node id).coordinates,
      InRange a := by
  have hunsized := (d.withLayers config).unsized_withColumns config rounds id
  have hx := congrArg Node.x hunsized
  have hdx := congrArg Node.dx hunsized
  simp only [Node.unsized] at hx hdx
  have hdy := dy_of_flattened ((d.withLayers config).flattened_withColumns config rounds) id
  have hwidth := hconfig .width
  have hnodeWidth := hconfig .nodeWidth
  have hheight := hconfig .height
  rw [node_withSlots]
  simp only [Node.coordinates, List.forall_mem_cons, List.not_mem_nil, false_implies,
    implies_true, and_true]
  -- places across come from the layers, and heights from the scale
  refine ⟨?_, ?_, hy, ?_⟩
  · rw [hx]
    refine (abs_x_withLayers_le hd hac hid).trans (abs_sub_le_iff.2 ⟨?_, ?_⟩)
    · exact (sub_le_self _ hnodeWidth.1).trans hwidth.2
    · exact (sub_le_self _ hwidth.1).trans hnodeWidth.2
  · rw [hdx, node_withLayers config hid]
    exact inRange_of_nonneg hnodeWidth.1 hnodeWidth.2
  · rw [hdy]
    exact inRange_of_nonneg (dy_withSizes_nonneg_of_value hvalue config id)
      ((dy_withSizes_le hvalue hheight.1 (hconfig .nodePadding).1 id).trans hheight.2)

/-- In a `Tiled` diagram without nodes higher than the extent, links have all their `coordinates` in
range. -/
theorem inRange_link (hd : d.WellFormed) (htiled : d.Tiled)
    (hdy : ∀ id, (d.node id).dy ≤ config.height) {l : LinkId} (hl : d.hasLink l) :
    ∀ a ∈ (d.link l).coordinates, InRange a := by
  have hside : ∀ side, InRange ((d.link l).slotAt side) ∧ InRange (d.link l).dy := by
    intro side
    -- the link is among those that tile the side of the node where it ends
    have hmem := (hd.mem_linksAt side _ l).2 ⟨hl, rfl⟩
    obtain ⟨hslot, hthick, hend⟩ := htiled.inside side _ l hmem
    have hle := hend.trans ((hdy _).trans (hconfig .height).2)
    exact ⟨inRange_of_nonneg hslot (by linarith), inRange_of_nonneg hthick (by linarith)⟩
  simp only [Link.coordinates, List.forall_mem_cons, List.not_mem_nil, false_implies,
    implies_true, and_true]
  exact ⟨(hside .outgoing).2, (hside .outgoing).1, (hside .incoming).1⟩

/-- **`StaysInRange` holds, for whatever number of rounds, iff `LayersInRange` does**: iff the gaps
of layers and the quotients by their greatest values are in range. -/
theorem staysInRange_iff (h : ofFlows names flows = .ok d) (rounds : Nat) :
    (d.withValues.withLayers config).StaysInRange config rounds
      ↔ (d.withValues.withLayers config).LayersInRange config := by
  have hvalue := value_nonneg h config
  obtain ⟨-, hwf, hac⟩ := wellFormed_ofFlows h
  constructor
  · intro hrange
    refine ⟨fun layer hlayer => ?_, fun layer hlayer hpos => ?_⟩
    · -- gaps beyond all words would take a node with them
      by_contra hover
      rw [not_le] at hover
      obtain ⟨id, hid, hle⟩ := exists_gaps_le_y hvalue (hconfig .height).1 hlayer
        ((hconfig .height).2.trans_lt hover) rounds
      have hy := hrange.node id hid _ (List.mem_cons_of_mem _ (List.mem_cons_of_mem _
        (List.mem_cons_self ..)))
      rw [node_withSlots] at hy
      exact absurd ((le_abs_self _).trans hy) (not_le.2 (hover.trans_le hle))
    · exact (inRange_quotient_iff hpos).1 (hrange.quotient layer hlayer hpos)
  · intro hlayers
    -- all other magnitudes are bounded by the gaps and the quotients
    have hquotient : ∀ layer ∈ (d.withValues.withLayers config).layers,
        0 < (d.withValues.withLayers config).peak layer →
        InRange (freeHeight config layer / (d.withValues.withLayers config).peak layer) :=
      fun layer hlayer hpos =>
        (inRange_quotient_iff hpos).2 (hlayers.freeHeight_le layer hlayer hpos)
    have hpacked : ∀ c ∈ (d.withValues.withLayers config).packings config rounds, ∀ id,
        (d.withValues.withLayers config).hasNode id → InRange (c.diagram.node id).y :=
      fun c hc id hid => inRange_packed hconfig hvalue hlayers.gaps_le hc hid
    refine ⟨hquotient, inRange_scale hconfig hvalue hquotient, ?_, hpacked, ?_, ?_⟩
    · intro k required available hmem
      exact inRange_required hconfig hvalue hlayers.gaps_le hmem
    · intro id hid
      -- the places of the layout are those of the last packing
      obtain ⟨c, hc, heq⟩ := (d.withValues.withLayers config).exists_mem_packings config rounds
      have hvalues : d.withValues.WellFormed := d.redraws_withValues.wellFormed hwf
      have hacyclic : Acyclic d.withValues.arcs := by rwa [d.redraws_withValues.arcs]
      refine inRange_node hconfig hvalues hacyclic (by rwa [hasNode_withLayers] at hid) hvalue ?_
      rw [← heq]
      exact hpacked c hc id hid
    · intro l hl
      have hbalanced := balanced_of_ofFlows h config rounds
      refine inRange_link hconfig hbalanced.withSlots.wellFormed hbalanced.tiled_withSlots ?_ ?_
      · intro id
        rw [node_withSlots]
        refine (dy_of_flattened (flattened_withColumns _ config rounds) id).trans_le ?_
        exact dy_withSizes_le hvalue (hconfig .height).1 (hconfig .nodePadding).1 id
      · rwa [(redraws_withSlots _).hasLink, (redraws_withColumns _ config rounds).hasLink]

end Placed

/-! ## Main statement

A speck is a single flow that is very small. -/

/-- The nodes of a speck. -/
def speckNames : List String := ["a", "b"]

/-- The flow of a speck. -/
def speckFlows (value : Binary64) : List (Flow Binary64) :=
  [⟨.named "a", .named "b", value⟩]

/-- The diagram of a speck. -/
def speckDiagram {α : Type} [Scalar α] (value : α) : Diagram α where
  nodes := #[{ Node.unplaced "a" with outgoing := [⟨0⟩] },
    { Node.unplaced "b" with incoming := [⟨0⟩] }]
  links := #[.unplaced ⟨0⟩ ⟨1⟩ value 0]
  circularLinks := []
  roots := [⟨0⟩]
  layerCount := 0
  warnings := []

/-- **A layout of flows and settings in words, computed in the numbers that they denote,
`StaysInRange` of words iff the gaps of no layer add up beyond it and the greatest value of no layer
with flow is too small for the height that the gaps leave.** -/
theorem ofFlows_staysInRange_iff {names : List String} {flows : List (Flow Binary64)}
    {config : Config Binary64} {w : Diagram Binary64} (h : ofFlows names flows = .ok w)
    (hconfig : config.error? = none) :
    ∃ d, ofFlows names (flows.map Flow.exact) = .ok d ∧
      ∀ rounds, (d.withValues.withLayers config.exact).StaysInRange config.exact rounds
        ↔ (d.withValues.withLayers config.exact).LayersInRange config.exact := by
  obtain ⟨d, hd⟩ := exists_ofFlows_exact h
  have hrange : ∀ field, config.exact.dimension field ∈ Set.Icc 0 Binary64.greatest :=
    fun field => ⟨Config.dimension_exact_nonneg hconfig field,
      Config.dimension_exact_le_greatest hconfig field⟩
  exact ⟨d, hd, staysInRange_iff hrange hd⟩

/-- A speck of `1e-305` is not too small for the standard settings. -/
theorem ofFlows_staysInRange_iff_speck :
    ofFlows speckNames (speckFlows 1e-305) = .ok (speckDiagram 1e-305) ∧
      (Config.standard : Config Binary64).error? = none ∧
      ∀ rounds, ((speckDiagram (Binary64.toRat 1e-305)).withValues.withLayers
        Config.standard.exact).StaysInRange Config.standard.exact rounds := by
  have hflows : ofFlows speckNames (speckFlows 1e-305) = .ok (speckDiagram 1e-305) := by
    decide +kernel
  have hconfig : (Config.standard : Config Binary64).error? = none := by decide +kernel
  have hexact : ofFlows speckNames ((speckFlows 1e-305).map Flow.exact)
      = .ok (speckDiagram (Binary64.toRat 1e-305)) := by decide +kernel
  obtain ⟨d, hd, hiff⟩ := ofFlows_staysInRange_iff hflows hconfig
  obtain rfl := Except.ok.inj (hexact.symm.trans hd)
  exact ⟨hflows, hconfig, fun rounds => (hiff rounds).2 ⟨by decide +kernel, by decide +kernel⟩⟩

/-- A speck of `1e-306` is too small. The scale is beyond all words, although it gives the nodes
ordinary heights; in words no node has one. -/
theorem not_staysInRange_speck :
    ofFlows speckNames (speckFlows 1e-306) = .ok (speckDiagram 1e-306) ∧
      (Config.standard : Config Binary64).error? = none ∧
      ofFlows speckNames ((speckFlows 1e-306).map Flow.exact)
        = .ok (speckDiagram (Binary64.toRat 1e-306)) ∧
      (∀ rounds, ¬ ((speckDiagram (Binary64.toRat 1e-306)).withValues.withLayers
        Config.standard.exact).StaysInRange Config.standard.exact rounds) ∧
      (∀ id ∈ [⟨0⟩, ⟨1⟩], ((((speckDiagram (Binary64.toRat 1e-306)).withValues.withLayers
        Config.standard.exact).withSizes Config.standard.exact).node id).dy = 475) ∧
      ∀ rounds d, ofFlowsPlaced speckNames (speckFlows 1e-306) .standard rounds = .ok d →
        ∀ id ∈ [⟨0⟩, ⟨1⟩], ¬ Scalar.isFinite (d.node id).dy := by
  have hflows : ofFlows speckNames (speckFlows 1e-306) = .ok (speckDiagram 1e-306) := by
    decide +kernel
  refine ⟨hflows, by decide +kernel, by decide +kernel, ?_, by decide +kernel, ?_⟩
  · intro rounds hrange
    exact absurd hrange.quotient (by decide +kernel)
  · intro rounds d hd id hid
    obtain ⟨first, hfirst, rfl⟩ := ofFlowsPlaced_eq_ok_iff.1 hd
    obtain rfl := Except.ok.inj (hflows.symm.trans hfirst)
    -- the rounds do not change heights, which can be read off before the first one
    have hdy := dy_of_flattened (flattened_withColumns
      ((speckDiagram (1e-306 : Binary64)).withValues.withLayers .standard) .standard rounds) id
    have hsized : ∀ id ∈ [⟨0⟩, ⟨1⟩], ¬ Scalar.isFinite
        ((((speckDiagram (1e-306 : Binary64)).withValues.withLayers .standard).withSizes
          .standard).node id).dy := by decide +kernel
    rw [placed, node_withSlots]
    show ¬ Scalar.isFinite (((((speckDiagram (1e-306 : Binary64)).withValues.withLayers
      .standard).withColumns .standard rounds).node id).dy)
    rw [hdy]
    exact hsized id hid

end Diagram

end SankeyDiagram
