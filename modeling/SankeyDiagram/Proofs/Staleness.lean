import SankeyDiagram.Proofs.Agreement
import SankeyDiagram.Proofs.TieOrder

/-! # Nothing stale

Stages write over a diagram that may come with anything in the places that they are to write: what
a layout before left there, or what a caller made up. Layers are told by the flows and the two
widths alone, and columns by the flows, the layers and values of nodes, the height and the gap. So
what a layout puts across and what it puts up and down have no effect on each other.

* **`Diagram.SameHeights`** two diagrams have their nodes and links at the same heights, and report
  the same layers.
* **`Diagram.SameSlots`** two diagrams have the same links in the same slots.
* **`Diagram.ofFlows_readsNothingStale`** stages put two diagrams into the same places, whatever was
  there before. -/

namespace SankeyDiagram

variable {α : Type} [Scalar α]

namespace Diagram

variable {d e e' f : Diagram α} {c c' : Config α}

/-! ## Across -/

namespace SameLayers

/-- `SameLayers` is symmetric. -/
theorem symm (h : e.SameLayers d) : d.SameLayers e where
  layerCount := h.layerCount.symm
  layer id := (h.layer id).symm
  x id := (h.x id).symm
  dx id := (h.dx id).symm

/-- `SameLayers` is transitive. -/
theorem trans (hfe : f.SameLayers e) (hed : e.SameLayers d) : f.SameLayers d where
  layerCount := hfe.layerCount.trans hed.layerCount
  layer id := (hfe.layer id).trans (hed.layer id)
  x id := (hfe.x id).trans (hed.x id)
  dx id := (hfe.dx id).trans (hed.dx id)

/-- Diagrams with one `unsized` for each node are `SameLayers`. -/
theorem of_unsized (hcount : e.layerCount = d.layerCount)
    (hnode : ∀ id, (e.node id).unsized = (d.node id).unsized) : e.SameLayers d where
  layerCount := hcount
  layer id := Node.layer_eq_of_unsized (hnode id)
  x id := by
    have hx := congrArg Node.x (hnode id)
    exact hx
  dx id := by
    have hdx := congrArg Node.dx (hnode id)
    exact hdx

end SameLayers

/-- The stages after `withLayers` leave `SameLayers`. -/
theorem sameLayers_placed (d : Diagram α) (config : Config α) (rounds : Nat) :
    (d.placed config rounds).SameLayers (d.withValues.withLayers config) := by
  have hslots : (d.placed config rounds).SameLayers
      ((d.withValues.withLayers config).withColumns config rounds) := by
    have hplaces := samePlaces_withSlots
      ((d.withValues.withLayers config).withColumns config rounds)
    refine .of_unsized hplaces.layerCount fun id => ?_
    have hnode := congrArg Node.unsized (hplaces.unlinked id)
    exact hnode
  exact hslots.trans (.of_unsized (layerCount_withColumns _ config rounds)
    (unsized_withColumns _ config rounds))

/-! ## Up and down -/

/-- Two diagrams have their nodes and links at the same heights, and report the same layers. -/
structure SameHeights (e d : Diagram α) : Prop where
  /-- The upper edges of nodes are the same. -/
  y : ∀ id, (e.node id).y = (d.node id).y
  /-- Nodes are as high. -/
  dy : ∀ id, (e.node id).dy = (d.node id).dy
  /-- Links are as thick. -/
  dy_link : ∀ l, (e.link l).dy = (d.link l).dy
  /-- `e` reports the layers that `d` reports, with the same heights. -/
  warnings : e.warnings = d.warnings

/-- Two diagrams have the same links in the same slots on the sides of nodes. -/
structure SameSlots (e d : Diagram α) : Prop where
  /-- Links are in the same order. -/
  linksAt : ∀ side id, (e.node id).linksAt side = (d.node id).linksAt side
  /-- Links start as far below the upper edges of their nodes. -/
  slotAt : ∀ side l, (e.link l).slotAt side = (d.link l).slotAt side

namespace SameHeights

/-- Under `SameHeights` nodes have the same centers. -/
theorem center (h : e.SameHeights d) (id : NodeId) : (e.node id).center = (d.node id).center := by
  rw [Node.center, Node.center, h.y, h.dy]

/-- `withSlots` keeps `SameHeights`. -/
theorem withSlots (h : e.SameHeights d) : e.withSlots.SameHeights d.withSlots where
  y id := by rw [node_withSlots, node_withSlots, h.y]
  dy id := by rw [node_withSlots, node_withSlots, h.dy]
  dy_link l := by rw [e.samePlaces_withSlots.dy_link, h.dy_link, d.samePlaces_withSlots.dy_link]
  warnings := by
    rw [e.samePlaces_withSlots.warnings, h.warnings, d.samePlaces_withSlots.warnings]

end SameHeights

/-- Of what comes before, `withColumns` reads the layers and values of nodes, and nothing across. -/
theorem SameFlows.sameHeights_withColumns (h : e.SameFlows d)
    (hlayer : ∀ id, (e.node id).layer = (d.node id).layer)
    (hvalue : ∀ id, (e.node id).value = (d.node id).value)
    (hheight : c.height = c'.height) (hnodePadding : c.nodePadding = c'.nodePadding)
    (rounds : Nat) : (e.withColumns c rounds).SameHeights (d.withColumns c' rounds) := by
  have hcolumns := h.samePulls.abreast_withColumns hlayer hvalue c rounds
  rw [← withColumns_congr d rounds hheight hnodePadding]
  exact ⟨hcolumns.y, hcolumns.dy, h.dy_link_withColumns hlayer hvalue c rounds,
    h.samePulls.warnings_withColumns hlayer hvalue c rounds⟩

/-- Under `SameHeights`, `withSlots` gives links that were in the same order the same slots. -/
theorem SameHeights.sameSlots_withSlots (h : e.SameHeights d) (hflows : e.SameFlows d)
    (hd : d.WellFormed) (hlinks : ∀ side id, (e.node id).linksAt side = (d.node id).linksAt side) :
    e.withSlots.SameSlots d.withSlots := by
  have horder : ∀ side id,
      (e.withSlots.node id).linksAt side = (d.withSlots.node id).linksAt side := fun side id =>
    linksAt_withSlots_congr (hlinks side id) fun l _ =>
      farCenter_congr (hflows.farEnd side l) h.center
  refine ⟨horder, (hflows.wellFormed hd).inStacks_withSlots.slotAt_eq_of_linksAt
    hd.inStacks_withSlots (d.redraws_withSlots.wellFormed hd) ?_ h.withSlots.dy_link horder⟩
  rw [e.redraws_withSlots.size_links, hflows.size_links, d.redraws_withSlots.size_links]

/-! ## Look-up -/

/-- `hasColumns` is the same under `SameFlows`, with nodes in the same layers. -/
theorem SameFlows.hasColumns_eq (h : e.SameFlows d) (hd : d.WellFormed)
    (hlayer : ∀ id, (e.node id).layer = (d.node id).layer) (rounds : Nat) :
    e.hasColumns rounds = d.hasColumns rounds := by
  rw [(h.wellFormed hd).hasColumns_eq, hd.hasColumns_eq, hasLayers, hasLayers,
    layerBound_congr h.size_nodes hlayer]

/-! ## Whole layouts -/

/-- The layers of `withLayers` do not depend on settings. -/
theorem layer_withLayers_congr (d : Diagram α) (c c' : Config α) (id : NodeId) :
    ((d.withLayers c).node id).layer = ((d.withLayers c').node id).layer := by
  by_cases hid : d.hasNode id
  · rw [layer_withLayers c hid, layer_withLayers c' hid]
  · rw [← hasNode_withLayers c'] at hid
    rw [node_eq_of_not_hasNode (by rw [size_nodes_withLayers, size_nodes_withLayers]) hid]

namespace SameFlows

variable (h : e.SameFlows d) (hd : d.WellFormed) (hac : Acyclic d.arcs)
include h hd hac

/-- `SameFlows` diagrams are put into `SameLayers` if the two widths are the same. -/
theorem sameLayers_withLayers (hwidth : c.width = c'.width)
    (hnodeWidth : c.nodeWidth = c'.nodeWidth) :
    (e.withLayers c).SameLayers (d.withLayers c') := by
  rw [withLayers_congr e hwidth hnodeWidth]
  exact h.sameGraph.sameLayers_withLayers (h.wellFormed hd) hd hac c'

/-- Whole layouts of `SameFlows` diagrams are in `SameLayers` if the two widths are the same. -/
theorem sameLayers_placed (hwidth : c.width = c'.width) (hnodeWidth : c.nodeWidth = c'.nodeWidth)
    (rounds rounds' : Nat) : (e.placed c rounds).SameLayers (d.placed c' rounds') := by
  have hwf := d.redraws_withValues.wellFormed hd
  rw [← d.redraws_withValues.arcs] at hac
  have hlayers := h.withValues.sameLayers_withLayers hwf hac hwidth hnodeWidth
  exact ((e.sameLayers_placed c rounds).trans hlayers).trans (d.sameLayers_placed c' rounds').symm

/-- `SameFlows` diagrams are put at `SameHeights`, even where layers are in other places across. -/
theorem sameHeights_columns (hheight : c.height = c'.height)
    (hnodePadding : c.nodePadding = c'.nodePadding) (rounds : Nat) :
    ((e.withValues.withLayers c).withColumns c rounds).SameHeights
      ((d.withValues.withLayers c').withColumns c' rounds) := by
  have hwf := d.redraws_withValues.wellFormed hd
  rw [← d.redraws_withValues.arcs] at hac
  have hflows : (e.withValues.withLayers c).SameFlows (d.withValues.withLayers c') :=
    ((sameFlows_withLayers _ c).trans h.withValues).trans (sameFlows_withLayers _ c').symm
  have hlayers : (e.withValues.withLayers c').SameLayers (d.withValues.withLayers c') :=
    h.withValues.sameLayers_withLayers hwf hac rfl rfl
  -- widths tell where layers are, but not which nodes are in them
  refine hflows.sameHeights_withColumns (fun id => ?_) (fun id => ?_) hheight hnodePadding rounds
  · rw [layer_withLayers_congr _ c c', hlayers.layer]
  · rw [value_withLayers, h.samePulls.value_withValues, value_withLayers]

/-- Whole layouts of `SameFlows` diagrams are at `SameHeights` if the height and the gap are the
same. -/
theorem sameHeights_placed (hheight : c.height = c'.height)
    (hnodePadding : c.nodePadding = c'.nodePadding) (rounds : Nat) :
    (e.placed c rounds).SameHeights (d.placed c' rounds) :=
  (h.sameHeights_columns hd hac hheight hnodePadding rounds).withSlots

/-- Whole layouts of `SameFlows` diagrams have `SameSlots` if links were in the same order. -/
theorem sameSlots_placed (hlinks : ∀ side id, (e.node id).linksAt side = (d.node id).linksAt side)
    (hheight : c.height = c'.height) (hnodePadding : c.nodePadding = c'.nodePadding)
    (rounds : Nat) : (e.placed c rounds).SameSlots (d.placed c' rounds) := by
  have hheights := h.sameHeights_columns hd hac hheight hnodePadding rounds
  have hflows := ((e.sameFlows_columns c rounds).trans h).trans (d.sameFlows_columns c' rounds).symm
  refine hheights.sameSlots_withSlots hflows ((d.sameFlows_columns c' rounds).wellFormed hd) ?_
  intro side id
  simp only [linksAt_withColumns, linksAt_withLayers, linksAt_withValues, hlinks]

end SameFlows

/-! ## Main statement -/

/-- **Diagrams that are `SameFlows` with one of flows are put into the same places, whatever else
they hold.** Layers are told by the two widths, and columns by the layers and values of nodes, the
height and the gap. So whole layouts agree across as soon as the widths do, and up and down as soon
as the height and the gap do. -/
theorem ofFlows_readsNothingStale {names : List String} {flows : List (Flow α)}
    (h : ofFlows names flows = .ok d) (he : e.SameFlows d) (he' : e'.SameFlows d)
    (c c' : Config α) :
    (c.width = c'.width → c.nodeWidth = c'.nodeWidth →
      e.hasSweep ∧ e'.hasSweep ∧ (e.withLayers c).SameLayers (e'.withLayers c') ∧
        ∀ rounds rounds', (e.placed c rounds).SameLayers (e'.placed c' rounds')) ∧
    (c.height = c'.height → c.nodePadding = c'.nodePadding → ∀ rounds,
      ((∀ id, (e.node id).layer = (e'.node id).layer) →
        (∀ id, (e.node id).value = (e'.node id).value) →
          e.hasColumns rounds = e'.hasColumns rounds ∧
            (e.withColumns c rounds).SameHeights (e'.withColumns c' rounds)) ∧
      (e.placed c rounds).SameHeights (e'.placed c' rounds) ∧
      ((∀ side id, (e.node id).linksAt side = (e'.node id).linksAt side) →
        (e.placed c rounds).SameSlots (e'.placed c' rounds))) := by
  obtain ⟨-, hwf, hac⟩ := wellFormed_ofFlows h
  have hboth : e.SameFlows e' := he.trans he'.symm
  rw [← he'.arcs] at hac
  replace hwf := he'.wellFormed hwf
  constructor
  · intro hwidth hnodeWidth
    exact ⟨(hboth.wellFormed hwf).hasSweep, hwf.hasSweep,
      hboth.sameLayers_withLayers hwf hac hwidth hnodeWidth,
      hboth.sameLayers_placed hwf hac hwidth hnodeWidth⟩
  · intro hheight hnodePadding rounds
    refine ⟨fun hlayer hvalue => ⟨hboth.hasColumns_eq hwf hlayer rounds, ?_⟩, ?_, fun hlinks => ?_⟩
    · exact hboth.sameHeights_withColumns hlayer hvalue hheight hnodePadding rounds
    · exact hboth.sameHeights_placed hwf hac hheight hnodePadding rounds
    · exact hboth.sameSlots_placed hwf hac hlinks hheight hnodePadding rounds

/-- A diagram with something else in the places that stages write: nodes are in other layers, and
all lengths are one scalar. -/
def littered (d : Diagram α) (move : Nat → Nat) (junk : α) : Diagram α :=
  { d with
    nodes := d.nodes.map fun n =>
      { n with layer := move n.layer, x := junk, dx := junk, y := junk, dy := junk }
    links := d.links.map fun l => { l with dy := junk, sy := junk, ty := junk }
    layerCount := move d.layerCount
    warnings := .layerOverflow (move d.layerCount) junk junk :: d.warnings }

section Littered

variable (d : Diagram α) (move : Nat → Nat) (junk : α)

omit [Scalar α] in
/-- `littered` keeps the number of nodes. -/
theorem size_nodes_littered : (d.littered move junk).nodes.size = d.nodes.size := by
  simp [littered]

/-- `littered` writes `junk` over all lengths of a node, and moves its layer. -/
theorem node_littered {id : NodeId} (hid : d.hasNode id) :
    (d.littered move junk).node id = { d.node id with
      layer := move (d.node id).layer, x := junk, dx := junk, y := junk, dy := junk } := by
  rw [hasNode_iff] at hid
  rw [node_of_lt _ (by simpa [littered] using hid), d.node_of_lt hid]
  simp [littered]

/-- `littered` leaves `SameFlows`. -/
theorem sameFlows_littered : (d.littered move junk).SameFlows d := by
  have hnode : ∀ id, d.hasNode id → ((d.littered move junk).node id).name = (d.node id).name ∧
      ∀ side, ((d.littered move junk).node id).linksAt side = (d.node id).linksAt side := by
    intro id hid
    rw [node_littered d move junk hid]
    exact ⟨rfl, fun side => by cases side <;> rfl⟩
  have hdraw : (d.littered move junk).Redraws d := by
    refine .of_nodes (d.size_nodes_littered move junk) (fun id hid => ?_) ?_ rfl rfl
    · exact ⟨(hnode id hid).1, fun side => .of_eq ((hnode id hid).2 side)⟩
    · simp [littered, Link.bare]
  refine hdraw.sameFlows fun side id => .of_eq ?_
  by_cases hid : d.hasNode id
  · exact (hnode id hid).2 side
  · rw [node_eq_of_not_hasNode (d.size_nodes_littered move junk) hid]

end Littered

/-- The fan, `littered`, is laid out as if nothing had been there, in layers and in columns, even
though no length in it was a number and its nodes were seven layers further to the right. Other
settings across make no difference to its columns. -/
theorem ofFlows_readsNothingStale_littered :
    ∃ d layered : Diagram Binary64, ofFlows Session.fanNames Session.fanFlows = .ok d ∧
      layered = d.withValues.withLayers .standard ∧
      ((d.littered (· + 7) .nan).withLayers .standard).SameLayers (d.withLayers .standard) ∧
      ((layered.littered (·) .nan).withColumns .standard 2).SameHeights
        (layered.withColumns (Config.standard.withNodeWidth 5) 2) := by
  obtain ⟨d, hd⟩ := Session.exists_ofFlows_fan
  generalize hlayered : d.withValues.withLayers .standard = layered
  have hflows : layered.SameFlows d :=
    hlayered ▸ (d.withValues.sameFlows_withLayers _).trans d.sameFlows_withValues
  have hlittered := layered.sameFlows_littered (·) Binary64.nan
  have hnode : ∀ id,
      ((layered.littered (·) .nan).node id).layer = (layered.node id).layer ∧
        ((layered.littered (·) .nan).node id).value = (layered.node id).value := by
    intro id
    by_cases hid : layered.hasNode id
    · rw [node_littered _ _ _ hid]
      exact ⟨rfl, rfl⟩
    · rw [node_eq_of_not_hasNode (layered.size_nodes_littered _ _) hid]
      exact ⟨rfl, rfl⟩
  -- the layers are formed with litter of their own, the columns with litter after the layers
  obtain ⟨hacross, -⟩ := ofFlows_readsNothingStale hd (d.sameFlows_littered (· + 7) .nan)
    (.refl d) .standard .standard
  obtain ⟨-, hupright⟩ := ofFlows_readsNothingStale hd (hlittered.trans hflows) hflows .standard
    (Config.standard.withNodeWidth 5)
  refine ⟨d, layered, hd, hlayered.symm, (hacross rfl rfl).2.2.1, ?_⟩
  exact ((hupright rfl rfl 2).1 (fun id => (hnode id).1) fun id => (hnode id).2).2

end Diagram

end SankeyDiagram
