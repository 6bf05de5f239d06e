import SankeyDiagram.Proofs.Restacking

/-! # What stages read

Two diagrams with the same names, flows and sums at the sides of nodes are given the same values,
the same layers and the same columns, whatever else they hold before: no stage up to the columns
reads where nodes and links were, how flows are counted, or which of them are left out.

* **`SumAlike`** lists of links with the same sums: equal ones, and in exact numbers those that
  differ in their order.
* **`Diagram.SameGraph`** two diagrams have the same nodes and arcs, which is all that layers read;
  **`Diagram.SameGraph.sameLayers_withLayers`** they are the same.
* **`Diagram.SamePulls`** links pull the nodes of two diagrams alike, which is all that values and
  columns read; **`Diagram.SamePulls.value_withValues`** values are the same, and
  **`Diagram.SamePulls.abreast_withColumns`** so are heights.
* **`Diagram.SameFlows`** two diagrams agree on all that stages read.
* **`Diagram.Abreast`** two diagrams have their nodes at the same heights;
  **`Diagram.Abreast.relaxed`**, **`Columns.Abreast.relaxed`** a pass and a number of rounds keep
  this.
* **`Diagram.SameFlows.samePlaces`** the columns of both are in the same places. -/

namespace SankeyDiagram

/-! ## Sums -/

/-- Lists of links that have the same sums, whatever is summed up. -/
structure SumAlike (α : Type) [Scalar α] (ids other : List LinkId) : Prop where
  /-- One list rearranges the other. -/
  perm : ids.Perm other
  /-- Whatever `f` reads off the links has the same sum over both lists. -/
  sum_eq : ∀ f : LinkId → α, Scalar.sum (ids.map f) = Scalar.sum (other.map f)

namespace SumAlike

variable {α : Type} [Scalar α] {ids other third : List LinkId}

/-- `SumAlike` is reflexive. -/
theorem refl (ids : List LinkId) : SumAlike α ids ids := ⟨List.Perm.refl ids, fun _ => rfl⟩

/-- Equal lists are `SumAlike`. -/
theorem of_eq (h : ids = other) : SumAlike α ids other := h ▸ refl ids

/-- `SumAlike` is symmetric. -/
theorem symm (h : SumAlike α ids other) : SumAlike α other ids :=
  ⟨h.perm.symm, fun f => (h.sum_eq f).symm⟩

/-- `SumAlike` is transitive. -/
theorem trans (h : SumAlike α ids other) (h' : SumAlike α other third) : SumAlike α ids third :=
  ⟨h.perm.trans h'.perm, fun f => (h.sum_eq f).trans (h'.sum_eq f)⟩

/-- In exact numbers any rearrangement is `SumAlike`. -/
theorem of_perm (h : ids.Perm other) : SumAlike Rat ids other := by
  refine ⟨h, fun f => ?_⟩
  rw [Scalar.sum_rat, Scalar.sum_rat]
  exact (h.map f).sum_eq

end SumAlike

variable {α : Type} [Scalar α]

namespace Node

/-- A node without its vertical place and without its links. -/
def unsized (n : Node α) : Node α := { n with y := 0, dy := 0, outgoing := [], incoming := [] }

/-- `Node.unlinked` is told by `Node.unsized`, the upper edge and the height. -/
theorem unlinked_eq_of_unsized {n m : Node α} (h : n.unsized = m.unsized) (hy : n.y = m.y)
    (hdy : n.dy = m.dy) : n.unlinked = m.unlinked := by
  obtain ⟨name, layer, x, dx, y, dy, value, outgoing, incoming⟩ := n
  obtain ⟨name', layer', x', dx', y', dy', value', outgoing', incoming'⟩ := m
  obtain rfl : y = y' := hy
  obtain rfl : dy = dy' := hdy
  cases h
  rfl

/-- `Node.unsized` is told by the name, the layer, the horizontal place and the value. -/
theorem unsized_eq {n m : Node α} (hname : n.name = m.name) (hlayer : n.layer = m.layer)
    (hx : n.x = m.x) (hdx : n.dx = m.dx) (hvalue : n.value = m.value) : n.unsized = m.unsized := by
  rw [unsized, hname, hlayer, hx, hdx, hvalue, unsized]

/-- `Node.unsized` shows the layer. -/
theorem layer_eq_of_unsized {n m : Node α} (h : n.unsized = m.unsized) : n.layer = m.layer := by
  have hlayer := congrArg layer h
  exact hlayer

/-- `Node.unsized` shows the value. -/
theorem value_eq_of_unsized {n m : Node α} (h : n.unsized = m.unsized) : n.value = m.value := by
  have hvalue := congrArg value h
  exact hvalue

end Node

/-- `Link.unslotted` is told by `Link.bare` and the thickness. -/
theorem Link.unslotted_eq_of_bare {l m : Link α} (h : l.bare = m.bare) (hdy : l.dy = m.dy) :
    l.unslotted = m.unslotted := by
  obtain ⟨source, target, value, dy, sy, ty, merged, inputIndex⟩ := l
  obtain ⟨source', target', value', dy', sy', ty', merged', inputIndex'⟩ := m
  obtain rfl : dy = dy' := hdy
  cases h
  rfl

namespace Diagram

variable {d e : Diagram α} {config : Config α} {side : Side} {id : NodeId} {l : LinkId}

/-! ## What stages keep -/

/-- `withValues` leaves the links of nodes in their order. -/
theorem linksAt_withValues (d : Diagram α) (side : Side) (id : NodeId) :
    (d.withValues.node id).linksAt side = (d.node id).linksAt side := by
  by_cases hid : d.hasNode id
  · rw [node_withValues d hid]
    cases side <;> rfl
  · rw [node_eq_of_not_hasNode d.redraws_withValues.size_nodes hid]

/-- `withLayers` leaves the links of nodes in their order. -/
theorem linksAt_withLayers (d : Diagram α) (config : Config α) (side : Side) (id : NodeId) :
    ((d.withLayers config).node id).linksAt side = (d.node id).linksAt side := by
  by_cases hid : d.hasNode id
  · rw [node_withLayers config hid]
    cases side <;> rfl
  · rw [node_eq_of_not_hasNode (d.redraws_withLayers config).size_nodes hid]

/-- `withSizes` leaves the links of nodes in their order. -/
theorem linksAt_withSizes (d : Diagram α) (config : Config α) (side : Side) (id : NodeId) :
    ((d.withSizes config).node id).linksAt side = (d.node id).linksAt side := by
  by_cases hid : d.hasNode id
  · rw [node_withSizes d config hid]
    cases side <;> rfl
  · rw [node_eq_of_not_hasNode (d.redraws_withSizes config).size_nodes hid]

/-- Diagrams with one `flattened` have the links of nodes in one order. -/
theorem linksAt_of_flattened (h : e.flattened = d.flattened) (side : Side) (id : NodeId) :
    (e.node id).linksAt side = (d.node id).linksAt side := by
  have hnode := congrArg (fun d => (d.node id).linksAt side) h
  simp only [node_flattened] at hnode
  cases side <;> exact hnode

/-- `withColumns` leaves the links of nodes in their order. -/
theorem linksAt_withColumns (d : Diagram α) (config : Config α) (rounds : Nat) (side : Side)
    (id : NodeId) : ((d.withColumns config rounds).node id).linksAt side
      = (d.node id).linksAt side := by
  rw [linksAt_of_flattened (d.flattened_withColumns config rounds), linksAt_withSizes]

/-- `withColumns` gives links what `withSizes` gives them. -/
theorem link_withColumns (d : Diagram α) (config : Config α) (rounds : Nat) (l : LinkId) :
    (d.withColumns config rounds).link l = (d.withSizes config).link l := by
  have hlink := congrArg (fun d => d.link l) (d.flattened_withColumns config rounds)
  exact hlink

/-- `withColumns` leaves slots where they are. -/
theorem slotAt_withColumns (d : Diagram α) (config : Config α) (rounds : Nat) (side : Side)
    (l : LinkId) : ((d.withColumns config rounds).link l).slotAt side
      = (d.link l).slotAt side := by
  rw [link_withColumns, link, link, withSizes, scaled, Array.getD_eq_getD_getElem?,
    Array.getD_eq_getD_getElem?, Array.getElem?_map]
  cases side <;> cases d.links[l.index]? <;> rfl

/-- `withSizes` changes nothing that `Node.unsized` shows. -/
theorem unsized_withSizes (d : Diagram α) (config : Config α) (id : NodeId) :
    ((d.withSizes config).node id).unsized = (d.node id).unsized := by
  by_cases hid : d.hasNode id
  · rw [node_withSizes d config hid]
    rfl
  · rw [node_eq_of_not_hasNode (d.redraws_withSizes config).size_nodes hid]

/-- `withColumns` changes nothing that `Node.unsized` shows. -/
theorem unsized_withColumns (d : Diagram α) (config : Config α) (rounds : Nat) (id : NodeId) :
    ((d.withColumns config rounds).node id).unsized = (d.node id).unsized := by
  have hnode := congrArg (fun d => (d.node id).unsized) (d.flattened_withColumns config rounds)
  simp only [node_flattened] at hnode
  exact Eq.trans hnode (d.unsized_withSizes config id)

/-! ## The same graph -/

/-- Two diagrams have the same nodes and the same arcs. -/
structure SameGraph (e d : Diagram α) : Prop where
  /-- `e` has as many nodes as `d`. -/
  size_nodes : e.nodes.size = d.nodes.size
  /-- The links of `e` join the nodes that those of `d` join. -/
  mem_arcs_iff : ∀ arc, arc ∈ e.arcs ↔ arc ∈ d.arcs

/-- Two diagrams have the same layers, in the same places. -/
structure SameLayers (e d : Diagram α) : Prop where
  /-- `e` has as many layers as `d`. -/
  layerCount : e.layerCount = d.layerCount
  /-- Each node has the same layer in `e` and in `d`. -/
  layer : ∀ id, (e.node id).layer = (d.node id).layer
  /-- Nodes start at the same place across. -/
  x : ∀ id, (e.node id).x = (d.node id).x
  /-- Nodes are as wide. -/
  dx : ∀ id, (e.node id).dx = (d.node id).dx

namespace SameGraph

omit [Scalar α] in
/-- Under `SameGraph` the same nodes exist. -/
theorem hasNode (h : e.SameGraph d) (id : NodeId) : e.hasNode id = d.hasNode id := by
  rw [Diagram.hasNode, h.size_nodes, Diagram.hasNode]

omit [Scalar α] in
/-- Under `SameGraph` the walks to a node have the same lengths. -/
theorem lengthsTo_eq (h : e.SameGraph d) (id : NodeId) :
    lengthsTo e.arcs id = lengthsTo d.arcs id := by
  ext k
  constructor
  · rintro ⟨a, hwalk⟩
    exact ⟨a, hwalk.mono fun arc => (h.mem_arcs_iff arc).1⟩
  · rintro ⟨a, hwalk⟩
    exact ⟨a, hwalk.mono fun arc => (h.mem_arcs_iff arc).2⟩

omit [Scalar α] in
/-- Under `SameGraph` all walks have the same lengths. -/
theorem lengths_eq (h : e.SameGraph d) : lengths e.arcs = lengths d.arcs := by
  rw [lengths, lengths]
  simp only [h.lengthsTo_eq]

/-- Under `SameGraph` the two sweeps are as long as each other. -/
theorem length_sweep (h : e.SameGraph d) (he : e.WellFormed) (hd : d.WellFormed)
    (hac : Acyclic d.arcs) : e.sweep.length = d.sweep.length := by
  have hac' : Acyclic e.arcs := hac.mono fun arc => (h.mem_arcs_iff arc).1
  rcases Nat.eq_zero_or_pos d.nodes.size with hempty | hpos
  -- a sweep is as long as the longest walk, and the arcs tell of that
  · rw [hd.length_sweep_of_empty hempty, he.length_sweep_of_empty (h.size_nodes.trans hempty)]
  · obtain ⟨m, hm⟩ := hac.exists_longest hd.below hpos
    rw [hd.length_sweep hac hpos hm]
    rw [← h.lengths_eq] at hm
    rw [← h.size_nodes] at hpos
    exact he.length_sweep hac' hpos hm

/-- Under `SameGraph`, `withLayers` puts nodes in the same layers, as these are the lengths of
walks. -/
theorem layer_withLayers (h : e.SameGraph d) (he : e.WellFormed) (hd : d.WellFormed)
    (hac : Acyclic d.arcs) (config : Config α) (hid : d.hasNode id) :
    ((e.withLayers config).node id).layer = ((d.withLayers config).node id).layer := by
  have hac' : Acyclic e.arcs := hac.mono fun arc => (h.mem_arcs_iff arc).1
  have hid' : e.hasNode id := by rwa [h.hasNode]
  by_cases hsink : ∀ arc ∈ d.arcs, arc.1 ≠ id
  -- a node that no link leaves is in the last layer, any other where its longest walk ends
  · rw [hd.layer_of_sink hid hsink, ← h.length_sweep he hd hac]
    exact he.layer_of_sink hid' fun arc harc => hsink arc ((h.mem_arcs_iff arc).1 harc)
  · push Not at hsink
    obtain ⟨⟨a, b⟩, harc, rfl⟩ := hsink
    have hlayer : IsGreatest (lengthsTo d.arcs a) ((d.withLayers config).node a).layer :=
      hd.layer_of_arc hac harc
    rw [← h.lengthsTo_eq] at hlayer
    exact (he.layer_of_arc hac' ((h.mem_arcs_iff _).2 harc)).unique hlayer

/-- `withLayers` keeps the number of nodes. -/
theorem size_nodes_withLayers (h : e.SameGraph d) (config : Config α) :
    (e.withLayers config).nodes.size = (d.withLayers config).nodes.size := by
  rw [Diagram.size_nodes_withLayers, h.size_nodes, Diagram.size_nodes_withLayers]

/-- Under `SameGraph`, diagrams are `SameLayers` after `withLayers`, whatever their layers were
before. -/
theorem sameLayers_withLayers (h : e.SameGraph d) (he : e.WellFormed) (hd : d.WellFormed)
    (hac : Acyclic d.arcs) (config : Config α) :
    (e.withLayers config).SameLayers (d.withLayers config) := by
  have hnode : ∀ id, ((e.withLayers config).node id).layer = ((d.withLayers config).node id).layer ∧
      ((e.withLayers config).node id).x = ((d.withLayers config).node id).x ∧
      ((e.withLayers config).node id).dx = ((d.withLayers config).node id).dx := by
    intro id
    -- where there is no node both read one blank
    by_cases hid : d.hasNode id
    · have hid' : e.hasNode id := by rwa [h.hasNode]
      have hlayer := h.layer_withLayers he hd hac config hid
      rw [Diagram.layer_withLayers config hid, Diagram.layer_withLayers config hid'] at hlayer
      rw [node_withLayers config hid, node_withLayers config hid', hlayer,
        h.length_sweep he hd hac, placeNode, placeNode]
      exact ⟨rfl, rfl, rfl⟩
    · rw [← hasNode_withLayers config] at hid
      rw [node_eq_of_not_hasNode (h.size_nodes_withLayers config) hid]
      exact ⟨rfl, rfl, rfl⟩
  exact ⟨h.length_sweep he hd hac, fun id => (hnode id).1, fun id => (hnode id).2.1,
    fun id => (hnode id).2.2⟩

/-- Under `SameGraph`, nodes of the same names and values have one `Node.unsized` after
`withLayers`. -/
theorem unsized_withLayers (h : e.SameGraph d) (he : e.WellFormed) (hd : d.WellFormed)
    (hac : Acyclic d.arcs) (hname : ∀ id, (e.node id).name = (d.node id).name)
    (hvalue : ∀ id, (e.node id).value = (d.node id).value) (config : Config α) (id : NodeId) :
    ((e.withLayers config).node id).unsized = ((d.withLayers config).node id).unsized := by
  have hlayers := h.sameLayers_withLayers he hd hac config
  refine Node.unsized_eq ?_ (hlayers.layer id) (hlayers.x id) (hlayers.dx id) ?_
  · rw [(e.redraws_withLayers config).name, hname, (d.redraws_withLayers config).name]
  · rw [value_withLayers, hvalue, value_withLayers]

end SameGraph

/-! ## The same pulls -/

/-- Two diagrams have the same nodes, and links pull them alike: whatever is made of where the links
on a side of a node lead and of their values, its sum is the same. -/
structure SamePulls (e d : Diagram α) : Prop where
  /-- `e` has as many nodes as `d`. -/
  size_nodes : e.nodes.size = d.nodes.size
  /-- A side of a node has links in `e` iff it has some in `d`. -/
  isEmpty_eq : ∀ side id, ((e.node id).linksAt side).isEmpty = ((d.node id).linksAt side).isEmpty
  /-- Sums over the links on a side are the same. -/
  sum_eq : ∀ (side : Side) (id : NodeId) (f : NodeId → α → α),
    Scalar.sum (((e.node id).linksAt side).map fun l => f ((e.link l).farEnd side) (e.link l).value)
      = Scalar.sum
        (((d.node id).linksAt side).map fun l => f ((d.link l).farEnd side) (d.link l).value)

namespace SamePulls

/-- `SamePulls` is symmetric. -/
theorem symm (h : e.SamePulls d) : d.SamePulls e where
  size_nodes := h.size_nodes.symm
  isEmpty_eq side id := (h.isEmpty_eq side id).symm
  sum_eq side id f := (h.sum_eq side id f).symm

/-- `SamePulls` is transitive. -/
theorem trans {f : Diagram α} (hfe : f.SamePulls e) (hed : e.SamePulls d) : f.SamePulls d where
  size_nodes := hfe.size_nodes.trans hed.size_nodes
  isEmpty_eq side id := (hfe.isEmpty_eq side id).trans (hed.isEmpty_eq side id)
  sum_eq side id f := (hfe.sum_eq side id f).trans (hed.sum_eq side id f)

/-- Under `SamePulls` the same nodes exist. -/
theorem hasNode (h : e.SamePulls d) (id : NodeId) : e.hasNode id = d.hasNode id := by
  rw [Diagram.hasNode, h.size_nodes, Diagram.hasNode]

/-- Under `SamePulls` the flows at a side of a node have the same sum. -/
theorem flow (h : e.SamePulls d) (side : Side) (id : NodeId) :
    e.flow ((e.node id).linksAt side) = d.flow ((d.node id).linksAt side) :=
  h.sum_eq side id fun _ value => value

/-- Under `SamePulls`, `withValues` gives nodes the same values. -/
theorem value_withValues (h : e.SamePulls d) (id : NodeId) :
    (e.withValues.node id).value = (d.withValues.node id).value := by
  by_cases hid : d.hasNode id
  · have hid' : e.hasNode id := by rwa [h.hasNode]
    have hout := h.flow .outgoing id
    have hin := h.flow .incoming id
    rw [node_withValues d hid, node_withValues e hid']
    exact congrArg₂ Scalar.larger hout hin
  · have hsize : e.withValues.nodes.size = d.withValues.nodes.size := by
      rw [e.redraws_withValues.size_nodes, h.size_nodes, d.redraws_withValues.size_nodes]
    rw [← d.redraws_withValues.hasNode] at hid
    rw [node_eq_of_not_hasNode hsize hid]

end SamePulls

/-! ## The same flows -/

/-- Two diagrams agree on all that stages read: the names of nodes, the roots, the ends and values
of links, and sums at the sides of nodes. -/
structure SameFlows (e d : Diagram α) : Prop where
  /-- `e` has as many nodes as `d`. -/
  size_nodes : e.nodes.size = d.nodes.size
  /-- Nodes have the same names. -/
  name : ∀ id, (e.node id).name = (d.node id).name
  /-- The links on each side of each node are `SumAlike`. -/
  linksAt : ∀ side id, SumAlike α ((e.node id).linksAt side) ((d.node id).linksAt side)
  /-- `e` has as many links as `d`. -/
  size_links : e.links.size = d.links.size
  /-- Links join the same nodes. -/
  nearEnd : ∀ side l, (e.link l).nearEnd side = (d.link l).nearEnd side
  /-- Links have the same values. -/
  value : ∀ l, (e.link l).value = (d.link l).value
  /-- The roots are the same. -/
  roots : e.roots = d.roots

/-- `e.Redraws d` gives `SameFlows` if the links on each side of each node are `SumAlike`. -/
theorem Redraws.sameFlows (h : e.Redraws d)
    (hlinks : ∀ side id, SumAlike α ((e.node id).linksAt side) ((d.node id).linksAt side)) :
    e.SameFlows d where
  size_nodes := h.size_nodes
  name := h.name
  linksAt := hlinks
  size_links := h.size_links
  nearEnd := h.nearEnd
  value := h.value_link
  roots := h.roots

/-- `withValues` changes nothing that `SameFlows` compares. -/
theorem sameFlows_withValues (d : Diagram α) : d.withValues.SameFlows d :=
  d.redraws_withValues.sameFlows fun side id => .of_eq (d.linksAt_withValues side id)

/-- `withLayers` changes nothing that `SameFlows` compares. -/
theorem sameFlows_withLayers (d : Diagram α) (config : Config α) :
    (d.withLayers config).SameFlows d :=
  (d.redraws_withLayers config).sameFlows fun side id =>
    .of_eq (d.linksAt_withLayers config side id)

/-- `withSizes` changes nothing that `SameFlows` compares. -/
theorem sameFlows_withSizes (d : Diagram α) (config : Config α) :
    (d.withSizes config).SameFlows d :=
  (d.redraws_withSizes config).sameFlows fun side id => .of_eq (d.linksAt_withSizes config side id)

/-- `withColumns` changes nothing that `SameFlows` compares. -/
theorem sameFlows_withColumns (d : Diagram α) (config : Config α) (rounds : Nat) :
    (d.withColumns config rounds).SameFlows d :=
  (d.redraws_withColumns config rounds).sameFlows fun side id =>
    .of_eq (d.linksAt_withColumns config rounds side id)

/-- Diagrams with one `flattened` are `SameFlows`. -/
theorem sameFlows_of_flattened (h : e.flattened = d.flattened) : e.SameFlows d :=
  (redraws_of_flattened h).sameFlows fun side id => .of_eq (linksAt_of_flattened h side id)

namespace SameFlows

/-- `SameFlows` is reflexive. -/
theorem refl (d : Diagram α) : d.SameFlows d := sameFlows_of_flattened rfl

/-- `SameFlows` is symmetric. -/
theorem symm (h : e.SameFlows d) : d.SameFlows e where
  size_nodes := h.size_nodes.symm
  name id := (h.name id).symm
  linksAt side id := (h.linksAt side id).symm
  size_links := h.size_links.symm
  nearEnd side l := (h.nearEnd side l).symm
  value l := (h.value l).symm
  roots := h.roots.symm

/-- `SameFlows` is transitive. -/
theorem trans {f : Diagram α} (hfe : f.SameFlows e) (hed : e.SameFlows d) : f.SameFlows d where
  size_nodes := hfe.size_nodes.trans hed.size_nodes
  name id := (hfe.name id).trans (hed.name id)
  linksAt side id := (hfe.linksAt side id).trans (hed.linksAt side id)
  size_links := hfe.size_links.trans hed.size_links
  nearEnd side l := (hfe.nearEnd side l).trans (hed.nearEnd side l)
  value l := (hfe.value l).trans (hed.value l)
  roots := hfe.roots.trans hed.roots

/-- Under `SameFlows` the same nodes exist. -/
theorem hasNode (h : e.SameFlows d) (id : NodeId) : e.hasNode id = d.hasNode id := by
  rw [Diagram.hasNode, h.size_nodes, Diagram.hasNode]

/-- Under `SameFlows` the same links exist. -/
theorem hasLink (h : e.SameFlows d) (l : LinkId) : e.hasLink l = d.hasLink l := by
  rw [Diagram.hasLink, h.size_links, Diagram.hasLink]

/-- Under `SameFlows` links have the same far ends. -/
theorem farEnd (h : e.SameFlows d) (side : Side) (l : LinkId) :
    (e.link l).farEnd side = (d.link l).farEnd side := by
  cases side with
  | outgoing => exact h.nearEnd .incoming l
  | incoming => exact h.nearEnd .outgoing l

/-- Under `SameFlows` the arcs are the same, in one order. -/
theorem arcs (h : e.SameFlows d) : e.arcs = d.arcs := by
  apply List.ext_getElem
  · simpa [Diagram.arcs] using h.size_links
  · intro i hi hi'
    have hlink : i < e.links.size := by simpa [Diagram.arcs] using hi
    have hlink' : i < d.links.size := by simpa [Diagram.arcs] using hi'
    have hsource := h.nearEnd .outgoing ⟨i⟩
    have htarget := h.nearEnd .incoming ⟨i⟩
    rw [e.link_of_lt hlink, d.link_of_lt hlink'] at hsource htarget
    simpa [Diagram.arcs, Link.arc] using ⟨hsource, htarget⟩

/-- `WellFormed` carries over under `SameFlows`. -/
theorem wellFormed (h : e.SameFlows d) (hd : d.WellFormed) : e.WellFormed where
  below := by
    rw [h.size_nodes, h.arcs]
    exact hd.below
  mem_linksAt side id l := by
    rw [(h.linksAt side id).perm.mem_iff, hd.mem_linksAt, h.hasLink, h.nearEnd]
  nodup_linksAt side id := (h.linksAt side id).perm.nodup_iff.2 (hd.nodup_linksAt side id)
  nodup_arcs := by
    rw [h.arcs]
    exact hd.nodup_arcs
  roots_eq := by
    rw [h.roots, hd.roots_eq, nodeIds, nodeIds, h.size_nodes]
    exact List.filter_congr fun id _ => (h.linksAt .incoming id).perm.isEmpty_eq.symm

/-- `withValues` keeps `SameFlows`. -/
theorem withValues (h : e.SameFlows d) : e.withValues.SameFlows d.withValues :=
  (e.sameFlows_withValues.trans h).trans d.sameFlows_withValues.symm

/-- `withLayers` keeps `SameFlows`. -/
theorem withLayers (h : e.SameFlows d) (config : Config α) :
    (e.withLayers config).SameFlows (d.withLayers config) :=
  ((e.sameFlows_withLayers config).trans h).trans (d.sameFlows_withLayers config).symm

/-- `withSizes` keeps `SameFlows`. -/
theorem withSizes (h : e.SameFlows d) (config : Config α) :
    (e.withSizes config).SameFlows (d.withSizes config) :=
  ((e.sameFlows_withSizes config).trans h).trans (d.sameFlows_withSizes config).symm

/-- `SameFlows` gives `SameGraph`. -/
theorem sameGraph (h : e.SameFlows d) : e.SameGraph d := ⟨h.size_nodes, fun arc => by rw [h.arcs]⟩

/-- `SameFlows` gives `SamePulls`. -/
theorem samePulls (h : e.SameFlows d) : e.SamePulls d where
  size_nodes := h.size_nodes
  isEmpty_eq side id := (h.linksAt side id).perm.isEmpty_eq
  sum_eq side id f := by
    rw [(h.linksAt side id).sum_eq]
    simp only [h.farEnd, h.value]

end SameFlows

/-! ## Heights -/

/-- `setTop id y` moves the upper edge of `id` to `y`, if there is such a node, and no other. -/
theorem y_setTop (d : Diagram α) (id : NodeId) (y : α) (other : NodeId) :
    ((d.setTop id y).node other).y
      = if other = id ∧ d.hasNode id then y else (d.node other).y := by
  by_cases heq : other = id
  · subst heq
    by_cases hid : d.hasNode other
    · rw [node_setTop_self hid, if_pos ⟨rfl, hid⟩]
    · rw [if_neg fun h => hid h.2,
        node_eq_of_not_hasNode (redraws_setTop d other y).size_nodes hid]
  · rw [node_setTop_of_ne heq, if_neg fun h => heq h.1]

/-- Two diagrams have their nodes at the same heights, and links pull them alike. -/
structure Abreast (e d : Diagram α) : Prop where
  /-- The pulls are the same. -/
  samePulls : e.SamePulls d
  /-- The upper edges of nodes are. -/
  y : ∀ id, (e.node id).y = (d.node id).y
  /-- The heights of nodes are. -/
  dy : ∀ id, (e.node id).dy = (d.node id).dy

namespace Abreast

/-- Nodes that stand `Abreast` have the same centers. -/
theorem center (h : e.Abreast d) (id : NodeId) : (e.node id).center = (d.node id).center := by
  rw [Node.center, Node.center, h.y, h.dy]

/-- Nodes that stand `Abreast` have the same boxes. -/
theorem box (h : e.Abreast d) : e.box = d.box := by
  funext id
  rw [Diagram.box, Diagram.box, h.y, h.dy]

/-- Nodes that stand `Abreast` are in the same order from the top. -/
theorem fromTop (h : e.Abreast d) : e.fromTop = d.fromTop := by
  funext layer
  simp only [Diagram.fromTop, h.y]

/-- `setTop` keeps `Abreast`. -/
theorem setTop (h : e.Abreast d) (id : NodeId) (y : α) :
    (e.setTop id y).Abreast (d.setTop id y) where
  samePulls :=
    ((sameFlows_of_flattened (flattened_setTop e id y)).samePulls.trans h.samePulls).trans
      (sameFlows_of_flattened (flattened_setTop d id y)).samePulls.symm
  y other := by rw [y_setTop, y_setTop, h.y, h.samePulls.hasNode]
  dy other := by
    rw [dy_of_flattened (flattened_setTop e id y), h.dy, dy_of_flattened (flattened_setTop d id y)]

/-- `setTops` keeps `Abreast`. -/
theorem setTops (h : e.Abreast d) (moves : List (NodeId × α)) :
    (e.setTops moves).Abreast (d.setTops moves) :=
  List.foldl_rel h fun move _ _ _ h => h.setTop move.1 move.2

/-- `packed` keeps `Abreast`. -/
theorem packed (h : e.Abreast d) (config : Config α) (layer : List NodeId) :
    (packed config e layer).Abreast (packed config d layer) := by
  rw [Diagram.packed, Diagram.packed, packedTops, h.box]
  exact h.setTops _

/-- Under `Abreast` the links on a side pull a node to the same height. -/
theorem weightedCenter? (h : e.Abreast d) (side : Side) (id : NodeId) :
    e.weightedCenter? side ((e.node id).linksAt side)
      = d.weightedCenter? side ((d.node id).linksAt side) := by
  have hsum := h.samePulls.sum_eq side id fun far value =>
    (d.node far).center * (value / d.flow ((d.node id).linksAt side))
  rw [Diagram.weightedCenter?, Diagram.weightedCenter?, h.samePulls.flow,
    h.samePulls.isEmpty_eq side id]
  simp only [h.center, hsum]

/-- `pulled` keeps `Abreast`. -/
theorem pulled (h : e.Abreast d) (side : Side) (strength : α) (id : NodeId) :
    (pulled side strength e id).Abreast (pulled side strength d id) := by
  rw [Diagram.pulled, Diagram.pulled]
  simp only [h.weightedCenter?, h.y, h.center]
  split
  · exact h.setTop id _
  · exact h

/-- `Diagram.relaxed` keeps `Abreast`. -/
theorem relaxed (h : e.Abreast d) (side : Side) (strength : α) (layers : List (List NodeId)) :
    (e.relaxed side strength layers).Abreast (d.relaxed side strength layers) :=
  List.foldl_rel h fun _ _ _ _ h => List.foldl_rel h fun id _ _ _ h => h.pulled side strength id

end Abreast

end Diagram

namespace Columns

/-- Columns hold the same nodes at the same heights. -/
structure Abreast (c c' : Columns α) : Prop where
  /-- Nodes are at the same heights. -/
  diagram : c.diagram.Abreast c'.diagram
  /-- The nodes of every layer are in the same order. -/
  layers : c.layers = c'.layers

namespace Abreast

variable {c c' : Columns α}

/-- `settled` keeps `Abreast`. -/
theorem settled (h : c.Abreast c') (config : Config α) :
    (c.settled config).Abreast (c'.settled config) where
  diagram := by
    rw [Columns.settled, Columns.settled, h.layers, h.diagram.fromTop]
    exact List.foldl_rel h.diagram fun layer _ _ _ h => h.packed config layer
  layers := by rw [Columns.settled, Columns.settled, h.layers, h.diagram.fromTop]

/-- `round` keeps `Abreast`. -/
theorem round (h : c.Abreast c') (config : Config α) (strength : α) :
    (c.round config strength).Abreast (c'.round config strength) := by
  have hleft : (c.relaxedLeftward strength).Abreast (c'.relaxedLeftward strength) := by
    refine ⟨?_, h.layers⟩
    rw [relaxedLeftward, relaxedLeftward, h.layers]
    exact h.diagram.relaxed ..
  have hsettled := hleft.settled config
  have hright : (((c.relaxedLeftward strength).settled config).relaxedRightward strength).Abreast
      (((c'.relaxedLeftward strength).settled config).relaxedRightward strength) := by
    refine ⟨?_, hsettled.layers⟩
    rw [relaxedRightward, relaxedRightward, hsettled.layers]
    exact hsettled.diagram.relaxed ..
  exact hright.settled config

/-- `Columns.relaxed` keeps `Abreast`. -/
theorem relaxed (h : c.Abreast c') (config : Config α) (rounds : Nat) (strength : α) :
    (c.relaxed config rounds strength).Abreast (c'.relaxed config rounds strength) := by
  -- on the rounds; each takes the columns from where the one before it left them
  induction rounds generalizing c c' strength with
  | zero => exact h
  | succ rounds ih => exact ih (h.round config _) _

end Abreast

end Columns

namespace Diagram

variable {d e : Diagram α} {config : Config α} {l : LinkId}

/-! ## Sizes -/

/-- `layer k` reads the layers of nodes alone. -/
theorem layer_congr (hsize : e.nodes.size = d.nodes.size)
    (hlayer : ∀ id, (e.node id).layer = (d.node id).layer) (k : Nat) : e.layer k = d.layer k := by
  rw [layer, layer, nodeIds, nodeIds, hsize]
  simp only [hlayer]

/-- `layerBound` reads the layers of nodes alone. -/
theorem layerBound_congr (hsize : e.nodes.size = d.nodes.size)
    (hlayer : ∀ id, (e.node id).layer = (d.node id).layer) : e.layerBound = d.layerBound := by
  refine eq_of_forall_ge_iff fun k => ?_
  rw [layerBound_le_iff, layerBound_le_iff]
  simp only [hasNode, hsize, hlayer]

/-- `layers` reads the layers of nodes alone. -/
theorem layers_congr (hsize : e.nodes.size = d.nodes.size)
    (hlayer : ∀ id, (e.node id).layer = (d.node id).layer) : e.layers = d.layers := by
  rw [layers, layers, layerBound_congr hsize hlayer, funext (layer_congr hsize hlayer)]

/-- `withSizes` leaves `layers` as they are. -/
theorem layers_withSizes (d : Diagram α) (config : Config α) :
    (d.withSizes config).layers = d.layers :=
  layers_congr (d.redraws_withSizes config).size_nodes fun id =>
    Node.layer_eq_of_unsized (d.unsized_withSizes config id)

/-- `withSizes` leaves `layer k` as it is. -/
theorem layer_withSizes (d : Diagram α) (config : Config α) (k : Nat) :
    (d.withSizes config).layer k = d.layer k :=
  layer_congr (d.redraws_withSizes config).size_nodes
    (fun id => Node.layer_eq_of_unsized (d.unsized_withSizes config id)) k

/-- `scale config` reads the layers and the values of their nodes. -/
theorem scale_congr (hlayers : e.layers = d.layers)
    (hvalue : ∀ id, (e.node id).value = (d.node id).value) (config : Config α) :
    e.scale config = d.scale config := by
  have hscale : e.layerScale? config = d.layerScale? config := by
    funext layer
    have hpeak : e.peak layer = d.peak layer := by
      rw [peak, peak, List.map_congr_left fun id _ => hvalue id]
    rw [layerScale?, layerScale?, hpeak]
    simp only [hvalue]
  rw [scale, scale, hlayers, hscale]

/-- A link is as thick as its value in `d.scale config`. -/
theorem dy_link_withSizes (d : Diagram α) (config : Config α) (hl : d.hasLink l) :
    ((d.withSizes config).link l).dy = (d.link l).value * d.scale config := by
  rw [hasLink_iff] at hl
  rw [link_of_lt _ (by simpa [withSizes, scaled] using hl), d.link_of_lt hl]
  simp [withSizes, scaled]

namespace SamePulls

variable (h : e.SamePulls d) (hlayer : ∀ id, (e.node id).layer = (d.node id).layer)
  (hvalue : ∀ id, (e.node id).value = (d.node id).value)
include h

/-- `withSizes` keeps `SamePulls`. -/
theorem withSizes (config : Config α) : (e.withSizes config).SamePulls (d.withSizes config) :=
  ((e.sameFlows_withSizes config).samePulls.trans h).trans
    (d.sameFlows_withSizes config).samePulls.symm

include hlayer hvalue

/-- `withSizes` puts nodes of the same values in the same layers `Abreast`. -/
theorem abreast_withSizes (config : Config α) :
    (e.withSizes config).Abreast (d.withSizes config) := by
  have hscale := scale_congr (layers_congr h.size_nodes hlayer) hvalue config
  have hrank : ∀ id, e.rank id = d.rank id := by
    intro id
    rw [rank, rank, hlayer, layer_congr h.size_nodes hlayer]
  have hplace : ∀ id, ((e.withSizes config).node id).y = ((d.withSizes config).node id).y ∧
      ((e.withSizes config).node id).dy = ((d.withSizes config).node id).dy := by
    intro id
    -- where there is no node both read one blank
    by_cases hid : d.hasNode id
    · have hid' : e.hasNode id := by rwa [h.hasNode]
      rw [node_withSizes d config hid, node_withSizes e config hid', hrank, hvalue, hscale]
      exact ⟨rfl, rfl⟩
    · rw [← (d.sameFlows_withSizes config).hasNode] at hid
      rw [node_eq_of_not_hasNode (h.withSizes config).size_nodes hid]
      exact ⟨rfl, rfl⟩
  exact ⟨h.withSizes config, fun id => (hplace id).1, fun id => (hplace id).2⟩

/-- `withSizes` reports the same layers as too high. -/
theorem warnings_withSizes : (e.withSizes config).warnings = (d.withSizes config).warnings := by
  have hsized := h.abreast_withSizes hlayer hvalue config
  have hrequired : (e.withSizes config).requiredHeight config
      = (d.withSizes config).requiredHeight config := by
    funext layer
    simp only [requiredHeight, hsized.dy]
  rw [Diagram.warnings_withSizes, Diagram.warnings_withSizes, layerWarnings, layerWarnings,
    layers_withSizes, layers_withSizes, layers_congr h.size_nodes hlayer]
  simp only [layerWarning?, hrequired]

/-! ## Columns -/

/-- `withColumns` puts nodes of the same values in the same layers `Abreast`. -/
theorem abreast_withColumns (config : Config α) (rounds : Nat) :
    (e.withColumns config rounds).Abreast (d.withColumns config rounds) := by
  have hlayers : (e.withSizes config).layers = (d.withSizes config).layers := by
    rw [layers_withSizes, layers_withSizes, layers_congr h.size_nodes hlayer]
  -- columns start at the same heights, and every round keeps this
  have hcolumns : (e.withSizes config).columns.Abreast (d.withSizes config).columns :=
    ⟨h.abreast_withSizes hlayer hvalue config, hlayers⟩
  exact ((hcolumns.settled config).relaxed config rounds 1).diagram

/-- `withColumns` reports the same layers as too high. -/
theorem warnings_withColumns (config : Config α) (rounds : Nat) :
    (e.withColumns config rounds).warnings = (d.withColumns config rounds).warnings := by
  rw [Diagram.warnings_withColumns, Diagram.warnings_withColumns,
    h.warnings_withSizes hlayer hvalue]

omit hlayer hvalue in
/-- Nodes with one `unsized` have one `unlinked` after `withColumns`. -/
theorem unlinked_withColumns (hunsized : ∀ id, (e.node id).unsized = (d.node id).unsized)
    (config : Config α) (rounds : Nat) (id : NodeId) :
    ((e.withColumns config rounds).node id).unlinked
      = ((d.withColumns config rounds).node id).unlinked := by
  have hplaced := h.abreast_withColumns (fun id => Node.layer_eq_of_unsized (hunsized id))
    (fun id => Node.value_eq_of_unsized (hunsized id)) config rounds
  refine Node.unlinked_eq_of_unsized ?_ (hplaced.y id) (hplaced.dy id)
  rw [unsized_withColumns, hunsized, unsized_withColumns]

end SamePulls

/-- `withColumns` leaves `layerCount` as it is. -/
theorem layerCount_withColumns (d : Diagram α) (config : Config α) (rounds : Nat) :
    (d.withColumns config rounds).layerCount = d.layerCount := by
  have hkept := congrArg layerCount (d.flattened_withColumns config rounds)
  exact hkept

/-- Under `SameFlows`, with the same layers and values, `withColumns` makes links as thick. -/
theorem SameFlows.dy_link_withColumns (h : e.SameFlows d)
    (hlayer : ∀ id, (e.node id).layer = (d.node id).layer)
    (hvalue : ∀ id, (e.node id).value = (d.node id).value) (config : Config α) (rounds : Nat)
    (l : LinkId) :
    ((e.withColumns config rounds).link l).dy = ((d.withColumns config rounds).link l).dy := by
  rw [link_withColumns, link_withColumns]
  by_cases hl : d.hasLink l
  · have hl' : e.hasLink l := by rwa [h.hasLink]
    rw [dy_link_withSizes d config hl, dy_link_withSizes e config hl', h.value,
      scale_congr (layers_congr h.size_nodes hlayer) hvalue]
  · rw [← (d.sameFlows_withSizes config).hasLink] at hl
    rw [link_eq_of_not_hasLink (h.withSizes config).size_links hl]

/-! ## The same places -/

/-- All that layers and columns write is the same in two diagrams. -/
structure SamePlaces (e d : Diagram α) : Prop where
  /-- Nodes are the same, up to the order of their links. -/
  unlinked : ∀ id, (e.node id).unlinked = (d.node id).unlinked
  /-- Links are as thick. -/
  dy_link : ∀ l, (e.link l).dy = (d.link l).dy
  /-- `e` has as many layers as `d`. -/
  layerCount : e.layerCount = d.layerCount
  /-- `e` reports the layers that `d` reports, with the same heights. -/
  warnings : e.warnings = d.warnings

namespace SamePlaces

/-- `SamePlaces` is transitive. -/
theorem trans {f : Diagram α} (hfe : f.SamePlaces e) (hed : e.SamePlaces d) : f.SamePlaces d where
  unlinked id := (hfe.unlinked id).trans (hed.unlinked id)
  dy_link l := (hfe.dy_link l).trans (hed.dy_link l)
  layerCount := hfe.layerCount.trans hed.layerCount
  warnings := hfe.warnings.trans hed.warnings

/-- Diagrams with one `unstacked` are `SamePlaces`. -/
theorem of_unstacked (h : e.unstacked = d.unstacked) : e.SamePlaces d where
  unlinked := unlinked_of_unstacked h
  dy_link l := by
    have hlink := congrArg Link.dy (unslotted_of_unstacked h l)
    exact hlink
  layerCount := by
    have hcount := congrArg Diagram.layerCount h
    exact hcount
  warnings := by
    have hwarnings := congrArg Diagram.warnings h
    exact hwarnings

end SamePlaces

/-- `withSlots` leaves `SamePlaces`. -/
theorem samePlaces_withSlots (d : Diagram α) : d.withSlots.SamePlaces d :=
  .of_unstacked d.unstacked_withSlots

/-- `SamePlaces` and `Redraws` together leave one `unstacked`. -/
theorem SamePlaces.unstacked_eq (h : e.SamePlaces d) (hdraw : e.Redraws d) :
    e.unstacked = d.unstacked := by
  have hnodes : e.unstacked.nodes = d.unstacked.nodes := by
    refine nodes_eq_of_node (by simpa [unstacked] using hdraw.size_nodes) fun id => ?_
    rw [node_unstacked, node_unstacked, h.unlinked]
  have hlinks : e.unstacked.links = d.unstacked.links := by
    refine links_eq_of_link (by simpa [unstacked] using hdraw.size_links) fun l => ?_
    rw [link_unstacked, link_unstacked]
    exact Link.unslotted_eq_of_bare (hdraw.bare_link l) (h.dy_link l)
  rw [unstacked, unstacked] at *
  rw [Diagram.mk.injEq]
  exact ⟨hnodes, hlinks, hdraw.circularLinks, hdraw.roots, h.layerCount, h.warnings⟩

/-- Under `SameFlows`, nodes with one `unsized` are in `SamePlaces` after `withColumns`. -/
theorem SameFlows.samePlaces_withColumns (h : e.SameFlows d)
    (hunsized : ∀ id, (e.node id).unsized = (d.node id).unsized)
    (hcount : e.layerCount = d.layerCount) (config : Config α) (rounds : Nat) :
    (e.withColumns config rounds).SamePlaces (d.withColumns config rounds) := by
  have hlayer := fun id => Node.layer_eq_of_unsized (hunsized id)
  have hvalue := fun id => Node.value_eq_of_unsized (hunsized id)
  refine ⟨h.samePulls.unlinked_withColumns hunsized config rounds,
    h.dy_link_withColumns hlayer hvalue config rounds, ?_,
    h.samePulls.warnings_withColumns hlayer hvalue config rounds⟩
  rw [layerCount_withColumns, hcount, layerCount_withColumns]

/-- The stages up to `withColumns` change nothing that `SameFlows` compares. -/
theorem sameFlows_columns (d : Diagram α) (config : Config α) (rounds : Nat) :
    ((d.withValues.withLayers config).withColumns config rounds).SameFlows d :=
  ((sameFlows_withColumns _ config rounds).trans (sameFlows_withLayers _ config)).trans
    d.sameFlows_withValues

/-- The stages up to `withColumns` keep `SameFlows`. -/
theorem SameFlows.columns (h : e.SameFlows d) (config : Config α) (rounds : Nat) :
    ((e.withValues.withLayers config).withColumns config rounds).SameFlows
      ((d.withValues.withLayers config).withColumns config rounds) :=
  ((e.sameFlows_columns config rounds).trans h).trans (d.sameFlows_columns config rounds).symm

/-- **Diagrams that are `SameFlows` are given the same values, layers and columns.** -/
theorem SameFlows.samePlaces (h : e.SameFlows d) (hd : d.WellFormed) (hac : Acyclic d.arcs)
    (config : Config α) (rounds : Nat) :
    ((e.withValues.withLayers config).withColumns config rounds).SamePlaces
      ((d.withValues.withLayers config).withColumns config rounds) := by
  have hwf := d.redraws_withValues.wellFormed hd
  rw [← d.redraws_withValues.arcs] at hac
  have hwf' := h.withValues.wellFormed hwf
  have hgraph := h.withValues.sameGraph
  have hunsized := hgraph.unsized_withLayers hwf' hwf hac h.withValues.name
    h.samePulls.value_withValues config
  exact (h.withValues.withLayers config).samePlaces_withColumns hunsized
    (hgraph.length_sweep hwf' hwf hac) config rounds

end Diagram

end SankeyDiagram
