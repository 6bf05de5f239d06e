import SankeyDiagram.Layout
import SankeyDiagram.Proofs.Sizing

/-! # What no stage changes

The stages of the layout, and moves of nodes after it, draw the same nodes and links again and
again. They change places and sizes, and the order of the links on a side of a node, but neither
names nor ends nor flows.

* **`Diagram.Redraws`** a diagram shows the nodes and links of another;
  **`Diagram.Redraws.wellFormed`** what belongs together there belongs together here.
* **`Diagram.redraws_of_flattened`**, **`Diagram.redraws_of_unslotted`** it does if the two differ
  in upper edges alone, or in slots alone.
* **`Diagram.redraws_withValues`**, **`Diagram.redraws_withLayers`**,
  **`Diagram.redraws_withColumns`**, **`Diagram.redraws_withSlots`**, **`Diagram.redraws_setTop`**
  every stage and every move redraws its diagram.
* **`Diagram.redraws_placed`** so does the whole layout. -/

namespace SankeyDiagram

variable {α : Type} [Scalar α]

/-- A link without its place in the drawing. -/
def Link.bare (l : Link α) : Link α := { l with dy := 0, sy := 0, ty := 0 }

namespace Diagram

/-- A diagram shows the nodes and links of another, maybe elsewhere. -/
structure Redraws (e d : Diagram α) : Prop where
  /-- `e` has as many nodes as `d`. -/
  size_nodes : e.nodes.size = d.nodes.size
  /-- Nodes have the same names. -/
  name : ∀ id, (e.node id).name = (d.node id).name
  /-- The sides of nodes have the same links, in some order. -/
  linksAt_perm : ∀ side id, ((e.node id).linksAt side).Perm ((d.node id).linksAt side)
  /-- Links are the same up to `Link.bare`, but for their places. -/
  links : e.links.map Link.bare = d.links.map Link.bare
  /-- `e` leaves out the flows that `d` leaves out. -/
  circularLinks : e.circularLinks = d.circularLinks
  /-- The roots are the same. -/
  roots : e.roots = d.roots

namespace Redraws

variable {d e f : Diagram α}

/-- If `e` redraws `d`, then `d` redraws `e`. -/
theorem symm (h : e.Redraws d) : d.Redraws e where
  size_nodes := h.size_nodes.symm
  name id := (h.name id).symm
  linksAt_perm side id := (h.linksAt_perm side id).symm
  links := h.links.symm
  circularLinks := h.circularLinks.symm
  roots := h.roots.symm

/-- If `f` redraws `e` and `e` redraws `d`, then `f` redraws `d`. -/
theorem trans (hfe : f.Redraws e) (hed : e.Redraws d) : f.Redraws d where
  size_nodes := hfe.size_nodes.trans hed.size_nodes
  name id := (hfe.name id).trans (hed.name id)
  linksAt_perm side id := (hfe.linksAt_perm side id).trans (hed.linksAt_perm side id)
  links := hfe.links.trans hed.links
  circularLinks := hfe.circularLinks.trans hed.circularLinks
  roots := hfe.roots.trans hed.roots

/-- `e` redraws `d` if each of its nodes has its name and its links, and the rest is the same. -/
theorem of_nodes (hsize : e.nodes.size = d.nodes.size)
    (hnode : ∀ id, d.hasNode id → (e.node id).name = (d.node id).name ∧
      ∀ side, ((e.node id).linksAt side).Perm ((d.node id).linksAt side))
    (hlinks : e.links.map Link.bare = d.links.map Link.bare)
    (hcircular : e.circularLinks = d.circularLinks) (hroots : e.roots = d.roots) :
    e.Redraws d := by
  refine ⟨hsize, fun id => ?_, fun side id => ?_, hlinks, hcircular, hroots⟩
  · by_cases hid : d.hasNode id
    · exact (hnode id hid).1
    · rw [node_eq_of_not_hasNode hsize hid]
  · by_cases hid : d.hasNode id
    · exact (hnode id hid).2 side
    · rw [node_eq_of_not_hasNode hsize hid]

/-! ### What is the same in a diagram that is redrawn -/

/-- `hasNode` is the same in a diagram that is redrawn. -/
theorem hasNode (h : e.Redraws d) (id : NodeId) : e.hasNode id = d.hasNode id := by
  rw [Diagram.hasNode, h.size_nodes, Diagram.hasNode]

/-- `nodeIds` are the same in a diagram that is redrawn. -/
theorem nodeIds (h : e.Redraws d) : e.nodeIds = d.nodeIds := by
  rw [Diagram.nodeIds, h.size_nodes, Diagram.nodeIds]

/-- A diagram that is redrawn has as many links. -/
theorem size_links (h : e.Redraws d) : e.links.size = d.links.size := by
  have hsize := congrArg Array.size h.links
  rwa [Array.size_map, Array.size_map] at hsize

/-- `hasLink` is the same in a diagram that is redrawn. -/
theorem hasLink (h : e.Redraws d) (l : LinkId) : e.hasLink l = d.hasLink l := by
  rw [Diagram.hasLink, h.size_links, Diagram.hasLink]

/-- A link that is redrawn is the same but for its thickness and its slots. -/
theorem bare_link (h : e.Redraws d) (l : LinkId) : (e.link l).bare = (d.link l).bare := by
  have hget := congrArg (fun links => links[l.index]?.getD (Link.bare (.unplaced ⟨0⟩ ⟨0⟩ 0 0)))
    h.links
  simpa only [link, Array.getD_eq_getD_getElem?, Array.getElem?_map, Option.getD_map] using hget

/-- A link that is redrawn keeps its ends. -/
theorem nearEnd (h : e.Redraws d) (side : Side) (l : LinkId) :
    (e.link l).nearEnd side = (d.link l).nearEnd side := by
  have hbare := congrArg (fun l => l.nearEnd side) (h.bare_link l)
  cases side <;> exact hbare

/-- A link that is redrawn keeps its value. -/
theorem value_link (h : e.Redraws d) (l : LinkId) : (e.link l).value = (d.link l).value := by
  have hbare := congrArg Link.value (h.bare_link l)
  exact hbare

/-- `arcs` are the same in a diagram that is redrawn. -/
theorem arcs (h : e.Redraws d) : e.arcs = d.arcs := by
  have hbare : ∀ d : Diagram α, d.arcs = (d.links.map Link.bare).toList.map Link.arc := by
    intro d
    rw [Diagram.arcs, Array.toList_map, List.map_map]
    rfl
  rw [hbare e, h.links, ← hbare d]

/-- A node that is redrawn is a source iff it was one. -/
theorem isSource (h : e.Redraws d) (id : NodeId) :
    (e.node id).isSource = (d.node id).isSource :=
  (h.linksAt_perm .incoming id).isEmpty_eq

/-- A node that is redrawn is a sink iff it was one. -/
theorem isSink (h : e.Redraws d) (id : NodeId) : (e.node id).isSink = (d.node id).isSink :=
  (h.linksAt_perm .outgoing id).isEmpty_eq

/-- `WellFormed` passes on to a diagram that redraws another. -/
theorem wellFormed (h : e.Redraws d) (hd : d.WellFormed) : e.WellFormed where
  below := by
    rw [h.size_nodes, h.arcs]
    exact hd.below
  mem_linksAt side id l := by
    rw [(h.linksAt_perm side id).mem_iff, hd.mem_linksAt, h.hasLink, h.nearEnd]
  nodup_linksAt side id := (h.linksAt_perm side id).nodup_iff.2 (hd.nodup_linksAt side id)
  nodup_arcs := by
    rw [h.arcs]
    exact hd.nodup_arcs
  roots_eq := by
    rw [h.roots, hd.roots_eq, h.nodeIds]
    exact List.filter_congr fun id _ => (h.isSource id).symm

/-- Nodes that are redrawn have the same names in the same order. -/
theorem map_name (h : e.Redraws d) :
    e.nodes.toList.map Node.name = d.nodes.toList.map Node.name := by
  apply List.ext_getElem
  · simpa using h.size_nodes
  · intro i hi hi'
    have hname := h.name ⟨i⟩
    rw [List.length_map, Array.length_toList] at hi hi'
    have hnode : e.node ⟨i⟩ = e.nodes[i] := e.node_of_lt hi
    have hnode' : d.node ⟨i⟩ = d.nodes[i] := d.node_of_lt hi'
    rw [hnode, hnode'] at hname
    simpa using hname

end Redraws

/-! ## Upper edges -/

section Flattened

variable {d e : Diagram α}

/-- `d.flattened` redraws `d`. -/
theorem redraws_flattened (d : Diagram α) : d.flattened.Redraws d := by
  refine Redraws.of_nodes (size_nodes_flattened d) (fun id _ => ?_) rfl rfl rfl
  rw [node_flattened]
  exact ⟨rfl, fun side => by cases side <;> exact List.Perm.refl _⟩

/-- Diagrams with one `flattened` redraw each other. -/
theorem redraws_of_flattened (h : e.flattened = d.flattened) : e.Redraws d := by
  have hd := d.redraws_flattened
  rw [← h] at hd
  exact e.redraws_flattened.symm.trans hd

/-- `setTop` redraws its diagram. -/
theorem redraws_setTop (d : Diagram α) (id : NodeId) (y : α) : (d.setTop id y).Redraws d :=
  redraws_of_flattened (flattened_setTop d id y)

end Flattened

end Diagram

/-! ## Slots -/

/-- A link with its slots at zero. -/
def Link.unslotted (l : Link α) : Link α := { l with sy := 0, ty := 0 }

namespace Diagram

section Unslotted

variable {d e : Diagram α}

/-- The diagram with the slots of all links at zero. -/
def unslotted (d : Diagram α) : Diagram α := { d with links := d.links.map Link.unslotted }

/-- `setSlot` changes nothing that `unslotted` shows. -/
@[simp] theorem unslotted_setSlot (d : Diagram α) (side : Side) (l : LinkId) (offset : α) :
    (d.setSlot side l offset).unslotted = d.unslotted := by
  have hlinks : (d.links.modify l.index (·.withSlotAt offset side)).map Link.unslotted
      = d.links.map Link.unslotted := by
    apply Array.ext
    · simp
    · intro i hi hi'
      rw [Array.getElem_map, Array.getElem_map, Array.getElem_modify]
      by_cases h : l.index = i
      · rw [if_pos h]
        cases side <;> rfl
      · rw [if_neg h]
  rw [unslotted, unslotted, setSlot]
  simp only [hlinks]

/-- `stacked` changes nothing that `unslotted` shows. -/
@[simp] theorem unslotted_stacked (d : Diagram α) (side : Side) (offset : α) (ids : List LinkId) :
    (d.stacked side offset ids).unslotted = d.unslotted := by
  induction ids generalizing d offset with
  | nil => rfl
  | cons l below ih => rw [stacked, ih, unslotted_setSlot]

/-- `withStacks` changes nothing that `unslotted` shows. -/
@[simp] theorem unslotted_withStacks (d : Diagram α) (n : Node α) :
    (d.withStacks n).unslotted = d.unslotted := by
  rw [withStacks, unslotted_stacked, unslotted_stacked]

/-- `withStacks` of any nodes, one after another, changes nothing that `unslotted` shows. -/
@[simp] theorem unslotted_foldl_withStacks (d : Diagram α) (nodes : List (Node α)) :
    (nodes.foldl withStacks d).unslotted = d.unslotted := by
  induction nodes generalizing d with
  | nil => rfl
  | cons n rest ih => rw [List.foldl_cons, ih, unslotted_withStacks]

/-- Behind `withLinkOrder`, `withSlots` changes nothing that `unslotted` shows. -/
theorem unslotted_withSlots (d : Diagram α) :
    d.withSlots.unslotted = d.withLinkOrder.unslotted :=
  unslotted_foldl_withStacks ..

/-- `d.unslotted.link l` is `d.link l` with its slots at zero. -/
theorem link_unslotted (d : Diagram α) (l : LinkId) :
    d.unslotted.link l = (d.link l).unslotted := by
  rw [link, link, unslotted, Array.getD_eq_getD_getElem?, Array.getD_eq_getD_getElem?,
    Array.getElem?_map]
  cases d.links[l.index]? <;> rfl

/-- Diagrams with one `unslotted` have links of the same thickness. -/
theorem dy_link_of_unslotted (h : e.unslotted = d.unslotted) (l : LinkId) :
    (e.link l).dy = (d.link l).dy := by
  have hlink := congrArg (fun d => (d.link l).dy) h
  simp only [link_unslotted] at hlink
  exact hlink

/-- Diagrams with one `unslotted` have the same nodes. -/
theorem node_of_unslotted (h : e.unslotted = d.unslotted) (id : NodeId) :
    e.node id = d.node id := by
  have hnode := congrArg (fun d => d.node id) h
  exact hnode

/-- `d.unslotted` redraws `d`. -/
theorem redraws_unslotted (d : Diagram α) : d.unslotted.Redraws d where
  size_nodes := rfl
  name _ := rfl
  linksAt_perm _ _ := List.Perm.refl _
  links := by simp [unslotted, Function.comp_def, Link.unslotted, Link.bare]
  circularLinks := rfl
  roots := rfl

/-- Diagrams with one `unslotted` redraw each other. -/
theorem redraws_of_unslotted (h : e.unslotted = d.unslotted) : e.Redraws d := by
  have hd := d.redraws_unslotted
  rw [← h] at hd
  exact e.redraws_unslotted.symm.trans hd

end Unslotted

/-! ## Stages -/

variable (d : Diagram α) (config : Config α) (rounds : Nat)

/-- `withValues` redraws its diagram. -/
theorem redraws_withValues : d.withValues.Redraws d := by
  refine Redraws.of_nodes (by simp [withValues]) (fun id hid => ?_) rfl rfl rfl
  rw [node_withValues d hid]
  exact ⟨rfl, fun side => by cases side <;> exact List.Perm.refl _⟩

/-- `withLayers` redraws its diagram. -/
theorem redraws_withLayers : (d.withLayers config).Redraws d := by
  refine Redraws.of_nodes (size_nodes_withLayers config) (fun id hid => ?_) rfl rfl rfl
  rw [node_withLayers config hid]
  exact ⟨rfl, fun side => by cases side <;> exact List.Perm.refl _⟩

/-- `withSizes` redraws its diagram. -/
theorem redraws_withSizes : (d.withSizes config).Redraws d := by
  refine Redraws.of_nodes (by simp [withSizes, scaled]) (fun id hid => ?_) ?_ rfl rfl
  · rw [node_withSizes d config hid]
    exact ⟨rfl, fun side => by cases side <;> exact List.Perm.refl _⟩
  · simp [withSizes, scaled, Function.comp_def, Link.bare]

/-- `withColumns` redraws its diagram. -/
theorem redraws_withColumns : (d.withColumns config rounds).Redraws d :=
  (redraws_of_flattened (d.flattened_withColumns config rounds)).trans (d.redraws_withSizes config)

/-- `withLinkOrder` puts the links on both sides of a node into the order `fromTopEnd`, and leaves
the rest. -/
theorem node_withLinkOrder (id : NodeId) :
    d.withLinkOrder.node id = { d.node id with
      outgoing := d.fromTopEnd .outgoing (d.node id).outgoing
      incoming := d.fromTopEnd .incoming (d.node id).incoming } := by
  by_cases hid : id.index < d.nodes.size
  · rw [node_of_lt _ (by simpa [withLinkOrder] using hid), d.node_of_lt hid]
    simp [withLinkOrder]
  · rw [node_of_not_lt _ (by simpa [withLinkOrder] using hid), d.node_of_not_lt hid]
    simp [Node.unplaced, fromTopEnd]

/-- `withLinkOrder` redraws its diagram. -/
theorem redraws_withLinkOrder : d.withLinkOrder.Redraws d := by
  refine Redraws.of_nodes (by simp [withLinkOrder]) (fun id _ => ?_) rfl rfl rfl
  rw [node_withLinkOrder]
  refine ⟨rfl, fun side => ?_⟩
  cases side <;> exact List.mergeSort_perm _ _

/-- `withSlots` puts the links on both sides of a node into the order `fromTopEnd`, and leaves the
rest. -/
theorem node_withSlots (id : NodeId) :
    d.withSlots.node id = { d.node id with
      outgoing := d.fromTopEnd .outgoing (d.node id).outgoing
      incoming := d.fromTopEnd .incoming (d.node id).incoming } := by
  rw [node_of_unslotted d.unslotted_withSlots, node_withLinkOrder]

/-- `withSlots` redraws its diagram. -/
theorem redraws_withSlots : d.withSlots.Redraws d :=
  (redraws_of_unslotted d.unslotted_withSlots).trans d.redraws_withLinkOrder

/-- **The whole layout, `placed`, redraws its diagram.** -/
theorem redraws_placed : (d.placed config rounds).Redraws d :=
  (((redraws_withSlots _).trans (redraws_withColumns _ config rounds)).trans
    (redraws_withLayers _ config)).trans d.redraws_withValues

/-- `ofFlowsPlaced` succeeds iff `ofFlows` does, and places its diagram. -/
theorem ofFlowsPlaced_eq_ok_iff {names : List String} {flows : List (Flow α)}
    {config : Config α} {rounds : Nat} {d : Diagram α} :
    ofFlowsPlaced names flows config rounds = .ok d
      ↔ ∃ first, ofFlows names flows = .ok first ∧ first.placed config rounds = d := by
  rw [ofFlowsPlaced]
  cases ofFlows names flows with
  | error reason => simp [Except.map]
  | ok first => simp [Except.map]

end Diagram

end SankeyDiagram
