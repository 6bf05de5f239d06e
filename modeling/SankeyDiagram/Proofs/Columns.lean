import Mathlib.Data.List.Forall2
import SankeyDiagram.Diagram.Columns
import SankeyDiagram.Proofs.Layering
import SankeyDiagram.Proofs.Packing

/-! # Columns of packed nodes

What the vertical placement leaves as it is, and where it puts the nodes of a layer in the end. No
pass does more than move upper edges and reorder layers, and the last thing that happens to a layer
is that its nodes are packed.

* **`Diagram.flattened`** a diagram without its upper edges; two diagrams differ in upper edges
  alone if they are the same then.
* **`Diagram.map_box_packed`** packing a layer puts its nodes where packing puts their boxes;
  **`Diagram.map_box_foldl_packed`** so does packing all layers.
* **`Columns.Arranges`** columns that hold the nodes of a diagram, moved up or down.
* **`Columns.Arranges.exists_settled`** the last step of any number of rounds settles columns.
* **`Diagram.exists_settled`** a diagram is placed as some columns are settled. -/

namespace SankeyDiagram

/-- Boxes are told by `Box.top` and `Box.height`. -/
theorem Box.eq_of_map {α : Type} {boxes others : List (Box α)}
    (htop : boxes.map top = others.map top) (hheight : boxes.map height = others.map height) :
    boxes = others := by
  induction boxes generalizing others with
  | nil =>
    rw [List.map_nil, eq_comm, List.map_eq_nil_iff] at htop
    rw [htop]
  | cons b below ih =>
    cases others with
    | nil => cases htop
    | cons c rest =>
      rw [List.map_cons, List.map_cons, List.cons.injEq] at htop hheight
      obtain ⟨top, height⟩ := b
      obtain ⟨top', height'⟩ := c
      obtain ⟨rfl, htop⟩ := htop
      obtain ⟨rfl, hheight⟩ := hheight
      rw [ih htop hheight]

variable {α : Type} [Scalar α]

namespace Diagram

variable {d e : Diagram α} {id other : NodeId} {y : α}

/-! ## Upper edges aside -/

/-- The diagram with the upper edges of all nodes at zero. -/
def flattened (d : Diagram α) : Diagram α :=
  { d with nodes := d.nodes.map fun n => { n with y := 0 } }

/-- `setTop` changes nothing that `flattened` shows. -/
@[simp] theorem flattened_setTop (d : Diagram α) (id : NodeId) (y : α) :
    (d.setTop id y).flattened = d.flattened := by
  have hnodes : (d.nodes.modify id.index fun n => { n with y }).map (fun n => { n with y := 0 })
      = d.nodes.map fun n => { n with y := 0 } := by
    apply Array.ext
    · simp
    · intro i hi hi'
      rw [Array.getElem_map, Array.getElem_map, Array.getElem_modify]
      by_cases h : id.index = i
      · rw [if_pos h]
      · rw [if_neg h]
  rw [flattened, flattened, setTop]
  simp only [hnodes]

/-- Steps that keep `flattened` keep it together. -/
theorem flattened_foldl {β : Type} {step : Diagram α → β → Diagram α}
    (h : ∀ d x, (step d x).flattened = d.flattened) (xs : List β) (d : Diagram α) :
    (xs.foldl step d).flattened = d.flattened := by
  induction xs generalizing d with
  | nil => rfl
  | cons x xs ih => rw [List.foldl_cons, ih, h]

/-- `setTops` changes nothing that `flattened` shows. -/
@[simp] theorem flattened_setTops (d : Diagram α) (moves : List (NodeId × α)) :
    (d.setTops moves).flattened = d.flattened := by
  apply flattened_foldl
  rintro d ⟨id, y⟩
  exact flattened_setTop d id y

/-- `packed` changes nothing that `flattened` shows. -/
@[simp] theorem flattened_packed (config : Config α) (d : Diagram α) (layer : List NodeId) :
    (packed config d layer).flattened = d.flattened :=
  flattened_setTops ..

/-- `pulled` changes nothing that `flattened` shows. -/
@[simp] theorem flattened_pulled (side : Side) (strength : α) (d : Diagram α) (id : NodeId) :
    (pulled side strength d id).flattened = d.flattened := by
  rw [pulled]
  split
  · exact flattened_setTop ..
  · rfl

/-- `relaxed` changes nothing that `flattened` shows. -/
@[simp] theorem flattened_relaxed (side : Side) (strength : α) (layers : List (List NodeId))
    (d : Diagram α) : (d.relaxed side strength layers).flattened = d.flattened :=
  flattened_foldl (fun d layer => flattened_foldl (flattened_pulled side strength) layer d) layers d

/-- `d.flattened` has as many nodes as `d`. -/
@[simp] theorem size_nodes_flattened (d : Diagram α) : d.flattened.nodes.size = d.nodes.size := by
  simp [flattened]

/-- `d.flattened.node id` is `d.node id` with its upper edge at zero. -/
theorem node_flattened (d : Diagram α) (id : NodeId) :
    d.flattened.node id = { d.node id with y := 0 } := by
  by_cases h : id.index < d.nodes.size
  · rw [node_of_lt _ (by simpa using h), d.node_of_lt h]
    simp [flattened]
  · rw [node_of_not_lt _ (by simpa using h), d.node_of_not_lt h]
    rfl

/-- Diagrams with one `flattened` have as many nodes. -/
theorem size_nodes_of_flattened (h : d.flattened = e.flattened) :
    d.nodes.size = e.nodes.size := by
  rw [← size_nodes_flattened d, h, size_nodes_flattened]

/-- Diagrams with one `flattened` have their nodes at the same positions. -/
theorem hasNode_of_flattened (h : d.flattened = e.flattened) (id : NodeId) :
    d.hasNode id = e.hasNode id := by
  rw [hasNode, size_nodes_of_flattened h, hasNode]

/-- Diagrams with one `flattened` have their nodes in the same layers. -/
theorem layer_node_of_flattened (h : d.flattened = e.flattened) (id : NodeId) :
    (d.node id).layer = (e.node id).layer := by
  have hnode := congrArg (fun d => (d.node id).layer) h
  simpa only [node_flattened] using hnode

/-- Diagrams with one `flattened` have nodes of the same heights. -/
theorem dy_of_flattened (h : d.flattened = e.flattened) (id : NodeId) :
    (d.node id).dy = (e.node id).dy := by
  have hnode := congrArg (fun d => (d.node id).dy) h
  simpa only [node_flattened] using hnode

/-- A node is told by its upper edge and by `flattened`. -/
theorem node_eq_of_flattened (h : d.flattened = e.flattened)
    (hy : (d.node id).y = (e.node id).y) : d.node id = e.node id := by
  have hnode := congrArg (fun d => d.node id) h
  simp only [node_flattened] at hnode
  have hback : ∀ n : Node α, n = { { n with y := 0 } with y := n.y } := fun _ => rfl
  rw [hback (d.node id), hback (e.node id), hnode, hy]

/-- Diagrams with one `flattened` report the same layers. -/
theorem warnings_of_flattened (h : d.flattened = e.flattened) : d.warnings = e.warnings := by
  show d.flattened.warnings = e.flattened.warnings
  rw [h]

/-- `d.layer k` holds the same nodes in all diagrams with one `flattened`. -/
theorem layer_of_flattened (h : d.flattened = e.flattened) (k : Nat) : d.layer k = e.layer k := by
  rw [layer, layer, nodeIds, nodeIds, size_nodes_of_flattened h]
  refine List.filter_congr fun id _ => ?_
  rw [layer_node_of_flattened h]

/-- `layerBound` is the same in all diagrams with one `flattened`. -/
theorem layerBound_of_flattened (h : d.flattened = e.flattened) : d.layerBound = e.layerBound := by
  refine eq_of_forall_ge_iff fun k => ?_
  rw [layerBound_le_iff, layerBound_le_iff]
  refine forall_congr' fun id => ?_
  rw [hasNode_of_flattened h, layer_node_of_flattened h]

/-- `layers` are the same in all diagrams with one `flattened`. -/
theorem layers_of_flattened (h : d.flattened = e.flattened) : d.layers = e.layers := by
  rw [layers, layers, layerBound_of_flattened h]
  exact List.map_congr_left fun k _ => layer_of_flattened h k

/-- `requiredHeight` is the same in all diagrams with one `flattened`. -/
theorem requiredHeight_of_flattened (h : d.flattened = e.flattened) (config : Config α)
    (layer : List NodeId) : d.requiredHeight config layer = e.requiredHeight config layer := by
  rw [requiredHeight, requiredHeight, List.map_congr_left fun id _ => dy_of_flattened h id]

/-- `layerWarnings` are the same in all diagrams with one `flattened`. -/
theorem layerWarnings_of_flattened (h : d.flattened = e.flattened) (config : Config α) :
    d.layerWarnings config = e.layerWarnings config := by
  rw [layerWarnings, layerWarnings, layers_of_flattened h]
  refine List.filterMap_congr fun p _ => ?_
  show d.layerWarning? config p.1 p.2 = e.layerWarning? config p.1 p.2
  simp only [layerWarning?, requiredHeight_of_flattened h]

/-! ## Packing a layer -/

/-- A node that is moved by `setTop` has its upper edge at `y`, and is the same otherwise. -/
theorem node_setTop_self (hid : d.hasNode id) :
    (d.setTop id y).node id = { d.node id with y } := by
  rw [hasNode_iff] at hid
  rw [node_of_lt _ (by simpa [setTop] using hid), d.node_of_lt hid]
  exact Array.getElem_modify_self ..

/-- `setTop` leaves the other nodes as they are. -/
theorem node_setTop_of_ne (h : other ≠ id) : (d.setTop id y).node other = d.node other := by
  have hne : id.index ≠ other.index := by
    intro heq
    exact h (congrArg NodeId.mk heq.symm)
  have hget : (d.setTop id y).nodes[other.index]? = d.nodes[other.index]? := by
    rw [setTop, Array.getElem?_modify, if_neg hne]
  rw [node, node, Array.getD_eq_getD_getElem?, Array.getD_eq_getD_getElem?, hget]

/-- `setTops` leaves a node that is not among `moves` as it is. -/
theorem node_setTops_of_not_mem {moves : List (NodeId × α)} (h : id ∉ moves.map Prod.fst) :
    (d.setTops moves).node id = d.node id := by
  induction moves generalizing d with
  | nil => rfl
  | cons move rest ih =>
    rw [List.map_cons, List.mem_cons, not_or] at h
    show ((d.setTop move.1 move.2).setTops rest).node id = d.node id
    rw [ih h.2, node_setTop_of_ne h.1]

/-- Nodes that `setTops` moves, each once, have their upper edges where they are moved to. -/
theorem map_y_setTops {layer : List NodeId} {tops : List α} (hnodup : layer.Nodup)
    (hnodes : ∀ id ∈ layer, d.hasNode id) (hlen : tops.length = layer.length) :
    layer.map (fun id => ((d.setTops (layer.zip tops)).node id).y) = tops := by
  induction layer generalizing d tops with
  | nil => exact (List.length_eq_zero_iff.1 hlen).symm
  | cons id rest ih =>
    cases tops with
    | nil => cases hlen
    | cons top tops =>
      rw [List.nodup_cons] at hnodup
      rw [List.forall_mem_cons] at hnodes
      have hlen : tops.length = rest.length := Nat.succ.inj hlen
      -- the first node is not moved again
      have hkept : id ∉ (rest.zip tops).map Prod.fst := by
        rw [List.map_fst_zip hlen.ge]
        exact hnodup.1
      have hmoved : ∀ id' ∈ rest, (d.setTop id top).hasNode id' := by
        intro id' hid'
        rw [hasNode_of_flattened (flattened_setTop d id top)]
        exact hnodes.2 id' hid'
      rw [List.zip_cons_cons, List.map_cons]
      show ((d.setTop id top).setTops (rest.zip tops) |>.node id).y
        :: rest.map (fun id' => (((d.setTop id top).setTops (rest.zip tops)).node id').y)
          = top :: tops
      rw [node_setTops_of_not_mem hkept, node_setTop_self hnodes.1, ih hnodup.2 hmoved hlen]

/-- The box of a node ends where the node does. -/
theorem bottom_box (d : Diagram α) (id : NodeId) : (d.box id).bottom = (d.node id).bottom := rfl

/-- Nodes that keep their heights, and have the upper edges of some boxes, have those boxes. -/
theorem map_box_eq {boxes : List (Box α)} {layer : List NodeId} (h : d.flattened = e.flattened)
    (htop : layer.map (fun id => (d.node id).y) = boxes.map Box.top)
    (hheight : layer.map (fun id => (e.node id).dy) = boxes.map Box.height) :
    layer.map d.box = boxes := by
  apply Box.eq_of_map
  · rw [← htop, List.map_map]
    rfl
  · rw [← hheight, List.map_map]
    exact List.map_congr_left fun id _ => dy_of_flattened h id

/-- `packed` puts the nodes of a layer where `Box.pack` puts their boxes. -/
theorem map_box_packed (config : Config α) (d : Diagram α) {layer : List NodeId}
    (hnodup : layer.Nodup) (hnodes : ∀ id ∈ layer, d.hasNode id) :
    layer.map (packed config d layer).box
      = Box.pack config.nodePadding config.height (layer.map d.box) := by
  have hlen : (d.packedTops config layer).length = layer.length := by simp [packedTops]
  apply map_box_eq (flattened_packed config d layer)
  · exact map_y_setTops hnodup hnodes hlen
  · rw [Box.map_height_pack, List.map_map]
    rfl

/-- `packed` leaves the nodes of other layers where they are. -/
theorem box_packed_of_not_mem (config : Config α) (d : Diagram α) {layer : List NodeId}
    (h : id ∉ layer) : (packed config d layer).box id = d.box id := by
  have hnode : (packed config d layer).node id = d.node id := by
    apply node_setTops_of_not_mem
    rw [List.map_fst_zip (by simp [packedTops])]
    exact h
  rw [box, hnode, box]

/-- Packing `layers` one after another leaves the nodes that are in none of them where they are. -/
theorem box_foldl_packed_of_not_mem (config : Config α) (d : Diagram α)
    {layers : List (List NodeId)} (h : ∀ layer ∈ layers, id ∉ layer) :
    (layers.foldl (packed config) d).box id = d.box id := by
  induction layers generalizing d with
  | nil => rfl
  | cons layer rest ih =>
    rw [List.forall_mem_cons] at h
    rw [List.foldl_cons, ih _ h.2, box_packed_of_not_mem config d h.1]

/-- Packing `layers` without common nodes puts the nodes of each where `Box.pack` puts their
boxes. -/
theorem map_box_foldl_packed (config : Config α) (d : Diagram α) {layers : List (List NodeId)}
    (hnodup : layers.flatten.Nodup) (hnodes : ∀ id ∈ layers.flatten, d.hasNode id)
    {layer : List NodeId} (hlayer : layer ∈ layers) :
    layer.map (layers.foldl (packed config) d).box
      = Box.pack config.nodePadding config.height (layer.map d.box) := by
  -- the first layer is packed where its nodes are, the others where the first one left them
  induction layers generalizing d with
  | nil => cases hlayer
  | cons first rest ih =>
    rw [List.flatten_cons, List.nodup_append'] at hnodup
    obtain ⟨hfirst, hrest, hdisjoint⟩ := hnodup
    rw [List.flatten_cons] at hnodes
    have hpacked := map_box_packed config d hfirst fun id hid =>
      hnodes id (List.mem_append_left _ hid)
    rw [List.foldl_cons]
    rcases List.mem_cons.1 hlayer with rfl | hmem
    · -- the layers that follow have none of its nodes
      rw [← hpacked]
      refine List.map_congr_left fun id hid => box_foldl_packed_of_not_mem config _ ?_
      intro later hlater hid'
      exact hdisjoint hid (List.mem_flatten.2 ⟨later, hlater, hid'⟩)
    · have hnodes' : ∀ id ∈ rest.flatten, (packed config d first).hasNode id := by
        intro id hid
        rw [hasNode_of_flattened (flattened_packed config d first)]
        exact hnodes id (List.mem_append_right _ hid)
      rw [ih _ hrest hnodes' hmem]
      refine congrArg _ (List.map_congr_left fun id hid => box_packed_of_not_mem config d ?_)
      intro hid'
      exact hdisjoint hid' (List.mem_flatten.2 ⟨layer, hmem, hid⟩)

end Diagram

/-! ## Rounds -/

namespace Columns

/-- Columns that hold the nodes of the layers of a diagram, which are moved up or down. -/
structure Arranges (c : Columns α) (d : Diagram α) : Prop where
  /-- `c.diagram` differs from `d` in upper edges alone. -/
  flattened : c.diagram.flattened = d.flattened
  /-- Every column rearranges a layer of `d`. -/
  perm : List.Forall₂ List.Perm c.layers d.layers

namespace Arranges

variable {c : Columns α} {d : Diagram α} (config : Config α) (strength : α)

/-- `d.columns` holds the nodes of the layers of `d`. -/
theorem columns (d : Diagram α) : d.columns.Arranges d where
  flattened := rfl
  perm := List.forall₂_same.2 fun layer _ => List.Perm.refl layer

/-- `settled` keeps the nodes of columns, and all of a diagram but upper edges. -/
theorem settled (h : c.Arranges d) : (c.settled config).Arranges d where
  flattened := by
    rw [← h.flattened]
    exact Diagram.flattened_foldl (Diagram.flattened_packed config) _ _
  perm := by
    rw [Columns.settled, List.forall₂_map_left_iff]
    exact h.perm.imp fun column layer hperm => (List.mergeSort_perm _ _).trans hperm

/-- `relaxedLeftward` keeps columns, and all of a diagram but upper edges. -/
theorem relaxedLeftward (h : c.Arranges d) : (c.relaxedLeftward strength).Arranges d where
  flattened := (Diagram.flattened_relaxed ..).trans h.flattened
  perm := h.perm

/-- `relaxedRightward` keeps columns, and all of a diagram but upper edges. -/
theorem relaxedRightward (h : c.Arranges d) : (c.relaxedRightward strength).Arranges d where
  flattened := (Diagram.flattened_relaxed ..).trans h.flattened
  perm := h.perm

/-- Columns that arrange a diagram hold every node once. -/
theorem flatten_perm (h : c.Arranges d) : c.layers.flatten.Perm c.diagram.nodeIds := by
  have hflatten : c.layers.flatten.Perm d.layers.flatten := List.Perm.flatten_congr h.perm
  have hids : d.nodeIds = c.diagram.nodeIds := by
    rw [Diagram.nodeIds, Diagram.nodeIds, Diagram.size_nodes_of_flattened h.flattened]
  rw [← hids]
  exact hflatten.trans d.flatten_layers_perm

/-- After any number of rounds columns are settled: the last step of a round is `settled`, and so is
the step before the first. -/
theorem exists_settled (h : c.Arranges d) (rounds : Nat) :
    ∃ last : Columns α, last.Arranges d ∧
      (c.settled config).relaxed config rounds strength = last.settled config := by
  -- a round ends as it begins, with columns that are settled, so the next one takes it from there
  induction rounds generalizing c strength with
  | zero => exact ⟨c, h, rfl⟩
  | succ rounds ih =>
    have hlast := (((h.settled config).relaxedLeftward (strength * decay)).settled
      config).relaxedRightward (strength * decay)
    exact ih (strength * decay) hlast

/-- The nodes of a settled column are those of its layer, and stand where `Box.pack` puts them. -/
theorem exists_packed (h : c.Arranges d) {k : Nat} (hk : k < d.layerBound) :
    ∃ order : List NodeId, order.Perm (d.layer k) ∧
      order.map (c.settled config).diagram.box
        = Box.pack config.nodePadding config.height (order.map c.diagram.box) := by
  have hsettled := h.settled config
  have hlen : k < (c.settled config).layers.length := by
    rw [hsettled.perm.length_eq, Diagram.length_layers]
    exact hk
  obtain ⟨hlen', hlayer⟩ := List.getElem_of_getElem? (Diagram.getElem?_layers.2 ⟨hk, rfl⟩)
  have hflatten := hsettled.flatten_perm
  refine ⟨(c.settled config).layers[k], ?_, ?_⟩
  · -- a settled column holds the nodes of the layer at its position
    have hperm := hsettled.perm.get hlen hlen'
    rw [List.get_eq_getElem, List.get_eq_getElem, hlayer] at hperm
    exact hperm
  · apply Diagram.map_box_foldl_packed
    · exact hflatten.nodup_iff.2 (Diagram.nodup_nodeIds _)
    · intro id hid
      rw [Diagram.hasNode_of_flattened (h.flattened.trans hsettled.flattened.symm)]
      exact Diagram.mem_nodeIds.1 (hflatten.mem_iff.1 hid)
    · exact List.getElem_mem hlen

end Arranges

end Columns

namespace Diagram

/-- `d.withColumns config rounds` is the diagram of some columns of `d.withSizes config`, once they
are settled. -/
theorem exists_settled (d : Diagram α) (config : Config α) (rounds : Nat) :
    ∃ c : Columns α, c.Arranges (d.withSizes config) ∧
      d.withColumns config rounds = (c.settled config).diagram := by
  obtain ⟨c, hc, heq⟩ :=
    (Columns.Arranges.columns (d.withSizes config)).exists_settled config 1 rounds
  exact ⟨c, hc, congrArg Columns.diagram heq⟩

/-- `withColumns` gives a diagram the sizes of `withSizes`, and moves upper edges. -/
theorem flattened_withColumns (d : Diagram α) (config : Config α) (rounds : Nat) :
    (d.withColumns config rounds).flattened = (d.withSizes config).flattened := by
  obtain ⟨c, hc, heq⟩ := d.exists_settled config rounds
  rw [heq]
  exact (hc.settled config).flattened

/-- `withColumns` reports the layers that `withSizes` reports, before the first round. -/
theorem warnings_withColumns (d : Diagram α) (config : Config α) (rounds : Nat) :
    (d.withColumns config rounds).warnings = (d.withSizes config).warnings :=
  warnings_of_flattened (d.flattened_withColumns config rounds)

end Diagram

end SankeyDiagram
