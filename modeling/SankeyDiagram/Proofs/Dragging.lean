import SankeyDiagram.Proofs.TieOrder

/-! # Dragging a node

A node is moved, and links are put into order again. This sorts and stacks the links of all nodes
anew, and still it acts locally if links were in order before: on a side of a node from which no
link leads to the moved one, nothing that links are sorted by has changed, so they stay where they
are.

* **`Action.isStacking`** what puts links into order; **`Session.IsNew.exists_stacked`** after it
  there is a diagram in which they are.
* **`Diagram.DragOf`** what a drag leaves as it is.
* **`Session.performAll_drag`** so it does in any session whose links were put into order last. -/

namespace SankeyDiagram

variable {α : Type} [Scalar α]

/-! ## Links in order -/

/-- Whether an action puts links into order, if it succeeds. -/
def Action.isStacking : Action α → Bool
  | .layout _ | .layoutConfigured | .relayout => true
  | .configure _ | .setFlows .. | .moveNode .. => false

namespace Session

variable {s next s₀ : Session α} {a : Action α} {actions : List (Action α)}

/-- An action with `isStacking` that does not fail leaves a diagram with `d.withSlots = d`. -/
theorem Effect.exists_stacked (h : s.Effect a next none) (ha : a.isStacking) :
    ∃ d, next.diagram = some d ∧ d.withSlots = d := by
  cases h with
  | configured | given | moved => cases ha
  | laidOut | restacked => exact ⟨_, rfl, Diagram.withSlots_withSlots _⟩

/-- After an action with `isStacking`, the diagram is `Sound`, whatever was done before. -/
theorem IsNew.exists_stacked (h : s₀.IsNew) (ha : a.isStacking)
    (hs : (s₀.performAll actions).perform a = (s, none)) :
    ∃ d, s.diagram = some d ∧ d.withSlots = d ∧ d.Sound s.names := by
  have heffect := perform_effect (s₀.performAll actions) a
  have hsound := performAll_shows kept_sound h.shows (actions ++ [a])
  rw [performAll_append_singleton] at hsound
  rw [hs] at heffect hsound
  obtain ⟨d, hd, hstacked⟩ := heffect.exists_stacked ha
  exact ⟨d, hd, hstacked, hsound d hd⟩

end Session

/-! ## Drags -/

/-- The arc of a link on a side of a node that leads to another. -/
def Side.arc (side : Side) (near far : NodeId) : Arc :=
  match side with
  | .outgoing => (near, far)
  | .incoming => (far, near)

/-- A link is told by its slots and by `Link.unslotted`. -/
theorem Link.eq_withSlots_of_unslotted {l m : Link α} (h : l.unslotted = m.unslotted) :
    l = { m with sy := l.sy, ty := l.ty } :=
  Link.eq_of_unslotted h fun side => by cases side <;> rfl

namespace Diagram

variable {d : Diagram α} {side : Side} {id n : NodeId} {l : LinkId}

/-- A link beside `n` joins it to its far end, by an arc of `d`. -/
theorem WellFormed.arc_mem_arcs (h : d.WellFormed) (hl : l ∈ (d.node n).linksAt side) :
    side.arc n ((d.link l).farEnd side) ∈ d.arcs := by
  obtain ⟨hlink, rfl⟩ := (h.mem_linksAt side n l).1 hl
  cases side <;> exact mem_arcs_iff_exists_link.2 ⟨l, hlink, rfl, rfl⟩

/-- A diagram is what another becomes when a node is moved: nothing is different but the upper edge
of this node, and the order and the slots of links where some of them lead to it. -/
structure DragOf (e d : Diagram α) (id : NodeId) (y : α) : Prop where
  /-- Nodes are the same but for the upper edge of the one that is moved and the order of links. -/
  node : ∀ n, e.node n = { d.node n with
    y := if n = id then y else (d.node n).y
    outgoing := (e.node n).outgoing
    incoming := (e.node n).incoming }
  /-- The sides of nodes have the same links, in some order. -/
  linksAt_perm : ∀ side n, ((e.node n).linksAt side).Perm ((d.node n).linksAt side)
  /-- Links are the same but for `sy` and `ty`. -/
  link : ∀ l, e.link l = { d.link l with sy := (e.link l).sy, ty := (e.link l).ty }
  /-- On a side of a node from which no link leads to the moved one, links are in the order and in
  the slots that they were in. -/
  untouched : ∀ side n, side.arc n id ∉ d.arcs →
    (e.node n).linksAt side = (d.node n).linksAt side ∧
      ∀ l ∈ (d.node n).linksAt side, (e.link l).slotAt side = (d.link l).slotAt side
  /-- `e` has as many nodes as `d`. -/
  size_nodes : e.nodes.size = d.nodes.size
  /-- `e` has as many links as `d`. -/
  size_links : e.links.size = d.links.size
  /-- `e` leaves out the flows that `d` leaves out. -/
  circularLinks : e.circularLinks = d.circularLinks
  /-- The roots are the same. -/
  roots : e.roots = d.roots
  /-- `e` has as many layers as `d`. -/
  layerCount : e.layerCount = d.layerCount
  /-- `e` reports the layers that `d` reports. -/
  warnings : e.warnings = d.warnings

/-- `setTop id y` leaves `farCenter` of the links that do not lead to `id`. -/
theorem farCenter_setTop_of_ne (h : (d.link l).farEnd side ≠ id) (y : α) :
    (d.setTop id y).farCenter side l = d.farCenter side l := by
  have hnode : (d.setTop id y).node ((d.link l).farEnd side) = d.node ((d.link l).farEnd side) :=
    node_setTop_of_ne h
  exact congrArg Node.center hnode

/-- Where no link leads to `id`, links that were in order stay so after `setTop id y`. -/
theorem linksAt_withSlots_setTop (hd : d.WellFormed) (hstacked : d.withSlots = d)
    (hn : side.arc n id ∉ d.arcs) (y : α) :
    ((d.setTop id y).withSlots.node n).linksAt side = (d.node n).linksAt side := by
  have hlinks : ((d.setTop id y).node n).linksAt side = (d.node n).linksAt side :=
    linksAt_of_flattened (flattened_setTop d id y) side n
  -- sorting reads no place of the moved node here, so it finds what it found the last time
  have horder := linksAt_withSlots_congr hlinks fun l hl => by
    refine farCenter_setTop_of_ne (fun hfar => hn ?_) y
    rw [← hfar]
    exact hd.arc_mem_arcs hl
  rwa [hstacked] at horder

/-- Where no link leads to `id`, links stay in their slots after `setTop id y`, as no link above
them has changed. -/
theorem slotAt_withSlots_setTop (hd : d.WellFormed) (hstacked : d.withSlots = d)
    (hn : side.arc n id ∉ d.arcs) (y : α) (hl : l ∈ (d.node n).linksAt side) :
    ((d.setTop id y).withSlots.link l).slotAt side = (d.link l).slotAt side := by
  have hinStacks := hd.inStacks_withSlots
  rw [hstacked] at hinStacks
  have hmoved := ((redraws_setTop d id y).wellFormed hd).inStacks_withSlots
  exact hmoved.slotAt_eq hinStacks (d.setTop id y).samePlaces_withSlots.dy_link
    (linksAt_withSlots_setTop hd hstacked hn y) hl

/-- If `d.withSlots = d`, then `(d.setTop id y).withSlots` is a `DragOf` of `d`. -/
theorem dragOf_withSlots (hd : d.WellFormed) (hstacked : d.withSlots = d) (hid : d.hasNode id)
    (y : α) : (d.setTop id y).withSlots.DragOf d id y := by
  have hdraw := (d.setTop id y).redraws_withSlots.trans (redraws_setTop d id y)
  have hplaces := (d.setTop id y).samePlaces_withSlots
  exact {
    node := fun n => by
      rw [node_withSlots]
      by_cases hn : n = id
      · subst hn
        rw [node_setTop_self hid, if_pos rfl]
      · rw [node_setTop_of_ne hn, if_neg hn]
    linksAt_perm := hdraw.linksAt_perm
    link := fun l =>
      Link.eq_withSlots_of_unslotted (unslotted_of_unstacked (unstacked_withSlots _) l)
    untouched := fun side n hn => ⟨linksAt_withSlots_setTop hd hstacked hn y,
      fun l hl => slotAt_withSlots_setTop hd hstacked hn y hl⟩
    size_nodes := hdraw.size_nodes
    size_links := hdraw.size_links
    circularLinks := hdraw.circularLinks
    roots := hdraw.roots
    layerCount := hplaces.layerCount
    warnings := hplaces.warnings }

end Diagram

/-! ## Drags in sessions -/

namespace Session

/-- **A drag right after links were put into order acts locally: by `DragOf` it moves one node,
sorts and stacks links on sides from which some lead to this node, and changes nothing else, in the
diagram or in the session.** This is so wherever the node goes, to where no number tells too. -/
theorem performAll_drag {s₀ s : Session α} (h : s₀.IsNew) {actions : List (Action α)}
    {a : Action α} (ha : a.isStacking) (hs : (s₀.performAll actions).perform a = (s, none)) :
    ∃ d, s.diagram = some d ∧ ∀ id, d.hasNode id → ∀ y, ∃ moved e,
      s.moveNode id y = (moved, .ok ()) ∧
        moved.relayout = ({ s with diagram := some e }, .ok e) ∧ e.DragOf d id y := by
  obtain ⟨d, hd, hstacked, hsound⟩ := h.exists_stacked ha hs
  refine ⟨d, hd, fun id hid y => ?_⟩
  have hmove : s.moveNode id y = ({ s with diagram := some (d.setTop id y) }, .ok ()) := by
    rw [moveNode, hd]
    exact if_pos hid
  exact ⟨_, _, hmove, rfl, Diagram.dragOf_withSlots hsound.wellFormed hstacked hid y⟩

/-- An end of the fan is dragged to where no number tells. -/
theorem performAll_drag_fan :
    ∃ (laid : Session Binary64) (d : Diagram Binary64),
      (standard.performAll [.setFlows fanNames fanFlows]).perform (.layout 0) = (laid, none) ∧
      laid.diagram = some d ∧ d.hasNode ⟨1⟩ ∧ ∃ moved e, laid.moveNode ⟨1⟩ .nan = (moved, .ok ()) ∧
        moved.relayout = ({ laid with diagram := some e }, .ok e) ∧ e.DragOf d ⟨1⟩ .nan := by
  obtain ⟨laid, first, hlayout, hfirst, -⟩ := exists_fan_layout
  have hlaid : (standard.performAll [.setFlows fanNames fanFlows]).perform (.layout 0)
      = (laid, none) := congrArg toOutcome hlayout
  have hnodes : first.hasNode ⟨1⟩ := by
    obtain ⟨base, hbase, rfl, -⟩ := exists_of_layout hlayout
    have hsize := (Diagram.wellFormed_ofFlows hbase).1
    rw [(base.redraws_placed _ 0).hasNode, Diagram.hasNode_iff, hsize]
    decide
  obtain ⟨d, hd, hdrag⟩ := performAll_drag (Or.inl rfl) rfl hlaid
  obtain rfl : first = d := Option.some.inj (hfirst.symm.trans hd)
  exact ⟨laid, first, hlaid, hfirst, hnodes, hdrag ⟨1⟩ hnodes .nan⟩

end Session

end SankeyDiagram
