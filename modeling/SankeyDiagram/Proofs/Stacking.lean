import Mathlib.Algebra.BigOperators.Ring.List
import SankeyDiagram.Proofs.Redrawing
import SankeyDiagram.Proofs.Session

/-! # Stacks of links

Where links stand on the sides of nodes. Each link is written twice, once on either side, and
starts where the links before it end.

* **`Diagram.thickness`** the height of some links one below the other.
* **`Diagram.InStacks`** links start as far down as the links before them are thick;
  **`Diagram.WellFormed.inStacks_withSlots`** the last stage brings this about.
* **`Diagram.Balanced`** heights of nodes and thicknesses of links agree.
* **`Diagram.Tiled`** links tile the sides of their nodes.
* **`Session.layout_tiled`** they do in what a layout returns, and again after edits. -/

namespace SankeyDiagram

variable {α : Type}

namespace Link

variable {side other : Side}

/-- A slot that is written on a side is read there. -/
@[simp] theorem slotAt_withSlotAt_self (l : Link α) (offset : α) (side : Side) :
    (l.withSlotAt offset side).slotAt side = offset := by
  cases side <;> rfl

/-- A slot that is written on a side is not read on the other. -/
theorem slotAt_withSlotAt_of_ne (l : Link α) (offset : α) (h : other ≠ side) :
    (l.withSlotAt offset side).slotAt other = l.slotAt other := by
  cases side with
  | outgoing =>
    cases other with
    | outgoing => exact absurd rfl h
    | incoming => rfl
  | incoming =>
    cases other with
    | outgoing => rfl
    | incoming => exact absurd rfl h

end Link

variable [Scalar α]

namespace Diagram

/-- The height that some links take up one directly below the other. -/
def thickness (d : Diagram α) (ids : List LinkId) : α :=
  (ids.map fun l => (d.link l).dy).foldl (· + ·) 0

/-- Links start as far down the sides of their nodes as the links before them are thick. -/
def InStacks (d : Diagram α) : Prop :=
  ∀ side id before l after, (d.node id).linksAt side = before ++ l :: after →
    (d.link l).slotAt side = d.thickness before

section Slots

variable {d e : Diagram α} {side other : Side} {l m : LinkId} {id : NodeId} {offset : α}
  {ids before after : List LinkId}

/-- `thickness` is told by the thickness of every link. -/
theorem thickness_congr (h : ∀ l, (e.link l).dy = (d.link l).dy) (ids : List LinkId) :
    e.thickness ids = d.thickness ids := by
  rw [thickness, thickness, List.map_congr_left fun l _ => h l]

/-- `thickness` is the same in all diagrams with one `unslotted`. -/
theorem thickness_of_unslotted (h : e.unslotted = d.unslotted) (ids : List LinkId) :
    e.thickness ids = d.thickness ids :=
  thickness_congr (dy_link_of_unslotted h) ids

/-! ## One link -/

/-- `setSlot` writes the slot of its link. -/
theorem link_setSlot_self (hl : d.hasLink l) :
    (d.setSlot side l offset).link l = (d.link l).withSlotAt offset side := by
  rw [hasLink_iff] at hl
  rw [link_of_lt _ (by simpa [setSlot] using hl), d.link_of_lt hl]
  exact Array.getElem_modify_self ..

/-- `setSlot` leaves the other links as they are. -/
theorem link_setSlot_of_ne (h : m ≠ l) : (d.setSlot side l offset).link m = d.link m := by
  have hne : l.index ≠ m.index := by
    intro heq
    exact h (congrArg LinkId.mk heq.symm)
  have hget : (d.setSlot side l offset).links[m.index]? = d.links[m.index]? := by
    rw [setSlot, Array.getElem?_modify, if_neg hne]
  rw [link, link, Array.getD_eq_getD_getElem?, Array.getD_eq_getD_getElem?, hget]

/-- `setSlot` leaves the slots on the other side as they are. -/
theorem slotAt_setSlot_of_ne (h : other ≠ side) :
    ((d.setSlot side m offset).link l).slotAt other = (d.link l).slotAt other := by
  by_cases hlm : l = m
  · subst hlm
    by_cases hl : d.hasLink l
    · rw [link_setSlot_self hl, Link.slotAt_withSlotAt_of_ne _ _ h]
    · rw [hasLink_iff] at hl
      simp [link, setSlot, Array.getD, hl]
  · rw [link_setSlot_of_ne hlm]

/-! ## One stack -/

/-- `stacked` leaves the links that are not in the stack as they are. -/
theorem link_stacked_of_notMem (h : l ∉ ids) : (d.stacked side offset ids).link l = d.link l := by
  induction ids generalizing d offset with
  | nil => rfl
  | cons m below ih =>
    rw [List.mem_cons, not_or] at h
    rw [stacked, ih h.2, link_setSlot_of_ne h.1]

/-- `stacked` leaves the slots on the other side as they are. -/
theorem slotAt_stacked_of_ne (h : other ≠ side) :
    ((d.stacked side offset ids).link l).slotAt other = (d.link l).slotAt other := by
  induction ids generalizing d offset with
  | nil => rfl
  | cons m below ih => rw [stacked, ih, slotAt_setSlot_of_ne h]

/-- In a stack a link starts where those before it end: at `offset` and their thickness, added one
after another. -/
theorem slotAt_stacked (hl : d.hasLink l) (hnodup : (before ++ l :: after).Nodup) :
    ((d.stacked side offset (before ++ l :: after)).link l).slotAt side
      = (before.map fun m => (d.link m).dy).foldl (· + ·) offset := by
  -- the offset grows by each link passed, and the later links do not write on the one reached
  induction before generalizing d offset with
  | nil =>
    rw [List.nil_append, List.nodup_cons] at hnodup
    rw [List.nil_append, stacked, link_stacked_of_notMem hnodup.1, link_setSlot_self hl,
      Link.slotAt_withSlotAt_self]
    rfl
  | cons m before ih =>
    rw [List.cons_append, List.nodup_cons] at hnodup
    have hkeep : (d.setSlot side m offset).unslotted = d.unslotted := unslotted_setSlot ..
    have hl' : (d.setSlot side m offset).hasLink l := by
      rwa [(redraws_of_unslotted hkeep).hasLink]
    rw [List.cons_append, stacked, ih hl' hnodup.2, List.map_cons, List.foldl_cons,
      List.map_congr_left fun m _ => dy_link_of_unslotted hkeep m]

/-! ## Both stacks of a node -/

/-- `withStacks` stacks the links on one side of a node, and then those on the other. -/
theorem withStacks_eq (d : Diagram α) (n : Node α) :
    d.withStacks n = (d.stacked .outgoing 0 (n.linksAt .outgoing)).stacked .incoming 0
      (n.linksAt .incoming) := rfl

/-- `withStacks` leaves the slots of links that do not stand on the side as they are. -/
theorem slotAt_withStacks_of_notMem {n : Node α} (h : l ∉ n.linksAt side) :
    ((d.withStacks n).link l).slotAt side = (d.link l).slotAt side := by
  rw [withStacks_eq]
  cases side with
  | outgoing => rw [slotAt_stacked_of_ne (by decide), link_stacked_of_notMem h]
  | incoming => rw [link_stacked_of_notMem h, slotAt_stacked_of_ne (by decide)]

/-- `withStacks` starts a link at `d.thickness before`, where `before` stand before it. -/
theorem slotAt_withStacks {n : Node α} (hl : d.hasLink l)
    (hids : n.linksAt side = before ++ l :: after) (hnodup : (n.linksAt side).Nodup) :
    ((d.withStacks n).link l).slotAt side = d.thickness before := by
  rw [hids] at hnodup
  rw [withStacks_eq]
  cases side with
  | outgoing => rw [slotAt_stacked_of_ne (by decide), hids, slotAt_stacked hl hnodup, thickness]
  | incoming =>
    -- the links that leave were stacked before, which made none of them thicker
    have hkeep : (d.stacked .outgoing 0 (n.linksAt .outgoing)).unslotted = d.unslotted :=
      unslotted_stacked ..
    have hl' : (d.stacked .outgoing 0 (n.linksAt .outgoing)).hasLink l := by
      rwa [(redraws_of_unslotted hkeep).hasLink]
    rw [hids, slotAt_stacked hl' hnodup, ← thickness, thickness_of_unslotted hkeep]

/-! ## All stacks -/

/-- `withStacks` of nodes without a link on the side leaves its slot as it is. -/
theorem slotAt_foldl_withStacks_of_notMem {nodes : List (Node α)}
    (h : ∀ n ∈ nodes, l ∉ n.linksAt side) :
    ((nodes.foldl withStacks d).link l).slotAt side = (d.link l).slotAt side := by
  induction nodes generalizing d with
  | nil => rfl
  | cons n rest ih =>
    rw [List.forall_mem_cons] at h
    rw [List.foldl_cons, ih h.2, slotAt_withStacks_of_notMem h.1]

/-- A link stands on a side of one node alone. -/
theorem WellFormed.notMem_linksAt (h : d.WellFormed) (hmem : l ∈ (d.node id).linksAt side)
    {other : NodeId} (hne : other ≠ id) : l ∉ (d.node other).linksAt side := by
  intro hother
  have hend := ((h.mem_linksAt side id l).1 hmem).2
  exact hne (((h.mem_linksAt side other l).1 hother).2.symm.trans hend)

/-- After `withSlots` links are `InStacks`. -/
theorem WellFormed.inStacks_withSlots (h : d.WellFormed) : d.withSlots.InStacks := by
  intro side id before l after hids
  have hkeep := d.unslotted_withSlots
  rw [node_of_unslotted hkeep] at hids
  rw [thickness_of_unslotted hkeep, withSlots]
  generalize hordered : d.withLinkOrder = o at hids ⊢
  have hwf : o.WellFormed := hordered ▸ d.redraws_withLinkOrder.wellFormed h
  have hmem : l ∈ (o.node id).linksAt side := by simp [hids]
  have hl := ((hwf.mem_linksAt side id l).1 hmem).1
  have hid : id.index < o.nodes.size := by
    by_contra hlt
    rw [node_of_not_lt _ hlt, Node.linksAt_unplaced] at hmem
    cases hmem
  have hsplit : o.nodes.toList
      = o.nodes.toList.take id.index ++ o.node id :: o.nodes.toList.drop (id.index + 1) := by
    rw [node_of_lt _ hid, ← Array.getElem_toList, List.cons_getElem_drop_succ,
      List.take_append_drop]
  -- the stacks of later nodes do not hold the link
  have hlater : ∀ n ∈ o.nodes.toList.drop (id.index + 1), l ∉ n.linksAt side := by
    intro n hn
    obtain ⟨j, hj, rfl⟩ := List.getElem_of_mem hn
    rw [List.length_drop, Array.length_toList] at hj
    have hj' : id.index + 1 + j < o.nodes.size := by omega
    have hnode : o.node ⟨id.index + 1 + j⟩ = o.nodes[id.index + 1 + j] := node_of_lt _ hj'
    rw [List.getElem_drop, Array.getElem_toList, ← hnode]
    refine hwf.notMem_linksAt hmem fun heq => ?_
    have hindex := congrArg NodeId.index heq
    have hne : id.index + 1 + j ≠ id.index := by omega
    exact hne hindex
  have hfirst := unslotted_foldl_withStacks o (o.nodes.toList.take id.index)
  show ((o.nodes.toList.foldl withStacks o).link l).slotAt side = _
  rw [hsplit, List.foldl_append, List.foldl_cons, slotAt_foldl_withStacks_of_notMem hlater,
    slotAt_withStacks (by rwa [(redraws_of_unslotted hfirst).hasLink]) hids
      (hwf.nodup_linksAt side id), thickness_of_unslotted hfirst]

end Slots

/-! ## Exact thicknesses -/

section Exact

variable {d e : Diagram Rat}

/-- In exact numbers `thickness` is the sum of the thickness of links. -/
theorem thickness_rat (d : Diagram Rat) (ids : List LinkId) :
    d.thickness ids = (ids.map fun l => (d.link l).dy).sum := by
  rw [thickness, List.sum_eq_foldl]

/-- The thickness of `first ++ later` is that of `first` and that of `later`. -/
theorem thickness_append (d : Diagram Rat) (first later : List LinkId) :
    d.thickness (first ++ later) = d.thickness first + d.thickness later := by
  rw [thickness_rat, thickness_rat, thickness_rat, List.map_append, List.sum_append]

/-- The thickness of one link is its own. -/
theorem thickness_singleton (d : Diagram Rat) (l : LinkId) : d.thickness [l] = (d.link l).dy := by
  rw [thickness_rat, List.map_singleton, List.sum_singleton]

/-- `thickness` is not below zero if no link is thinner than nothing. -/
theorem thickness_nonneg (h : ∀ l, 0 ≤ (d.link l).dy) (ids : List LinkId) :
    0 ≤ d.thickness ids := by
  rw [thickness_rat]
  refine List.sum_nonneg fun dy hdy => ?_
  obtain ⟨l, -, rfl⟩ := List.mem_map.1 hdy
  exact h l

/-- `thickness` does not depend on the order of links. -/
theorem thickness_perm {ids other : List LinkId} (h : ids.Perm other) :
    d.thickness ids = d.thickness other := by
  rw [thickness_rat, thickness_rat]
  exact (h.map _).sum_eq

/-! ## Heights of nodes -/

/-- Links belong to their nodes, and no node is higher or lower than the thicker of the stacks on
its two sides. -/
structure Balanced (d : Diagram Rat) : Prop where
  /-- Nodes and links belong together. -/
  wellFormed : d.WellFormed
  /-- No link is thinner than nothing. -/
  dy_link_nonneg : ∀ l, 0 ≤ (d.link l).dy
  /-- A node is as high as the links on its thicker side. -/
  dy_node_eq : ∀ id, (d.node id).dy
    = max (d.thickness (d.node id).outgoing) (d.thickness (d.node id).incoming)

/-- `Balanced` passes on to a diagram that is redrawn in the same sizes. -/
theorem Balanced.of_redraws (hd : d.Balanced) (h : e.Redraws d)
    (hnode : ∀ id, (e.node id).dy = (d.node id).dy)
    (hlink : ∀ l, (e.link l).dy = (d.link l).dy) : e.Balanced where
  wellFormed := h.wellFormed hd.wellFormed
  dy_link_nonneg l := by
    rw [hlink]
    exact hd.dy_link_nonneg l
  dy_node_eq id := by
    rw [hnode, hd.dy_node_eq, thickness_congr hlink, thickness_congr hlink]
    exact congrArg₂ max (thickness_perm (h.linksAt_perm .outgoing id).symm)
      (thickness_perm (h.linksAt_perm .incoming id).symm)

/-- `setTop` keeps `Balanced`. -/
theorem Balanced.setTop (h : d.Balanced) (id : NodeId) (y : Rat) : (d.setTop id y).Balanced :=
  h.of_redraws (redraws_setTop d id y) (dy_of_flattened (flattened_setTop d id y)) fun _ => rfl

/-- `withSlots` keeps `Balanced`. -/
theorem Balanced.withSlots (h : d.Balanced) : d.withSlots.Balanced := by
  have hlink : ∀ l, (d.withSlots.link l).dy = (d.withLinkOrder.link l).dy :=
    dy_link_of_unslotted d.unslotted_withSlots
  refine h.of_redraws d.redraws_withSlots (fun id => ?_) hlink
  rw [node_withSlots]

/-- After `withColumns` a link is as thick as its value times `d.scale config`. -/
theorem dy_link_withColumns (d : Diagram Rat) (config : Config Rat) (rounds : Nat) (l : LinkId) :
    ((d.withColumns config rounds).link l).dy = (d.link l).value * d.scale config := by
  have hflat := congrArg (fun d => (d.link l).dy) (d.flattened_withColumns config rounds)
  have hsizes : ((d.withSizes config).link l).dy = (d.link l).value * d.scale config := by
    by_cases hl : l.index < d.links.size
    · rw [link_of_lt _ (by simpa [withSizes, scaled] using hl), d.link_of_lt hl]
      simp [withSizes, scaled]
    · simp [link, withSizes, scaled, Array.getD, hl, Link.unplaced]
  exact Eq.trans hflat hsizes

/-- After `withColumns` a node is as high as its value times `d.scale config`. -/
theorem dy_node_withColumns (d : Diagram Rat) (config : Config Rat) (rounds : Nat) (id : NodeId) :
    ((d.withColumns config rounds).node id).dy = (d.node id).value * d.scale config := by
  rw [dy_of_flattened (d.flattened_withColumns config rounds), dy_node_withSizes]

/-- `withColumns` makes a diagram `Balanced` whose nodes have the larger of the flows on their two
sides as values, as one scale turns flow into height everywhere. -/
theorem balanced_withColumns (hdraw : e.Redraws d) (hd : d.WellFormed)
    (hflow : ∀ l, 0 ≤ (d.link l).value)
    (hvalue : ∀ id, (e.node id).value
      = max (d.flow (d.node id).outgoing) (d.flow (d.node id).incoming))
    (config : Config Rat) (rounds : Nat) : (e.withColumns config rounds).Balanced := by
  have hcolumns := (e.redraws_withColumns config rounds).trans hdraw
  have hscale := scale_nonneg e config
  have hlink : ∀ l, ((e.withColumns config rounds).link l).dy
      = (d.link l).value * e.scale config := by
    intro l
    rw [dy_link_withColumns, hdraw.value_link]
  -- one scale for all: it can be taken out of the sum
  have hthick : ∀ side id, d.flow ((d.node id).linksAt side) * e.scale config
      = (e.withColumns config rounds).thickness
          (((e.withColumns config rounds).node id).linksAt side) := by
    intro side id
    rw [thickness_perm (hcolumns.linksAt_perm side id), thickness_rat, flow, Scalar.sum_rat,
      ← List.sum_map_mul_right, List.map_congr_left fun l _ => hlink l]
  refine ⟨hcolumns.wellFormed hd, fun l => ?_, fun id => ?_⟩
  · rw [hlink]
    exact mul_nonneg (hflow l) hscale
  · rw [dy_node_withColumns, hvalue, max_mul_of_nonneg _ _ hscale]
    exact congrArg₂ max (hthick .outgoing id) (hthick .incoming id)

/-- `withColumns` makes the diagram of `ofFlows` `Balanced`. -/
theorem balanced_of_ofFlows {names : List String} {flows : List (Flow Rat)}
    (h : ofFlows names flows = .ok d) (config : Config Rat) (rounds : Nat) :
    ((d.withValues.withLayers config).withColumns config rounds).Balanced :=
  balanced_withColumns ((redraws_withLayers _ config).trans d.redraws_withValues)
    (wellFormed_ofFlows h).2.1 (link_value_nonneg h) (d.value_node_withLayers config) config rounds

/-! ## Tiled sides -/

/-- Links tile the sides of their nodes from the upper edge down. -/
structure Tiled (d : Diagram Rat) : Prop where
  /-- A link starts as far down a side as the links before it are thick. -/
  inStacks : d.InStacks
  /-- A node is as high as the links on its thicker side. -/
  dy_node_eq : ∀ id, (d.node id).dy
    = max (d.thickness (d.node id).outgoing) (d.thickness (d.node id).incoming)
  /-- A link starts where the one before it ends. -/
  contiguous : ∀ side id before l m after, (d.node id).linksAt side = before ++ l :: m :: after →
    (d.link m).slotAt side = (d.link l).slotAt side + (d.link l).dy
  /-- No two links of a side overlap. -/
  apart : ∀ side id, ((d.node id).linksAt side).Pairwise fun l m =>
    (d.link l).slotAt side + (d.link l).dy ≤ (d.link m).slotAt side
  /-- No link reaches beyond its node. -/
  inside : ∀ side id, ∀ l ∈ (d.node id).linksAt side, 0 ≤ (d.link l).slotAt side ∧
    0 ≤ (d.link l).dy ∧ (d.link l).slotAt side + (d.link l).dy ≤ (d.node id).dy

namespace InStacks

variable {side : Side} {id : NodeId} {before after : List LinkId} {l m : LinkId}

/-- A link that stands behind `before` ends at `d.thickness (before ++ [l])`. -/
theorem slotAt_add_dy (h : d.InStacks)
    (hids : (d.node id).linksAt side = before ++ l :: after) :
    (d.link l).slotAt side + (d.link l).dy = d.thickness (before ++ [l]) := by
  rw [h side id before l after hids, thickness_append, thickness_singleton]

/-- In stacks a link starts where the link before it ends. -/
theorem contiguous (h : d.InStacks)
    (hids : (d.node id).linksAt side = before ++ l :: m :: after) :
    (d.link m).slotAt side = (d.link l).slotAt side + (d.link l).dy := by
  rw [h.slotAt_add_dy hids]
  exact h side id (before ++ [l]) m after (hids.trans (List.append_cons before l _))

/-- In stacks every link starts below the ends of those before it. -/
theorem apart (h : d.InStacks) (hdy : ∀ l, 0 ≤ (d.link l).dy) {rest : List LinkId}
    (hids : (d.node id).linksAt side = before ++ rest) :
    rest.Pairwise fun l m =>
      (d.link l).slotAt side + (d.link l).dy ≤ (d.link m).slotAt side := by
  induction rest generalizing before with
  | nil => exact List.Pairwise.nil
  | cons l rest ih =>
    -- what stands before a later link is thicker by at least the links in between
    have htail := hids.trans (List.append_cons before l rest)
    refine List.pairwise_cons.2 ⟨fun m hm => ?_, ih htail⟩
    obtain ⟨between, after, rfl⟩ := List.append_of_mem hm
    rw [← List.append_assoc] at htail
    rw [h.slotAt_add_dy hids, h side id _ m after htail, thickness_append _ (before ++ [l])]
    exact le_add_of_nonneg_right (thickness_nonneg hdy between)

end InStacks

/-- A balanced node is at least as high as the links on a side. -/
theorem Balanced.thickness_le (h : d.Balanced) (side : Side) (id : NodeId) :
    d.thickness ((d.node id).linksAt side) ≤ (d.node id).dy := by
  rw [h.dy_node_eq]
  cases side with
  | outgoing => exact le_max_left _ _
  | incoming => exact le_max_right _ _

/-- Links that are `InStacks` tile the sides of balanced nodes. -/
theorem Balanced.tiled (h : d.Balanced) (hstacks : d.InStacks) : d.Tiled where
  inStacks := hstacks
  dy_node_eq := h.dy_node_eq
  contiguous _ _ _ _ _ _ hids := hstacks.contiguous hids
  apart _ _ := hstacks.apart h.dy_link_nonneg (List.nil_append _).symm
  inside side id l hl := by
    obtain ⟨before, after, hids⟩ := List.append_of_mem hl
    refine ⟨?_, h.dy_link_nonneg l, ?_⟩
    · rw [hstacks side id before l after hids]
      exact thickness_nonneg h.dy_link_nonneg before
    · have hle := h.thickness_le side id
      rw [hids, List.append_cons, thickness_append] at hle
      rw [hstacks.slotAt_add_dy hids]
      exact (le_add_of_nonneg_right (thickness_nonneg h.dy_link_nonneg after)).trans hle

/-- After `withSlots` links tile the sides of balanced nodes. -/
theorem Balanced.tiled_withSlots (h : d.Balanced) : d.withSlots.Tiled :=
  h.withSlots.tiled h.wellFormed.inStacks_withSlots

end Exact

end Diagram

/-! ## Stacks in sessions -/

namespace Session

variable {s laid : Session Rat} {d : Diagram Rat} {rounds : Nat}

/-- Layouts make diagrams `Balanced`, and edits keep them so. -/
theorem kept_balanced : Kept fun _ _ (d : Diagram Rat) => d.Balanced where
  placed _ _ _ config rounds h := (Diagram.balanced_of_ofFlows h config rounds).withSlots
  withSlots _ _ _ h := h.withSlots
  setTop _ _ _ id y h := h.setTop id y

/-- **The links of a layout tile the sides of their nodes, and after any edits they do so again once
`relayout` has put them into order.** -/
theorem layout_tiled (h : s.layout rounds = (laid, .ok d)) :
    d.Tiled ∧ ∀ edits : List (Action Rat), (∀ a ∈ edits, a.isEdit) →
      ∃ e, (laid.performAll (edits ++ [.relayout])).diagram = some e ∧ e.Tiled := by
  obtain ⟨first, hfirst, rfl, hlaid⟩ := exists_of_layout h
  have hbalanced := Diagram.balanced_of_ofFlows hfirst s.config rounds
  refine ⟨hbalanced.tiled_withSlots, fun edits hedits => ?_⟩
  have hshows : laid.Shows fun _ _ d => d.Balanced := by
    intro d hd
    rw [hlaid] at hd
    rw [← Option.some.inj hd]
    exact hbalanced.withSlots
  have hsome : laid.diagram.isSome := by
    rw [hlaid]
    rfl
  -- the edits leave some balanced diagram, and the last action stacks its links
  obtain ⟨e, he⟩ := Option.isSome_iff_exists.1 (isSome_performAll_of_isEdit hedits hsome)
  refine ⟨e.withSlots, ?_, (performAll_shows kept_balanced hshows edits e he).tiled_withSlots⟩
  rw [performAll_append_singleton, perform, relayout, he]
  rfl

/-- In `detourDiagram` a sink is moved to the top, and `relayout` tiles the sides again. -/
theorem layout_tiled_detour :
    ((standard : Session Rat).setFlows detourNames detourFlows).layout 1
        = (⟨.standard, detourNames, detourFlows, some (detourDiagram.placed .standard 1)⟩,
            .ok (detourDiagram.placed .standard 1)) ∧
      (detourDiagram.placed .standard 1).Tiled ∧
      ∃ e, ((⟨.standard, detourNames, detourFlows, some (detourDiagram.placed .standard 1)⟩ :
          Session Rat).performAll ([.moveNode ⟨3⟩ 0] ++ [.relayout])).diagram = some e ∧
        e.Tiled := by
  have hdetour : Diagram.ofFlows detourNames detourFlows = .ok detourDiagram := by decide +kernel
  have hlayout : ((standard : Session Rat).setFlows detourNames detourFlows).layout 1
      = (⟨.standard, detourNames, detourFlows, some (detourDiagram.placed .standard 1)⟩,
          .ok (detourDiagram.placed .standard 1)) := layout_of_ofFlows hdetour 1
  obtain ⟨htiled, hedits⟩ := layout_tiled hlayout
  exact ⟨hlayout, htiled, hedits [.moveNode ⟨3⟩ 0] (List.forall_mem_singleton.2 rfl)⟩

end Session

end SankeyDiagram
