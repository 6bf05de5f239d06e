import Mathlib.Data.List.Sort
import SankeyDiagram.Proofs.Lookup
import SankeyDiagram.Proofs.Stacking

/-! # Putting links into order again

What the last stage does to any diagram, one that a caller made up included: it sorts the links on
every side of every node, without changing the order of links that lead to one height, and moves
slots. Nothing that it reads is changed by it, so a second time it finds everything in place.

* **`StableSort`** what a stable sort of a list is; **`stableSort_mergeSort`** there is one, and
  **`eq_of_ties`** there is only one.
* **`Diagram.unstacked`** a diagram without the order of its links and without their slots.
* **`Diagram.RewrittenAlike`** slots that two diagrams are given do not depend on those that they
  had, but where these are left.
* **`Diagram.Restacks`** links are sorted, and nothing else changes but slots.
* **`Diagram.withSlots_restacks`** the last stage does this, and a second time it does nothing. -/

namespace SankeyDiagram

/-! ## Stable sorts -/

section StableSort

variable {β : Type} {le : β → β → Bool} {xs ys zs : List β}

/-- Whether each of two elements may stand before the other. -/
def ties (le : β → β → Bool) (a b : β) : Bool := le a b && le b a

/-- Elements are tied in `le` iff each may stand before the other. -/
theorem ties_iff {a b : β} : ties le a b ↔ le a b ∧ le b a := by
  rw [ties, Bool.and_eq_true]

/-- A list holds the elements of another in the order given, and elements that may stand before
each other as they stand there. -/
structure StableSort (le : β → β → Bool) (xs ys : List β) : Prop where
  /-- The elements are the same. -/
  perm : ys.Perm xs
  /-- Every element of `ys` may stand before those after it. -/
  sorted : ys.Pairwise fun a b => le a b
  /-- Elements that are tied in `le` keep their order. -/
  ties_eq : ∀ a, ys.filter (ties le a) = xs.filter (ties le a)

namespace StableSort

/-- A sorted arrangement is a `StableSort` if it keeps every part of the list that is in order. -/
theorem of_sublist (htrans : ∀ a b c, le a b → le b c → le a c) (hperm : ys.Perm xs)
    (hsorted : ys.Pairwise fun a b => le a b)
    (hkept : ∀ part : List β, part.Pairwise (fun a b => le a b) → part.Sublist xs →
      part.Sublist ys) : StableSort le xs ys where
  perm := hperm
  sorted := hsorted
  ties_eq a := by
    -- elements that are tied with one are in order as they stand
    have hpairwise : (xs.filter (ties le a)).Pairwise fun b c => le b c := by
      refine List.pairwise_of_forall_mem_list fun b hb c hc => ?_
      have hab := ties_iff.1 (List.mem_filter.1 hb).2
      have hac := ties_iff.1 (List.mem_filter.1 hc).2
      exact htrans b a c hab.2 hac.1
    have hsub : (xs.filter (ties le a)).Sublist (ys.filter (ties le a)) := by
      simpa using (hkept _ hpairwise List.filter_sublist).filter (ties le a)
    exact (hsub.eq_of_length (hperm.filter (ties le a)).length_eq.symm).symm

/-- After a `StableSort`, elements that are tied in `le` are related by `R` as they were before. -/
theorem pairwise {R : β → β → Prop} (hrefl : ∀ a, le a a) (h : StableSort le xs ys)
    (hxs : xs.Pairwise R) : ys.Pairwise fun a b => le a b ∧ (le b a → R a b) := by
  rw [List.pairwise_iff_forall_sublist] at hxs ⊢
  intro a b hab
  have hle := List.pairwise_iff_forall_sublist.1 h.sorted hab
  refine ⟨hle, fun hba => hxs ?_⟩
  have htied : [a, b].Sublist (ys.filter (ties le a)) := by
    have hfilter := hab.filter (ties le a)
    rwa [List.filter_cons_of_pos (ties_iff.2 ⟨hrefl a, hrefl a⟩),
      List.filter_cons_of_pos (ties_iff.2 ⟨hle, hba⟩), List.filter_nil] at hfilter
  rw [h.ties_eq] at htied
  exact htied.trans List.filter_sublist

end StableSort

/-- `List.mergeSort` is a `StableSort`. -/
theorem stableSort_mergeSort (htrans : ∀ a b c, le a b → le b c → le a c)
    (htotal : ∀ a b, le a b || le b a) (xs : List β) : StableSort le xs (xs.mergeSort le) :=
  .of_sublist htrans (List.mergeSort_perm xs le) (List.pairwise_mergeSort htrans htotal xs)
    fun _ => List.sublist_mergeSort htrans htotal

/-- Two lists in order are equal if `filter (ties le a)` is the same in both, for every `a`. -/
theorem eq_of_ties (hrefl : ∀ a, le a a) (hys : ys.Pairwise fun a b => le a b)
    (hzs : zs.Pairwise fun a b => le a b)
    (h : ∀ a, ys.filter (ties le a) = zs.filter (ties le a)) : ys = zs := by
  have hmem : ∀ {xs : List β} {a : β}, a ∈ xs.filter (ties le a) ↔ a ∈ xs := by
    intro xs a
    simp [ties, hrefl a]
  induction ys generalizing zs with
  | nil =>
    cases zs with
    | nil => rfl
    | cons z zs =>
      have hz : z ∈ (z :: zs).filter (ties le z) := hmem.2 List.mem_cons_self
      rw [← h] at hz
      cases hz
  | cons y ys ih =>
    cases zs with
    | nil =>
      have hy : y ∈ (y :: ys).filter (ties le y) := hmem.2 List.mem_cons_self
      rw [h] at hy
      cases hy
    | cons z zs =>
      -- each head stands in the other list, so the two are tied, and first among those tied
      have hy : y ∈ z :: zs := by
        rw [← hmem, ← h, hmem]
        exact List.mem_cons_self
      have hz : z ∈ y :: ys := by
        rw [← hmem, h, hmem]
        exact List.mem_cons_self
      rw [List.pairwise_cons] at hys hzs
      have hyz : le y z := (List.mem_cons.1 hz).elim (fun heq => heq ▸ hrefl y) (hys.1 z)
      have hzy : le z y := (List.mem_cons.1 hy).elim (fun heq => heq ▸ hrefl z) (hzs.1 y)
      have hheads := h y
      rw [List.filter_cons_of_pos (ties_iff.2 ⟨hrefl y, hrefl y⟩),
        List.filter_cons_of_pos (ties_iff.2 ⟨hyz, hzy⟩), List.cons.injEq] at hheads
      obtain ⟨rfl, -⟩ := hheads
      refine congrArg _ (ih hys.2 hzs.2 fun a => ?_)
      have htails := h a
      rw [List.filter_cons, List.filter_cons] at htails
      split at htails
      · exact (List.cons.inj htails).2
      · exact htails

/-- **There is only one `StableSort` of a list.** -/
theorem StableSort.unique (hrefl : ∀ a, le a a) (hys : StableSort le xs ys)
    (hzs : StableSort le xs zs) : ys = zs :=
  eq_of_ties hrefl hys.sorted hzs.sorted fun a => (hys.ties_eq a).trans (hzs.ties_eq a).symm

/-- `List.insertionSort` gives what `List.mergeSort` gives, and can be evaluated. -/
theorem mergeSort_eq_insertionSort
    (htrans : ∀ a b c, le a b → le b c → le a c) (htotal : ∀ a b, le a b || le b a)
    (xs : List β) : xs.mergeSort le = xs.insertionSort fun a b => le a b := by
  have : Std.Total fun a b => le a b = true := ⟨fun a b => by simpa using htotal a b⟩
  have : IsTrans β fun a b => le a b = true := ⟨htrans⟩
  have hinsertion : StableSort le xs (xs.insertionSort fun a b => le a b) :=
    .of_sublist htrans (List.perm_insertionSort _ xs) (List.pairwise_insertionSort _ xs)
      fun _ => List.sublist_insertionSort
  have hrefl : ∀ a, le a a := fun a => by simpa using htotal a a
  exact (stableSort_mergeSort htrans htotal xs).unique hrefl hinsertion

end StableSort

variable {α : Type} [Scalar α]

/-- A link is told by `Link.slotAt` on its two sides and by `Link.unslotted`. -/
theorem Link.eq_of_unslotted {l m : Link α} (h : l.unslotted = m.unslotted)
    (hslots : ∀ side, l.slotAt side = m.slotAt side) : l = m := by
  obtain ⟨source, target, value, dy, sy, ty, merged, inputIndex⟩ := l
  obtain ⟨source', target', value', dy', sy', ty', merged', inputIndex'⟩ := m
  obtain rfl : sy = sy' := hslots .outgoing
  obtain rfl : ty = ty' := hslots .incoming
  cases h
  rfl

namespace Node

/-- A node without its links. -/
def unlinked (n : Node α) : Node α := { n with outgoing := [], incoming := [] }

omit [Scalar α] in
/-- A node is told by `Node.linksAt` on its two sides and by `Node.unlinked`. -/
theorem eq_of_unlinked {n m : Node α} (h : n.unlinked = m.unlinked)
    (hlinks : ∀ side, n.linksAt side = m.linksAt side) : n = m := by
  obtain ⟨name, layer, x, dx, y, dy, value, outgoing, incoming⟩ := n
  obtain ⟨name', layer', x', dx', y', dy', value', outgoing', incoming'⟩ := m
  obtain rfl : outgoing = outgoing' := hlinks .outgoing
  obtain rfl : incoming = incoming' := hlinks .incoming
  cases h
  rfl

/-- `Node.center` does not read the links of a node. -/
theorem center_of_unlinked {n m : Node α} (h : n.unlinked = m.unlinked) : n.center = m.center := by
  have hcenter := congrArg center h
  exact hcenter

end Node

namespace Diagram

variable {d e : Diagram α} {side : Side} {id : NodeId} {l : LinkId}

/-! ## Orders and slots aside -/

/-- The diagram without links at its nodes and with the slots of all links at zero. -/
def unstacked (d : Diagram α) : Diagram α :=
  { d with nodes := d.nodes.map Node.unlinked, links := d.links.map Link.unslotted }

/-- `d.unstacked.node id` is `d.node id` without its links. -/
theorem node_unstacked (d : Diagram α) (id : NodeId) :
    d.unstacked.node id = (d.node id).unlinked := by
  rw [node, node, unstacked, Array.getD_eq_getD_getElem?, Array.getD_eq_getD_getElem?,
    Array.getElem?_map]
  cases d.nodes[id.index]? <;> rfl

/-- `d.unstacked.link l` is `d.link l` without its slots. -/
theorem link_unstacked (d : Diagram α) (l : LinkId) :
    d.unstacked.link l = (d.link l).unslotted :=
  link_unslotted d l

/-- Diagrams with one `unstacked` have the same nodes but for their links. -/
theorem unlinked_of_unstacked (h : e.unstacked = d.unstacked) (id : NodeId) :
    (e.node id).unlinked = (d.node id).unlinked := by
  rw [← node_unstacked, h, node_unstacked]

/-- Diagrams with one `unstacked` have the same links but for their slots. -/
theorem unslotted_of_unstacked (h : e.unstacked = d.unstacked) (l : LinkId) :
    (e.link l).unslotted = (d.link l).unslotted := by
  rw [← link_unstacked, h, link_unstacked]

/-- Arrays of nodes of one size are equal if `node` reads the same in both. -/
theorem nodes_eq_of_node (hsize : e.nodes.size = d.nodes.size)
    (h : ∀ id, e.node id = d.node id) : e.nodes = d.nodes := by
  apply Array.ext hsize
  intro i hi hi'
  have hnode : e.node ⟨i⟩ = e.nodes[i] := e.node_of_lt hi
  have hnode' : d.node ⟨i⟩ = d.nodes[i] := d.node_of_lt hi'
  rw [← hnode, ← hnode', h]

/-- Arrays of links of one size are equal if `link` reads the same in both. -/
theorem links_eq_of_link (hsize : e.links.size = d.links.size)
    (h : ∀ l, e.link l = d.link l) : e.links = d.links := by
  apply Array.ext hsize
  intro i hi hi'
  have hlink : e.link ⟨i⟩ = e.links[i] := e.link_of_lt hi
  have hlink' : d.link ⟨i⟩ = d.links[i] := d.link_of_lt hi'
  rw [← hlink, ← hlink', h]

/-- A diagram is told by `flattened` and by the upper edges of its nodes. -/
theorem eq_of_flattened (h : e.flattened = d.flattened)
    (hy : ∀ id, (e.node id).y = (d.node id).y) : e = d := by
  have hnodes : e.nodes = d.nodes :=
    nodes_eq_of_node (size_nodes_of_flattened h) fun id => node_eq_of_flattened h (hy id)
  obtain ⟨nodes, links, circularLinks, roots, layerCount, warnings⟩ := d
  cases hnodes
  cases h
  rfl

/-- A diagram is told by `unslotted` and by the slots of its links. -/
theorem eq_of_unslotted (h : e.unslotted = d.unslotted)
    (hslots : ∀ side l, (e.link l).slotAt side = (d.link l).slotAt side) : e = d := by
  have hlinks : e.links = d.links := by
    refine links_eq_of_link (redraws_of_unslotted h).size_links fun l => ?_
    refine Link.eq_of_unslotted ?_ fun side => hslots side l
    rw [← link_unslotted, h, link_unslotted]
  obtain ⟨nodes, links, circularLinks, roots, layerCount, warnings⟩ := d
  cases hlinks
  cases h
  rfl

/-- A diagram is told by `unstacked`, the orders of links at its nodes, and the slots of its
links. -/
theorem eq_of_unstacked (h : e.unstacked = d.unstacked)
    (hlinks : ∀ side id, (e.node id).linksAt side = (d.node id).linksAt side)
    (hslots : ∀ side l, (e.link l).slotAt side = (d.link l).slotAt side) : e = d := by
  have hnodes : e.nodes = d.nodes := by
    refine nodes_eq_of_node ?_ fun id => ?_
    · simpa [unstacked] using congrArg (fun d => d.nodes.size) h
    · exact Node.eq_of_unlinked (unlinked_of_unstacked h id) fun side => hlinks side id
  refine eq_of_unslotted ?_ hslots
  obtain ⟨nodes, links, circularLinks, roots, layerCount, warnings⟩ := d
  obtain ⟨nodes', links', circularLinks', roots', layerCount', warnings'⟩ := e
  obtain rfl : nodes' = nodes := hnodes
  simp only [unstacked, unslotted, Diagram.mk.injEq, true_and] at h ⊢
  exact h

/-! ## The order of links -/

/-- Whether a link may stand above another on a side, by the nodes that the two lead to. -/
def above (d : Diagram α) (side : Side) (l m : LinkId) : Bool :=
  Scalar.precedes (d.farCenter side l) (d.farCenter side m)

/-- `d.above side` is reflexive. -/
theorem above_refl (d : Diagram α) (side : Side) (l : LinkId) : d.above side l l :=
  Scalar.precedes_refl _

/-- `d.above side` is transitive, as `Scalar.precedes` is a total order with NaN in it. -/
theorem above_trans (d : Diagram α) (side : Side) (l m k : LinkId) :
    d.above side l m → d.above side m k → d.above side l k :=
  Scalar.precedes_trans (d.farCenter side l) (d.farCenter side m) (d.farCenter side k)

/-- `d.above side` is total. -/
theorem above_total (d : Diagram α) (side : Side) (l m : LinkId) :
    d.above side l m || d.above side m l :=
  Scalar.precedes_total (d.farCenter side l) (d.farCenter side m)

/-- `d.fromTopEnd side ids` is the `StableSort` of `ids` by `d.above side`. -/
theorem stableSort_fromTopEnd (d : Diagram α) (side : Side) (ids : List LinkId) :
    StableSort (d.above side) ids (d.fromTopEnd side ids) :=
  stableSort_mergeSort (d.above_trans side) (d.above_total side) ids

/-- `d.fromTop layer` is the `StableSort` of `layer` by the upper edges of its nodes. -/
theorem stableSort_fromTop (d : Diagram α) (layer : List NodeId) :
    StableSort (fun a b => Scalar.precedes (d.node a).y (d.node b).y) layer (d.fromTop layer) :=
  stableSort_mergeSort (fun a b c => Scalar.precedes_trans (d.node a).y (d.node b).y (d.node c).y)
    (fun a b => Scalar.precedes_total (d.node a).y (d.node b).y) layer

/-- `d.fromTop` as a sort by insertion, for evaluation. -/
theorem fromTop_eq_insertionSort (d : Diagram α) :
    d.fromTop = List.insertionSort fun a b => Scalar.precedes (d.node a).y (d.node b).y :=
  funext <| mergeSort_eq_insertionSort
    (fun a b c => Scalar.precedes_trans (d.node a).y (d.node b).y (d.node c).y)
    fun a b => Scalar.precedes_total (d.node a).y (d.node b).y

/-- `d.fromTopEnd side` as a sort by insertion, for evaluation. -/
theorem fromTopEnd_eq_insertionSort (d : Diagram α) (side : Side) :
    d.fromTopEnd side = List.insertionSort fun l m => d.above side l m :=
  funext <| mergeSort_eq_insertionSort (d.above_trans side) (d.above_total side)

/-- `farCenter side l` reads the far end of `l` and the centers of nodes. -/
theorem farCenter_congr (hend : (e.link l).farEnd side = (d.link l).farEnd side)
    (hcenter : ∀ id, (e.node id).center = (d.node id).center) :
    e.farCenter side l = d.farCenter side l := by
  rw [farCenter, farCenter, hend, hcenter]

/-- Diagrams with one `unstacked` compare links alike. -/
theorem above_of_unstacked (h : e.unstacked = d.unstacked) (side : Side) :
    e.above side = d.above side := by
  have hcenter : ∀ l, e.farCenter side l = d.farCenter side l := by
    intro l
    have hlink := congrArg (fun l => l.farEnd side) (unslotted_of_unstacked h l)
    refine farCenter_congr ?_ fun id => Node.center_of_unlinked (unlinked_of_unstacked h id)
    cases side <;> exact hlink
  funext l m
  rw [above, above, hcenter, hcenter]

/-- `fromTopEnd side ids` reads `farCenter side` of the links in `ids` alone. -/
theorem fromTopEnd_congr {ids : List LinkId}
    (h : ∀ l ∈ ids, e.farCenter side l = d.farCenter side l) :
    e.fromTopEnd side ids = d.fromTopEnd side ids := by
  have habove : ∀ l ∈ ids, ∀ m ∈ ids, e.above side l m = d.above side l m := by
    intro l hl m hm
    rw [above, above, h l hl, h m hm]
  have hsorted := List.map_mergeSort (f := fun l => l) habove
  rwa [List.map_id', List.map_id'] at hsorted

/-- `withLinkOrder` changes nothing that `unstacked` shows. -/
theorem unstacked_withLinkOrder (d : Diagram α) : d.withLinkOrder.unstacked = d.unstacked := by
  rw [unstacked, unstacked, withLinkOrder]
  simp [Function.comp_def, Node.unlinked]

/-- Diagrams with one `unslotted` have one `unstacked`. -/
theorem unstacked_of_unslotted (h : e.unslotted = d.unslotted) : e.unstacked = d.unstacked := by
  obtain ⟨nodes, links, circularLinks, roots, layerCount, warnings⟩ := d
  obtain ⟨nodes', links', circularLinks', roots', layerCount', warnings'⟩ := e
  simp only [unstacked, unslotted, Diagram.mk.injEq] at h ⊢
  exact ⟨congrArg _ h.1, h.2⟩

/-- `withSlots` changes nothing that `unstacked` shows. -/
theorem unstacked_withSlots (d : Diagram α) : d.withSlots.unstacked = d.unstacked :=
  (unstacked_of_unslotted d.unslotted_withSlots).trans d.unstacked_withLinkOrder

/-- `withSlots` puts the links on each side of a node in the order `fromTopEnd side`. -/
theorem linksAt_withSlots (d : Diagram α) (side : Side) (id : NodeId) :
    (d.withSlots.node id).linksAt side = d.fromTopEnd side ((d.node id).linksAt side) := by
  rw [node_withSlots]
  cases side <;> rfl

/-- `withSlots` gives links that stand in the same order the same order again if `farCenter side` is
the same for each. -/
theorem linksAt_withSlots_congr (hlinks : (e.node id).linksAt side = (d.node id).linksAt side)
    (hcenter : ∀ l ∈ (d.node id).linksAt side, e.farCenter side l = d.farCenter side l) :
    (e.withSlots.node id).linksAt side = (d.withSlots.node id).linksAt side := by
  rw [linksAt_withSlots, linksAt_withSlots, hlinks, fromTopEnd_congr hcenter]

/-- `withLinkOrder` leaves links that are in order by `above side` as they are. -/
theorem withLinkOrder_eq_self
    (h : ∀ side id, ((d.node id).linksAt side).Pairwise fun l m => d.above side l m) :
    d.withLinkOrder = d := by
  refine eq_of_unstacked d.unstacked_withLinkOrder (fun side id => ?_) fun _ _ => rfl
  rw [node_withLinkOrder]
  cases side
  · exact List.mergeSort_of_pairwise (h .outgoing id)
  · exact List.mergeSort_of_pairwise (h .incoming id)

/-- Under `InStacks`, `slotAt side` of a link is told by the order of the links beside it and their
thicknesses. -/
theorem InStacks.slotAt_eq (he : e.InStacks) (hd : d.InStacks)
    (hdy : ∀ l, (e.link l).dy = (d.link l).dy)
    (hids : (e.node id).linksAt side = (d.node id).linksAt side)
    (hl : l ∈ (d.node id).linksAt side) : (e.link l).slotAt side = (d.link l).slotAt side := by
  obtain ⟨before, after, hsplit⟩ := List.append_of_mem hl
  rw [he side id before l after (hids.trans hsplit), hd side id before l after hsplit,
    thickness_congr hdy]

/-- `d.link l` is a blank link where `d` has none. -/
theorem link_of_not_lt (d : Diagram α) (h : ¬l.index < d.links.size) :
    d.link l = .unplaced ⟨0⟩ ⟨0⟩ 0 0 := by
  simp [link, Array.getD, h]

/-- Diagrams with as many links read the same blank where they have none. -/
theorem link_eq_of_not_hasLink (hsize : e.links.size = d.links.size) (hl : ¬d.hasLink l) :
    e.link l = d.link l := by
  rw [hasLink_iff] at hl
  rw [d.link_of_not_lt hl, e.link_of_not_lt (by rwa [hsize])]

/-- Under `InStacks`, all slots are told by the orders of links at nodes and the thicknesses of
links. -/
theorem InStacks.slotAt_eq_of_linksAt (he : e.InStacks) (hd : d.InStacks) (hwf : d.WellFormed)
    (hsize : e.links.size = d.links.size) (hdy : ∀ l, (e.link l).dy = (d.link l).dy)
    (hids : ∀ side id, (e.node id).linksAt side = (d.node id).linksAt side)
    (side : Side) (l : LinkId) : (e.link l).slotAt side = (d.link l).slotAt side := by
  by_cases hl : d.hasLink l
  · -- a link stands on that side of the node at its end
    have hmem := (hwf.mem_linksAt side ((d.link l).nearEnd side) l).2 ⟨hl, rfl⟩
    exact he.slotAt_eq hd hdy (hids side _) hmem
  · rw [link_eq_of_not_hasLink hsize hl]

/-! ## Slots that are written again -/

/-- `setSlot` writes nothing where there is no link. -/
theorem link_setSlot_of_not_hasLink (hl : ¬d.hasLink l) (offset : α) :
    (d.setSlot side l offset).link l = d.link l :=
  link_eq_of_not_hasLink (by simp [setSlot]) hl

/-- Two diagrams are given slots: each slot gets the same offset in both, or keeps in both the one
that it had. -/
structure RewrittenAlike (d d' e e' : Diagram α) : Prop where
  /-- `e'` and `d'` differ in slots alone. -/
  unslotted : e'.unslotted = d'.unslotted
  /-- A slot is written in both alike, or in neither. -/
  slot : ∀ side l, (e'.link l).slotAt side = (d'.link l).slotAt side ∨
    ((e'.link l).slotAt side = (e.link l).slotAt side ∧
      (d'.link l).slotAt side = (d.link l).slotAt side)

namespace RewrittenAlike

variable {d' d'' e' e'' : Diagram α}

/-- Nothing is written by no step: `RewrittenAlike d d e e`. -/
theorem refl (h : e.unslotted = d.unslotted) : RewrittenAlike d d e e where
  unslotted := h
  slot _ _ := Or.inr ⟨rfl, rfl⟩

/-- Steps that are `RewrittenAlike` are so one after another. -/
theorem trans (hfirst : RewrittenAlike d d' e e') (hnext : RewrittenAlike d' d'' e' e'') :
    RewrittenAlike d d'' e e'' where
  unslotted := hnext.unslotted
  slot side l := by
    rcases hnext.slot side l with hsame | ⟨he, hd⟩
    · exact Or.inl hsame
    · rw [he, hd]
      exact hfirst.slot side l

/-- `setSlot` at one link with one offset is `RewrittenAlike` in both diagrams. -/
theorem setSlot (h : e.unslotted = d.unslotted) (side : Side) (id : LinkId) (offset : α) :
    RewrittenAlike d (d.setSlot side id offset) e (e.setSlot side id offset) where
  unslotted := by rw [unslotted_setSlot, unslotted_setSlot, h]
  slot other l := by
    by_cases hid : l = id
    · by_cases hside : other = side
      · -- the slot itself, if there is such a link
        subst hid hside
        by_cases hl : d.hasLink l
        · have hl' : e.hasLink l := by rwa [(redraws_of_unslotted h).hasLink]
          rw [link_setSlot_self hl, link_setSlot_self hl', Link.slotAt_withSlotAt_self,
            Link.slotAt_withSlotAt_self]
          exact Or.inl rfl
        · -- elsewhere both read the blank that they read before
          have hl' : ¬e.hasLink l := by rwa [(redraws_of_unslotted h).hasLink]
          rw [link_setSlot_of_not_hasLink hl, link_setSlot_of_not_hasLink hl']
          exact Or.inr ⟨rfl, rfl⟩
      · rw [slotAt_setSlot_of_ne hside, slotAt_setSlot_of_ne hside]
        exact Or.inr ⟨rfl, rfl⟩
    · rw [link_setSlot_of_ne hid, link_setSlot_of_ne hid]
      exact Or.inr ⟨rfl, rfl⟩

/-- `stacked` of one list of links is `RewrittenAlike`: the offsets are sums of thicknesses, which
`unslotted` shows. -/
theorem stacked (h : e.unslotted = d.unslotted) (side : Side) (offset : α) (ids : List LinkId) :
    RewrittenAlike d (d.stacked side offset ids) e (e.stacked side offset ids) := by
  -- the next offset is told by thicknesses, which the two have in common
  induction ids generalizing d e offset with
  | nil => exact refl h
  | cons l below ih =>
    have hfirst := setSlot h side l offset
    rw [Diagram.stacked, Diagram.stacked, dy_link_of_unslotted h]
    exact hfirst.trans (ih hfirst.unslotted _)

/-- `withStacks` at one node is `RewrittenAlike`. -/
theorem withStacks (h : e.unslotted = d.unslotted) (n : Node α) :
    RewrittenAlike d (d.withStacks n) e (e.withStacks n) := by
  have hfirst := stacked h .outgoing 0 n.outgoing
  exact hfirst.trans (stacked hfirst.unslotted .incoming 0 n.incoming)

/-- `withStacks` at one node after another is `RewrittenAlike`. -/
theorem foldl_withStacks (h : e.unslotted = d.unslotted) (nodes : List (Node α)) :
    RewrittenAlike d (nodes.foldl Diagram.withStacks d) e (nodes.foldl Diagram.withStacks e) := by
  induction nodes generalizing d e with
  | nil => exact refl h
  | cons n rest ih =>
    have hfirst := withStacks h n
    exact hfirst.trans (ih hfirst.unslotted)

/-- If `e` is what `d` was made, then `e' = e`: what is written over it is there already. -/
theorem eq_self (h : RewrittenAlike d e e e') : e' = e := by
  refine eq_of_unslotted h.unslotted fun side l => ?_
  rcases h.slot side l with hsame | ⟨hkept, -⟩
  · exact hsame
  · exact hkept

end RewrittenAlike

/-- `d.withSlots.withSlots = d.withSlots`. -/
theorem withSlots_withSlots (d : Diagram α) : d.withSlots.withSlots = d.withSlots := by
  have horder : d.withSlots.withLinkOrder = d.withSlots := by
    refine withLinkOrder_eq_self fun side id => ?_
    rw [linksAt_withSlots, above_of_unstacked d.unstacked_withSlots]
    exact (d.stableSort_fromTopEnd side _).sorted
  have hnodes : d.withSlots.nodes = d.withLinkOrder.nodes :=
    congrArg (fun d => d.nodes) d.unslotted_withSlots
  have hagain : d.withSlots.withSlots
      = d.withLinkOrder.nodes.toList.foldl withStacks d.withSlots := by
    rw [← hnodes]
    conv_lhs => rw [withSlots, horder]
  rw [hagain]
  exact (RewrittenAlike.foldl_withStacks d.unslotted_withSlots _).eq_self

/-! ## Any diagram -/

/-- `d.hasFlows` holds iff every link in a `linksAt side` exists. -/
theorem hasFlows_iff :
    d.hasFlows ↔ ∀ side id, ∀ l ∈ (d.node id).linksAt side, d.hasLink l := by
  rw [hasFlows, all_nodes_iff]
  constructor
  · intro h side id l hl
    by_cases hid : d.hasNode id
    · have hboth := h id hid
      rw [Bool.and_eq_true, List.all_eq_true, List.all_eq_true] at hboth
      cases side with
      | outgoing => exact hboth.1 l hl
      | incoming => exact hboth.2 l hl
    · -- elsewhere there are no links
      rw [hasNode_iff] at hid
      rw [node_of_not_lt _ hid, Node.linksAt_unplaced] at hl
      cases hl
  · intro h id _
    rw [Bool.and_eq_true, List.all_eq_true, List.all_eq_true]
    exact ⟨h .outgoing id, h .incoming id⟩

/-- `d.hasAllEnds` holds iff `nearEnd side` of every link exists, on either side. -/
theorem hasAllEnds_iff :
    d.hasAllEnds ↔ ∀ side l, d.hasLink l → d.hasNode ((d.link l).nearEnd side) := by
  rw [hasAllEnds, Array.all_eq_true]
  constructor
  · intro h side l hl
    rw [hasLink_iff] at hl
    have hends := h l.index hl
    rw [hasEnds, Bool.and_eq_true, ← d.link_of_lt hl] at hends
    cases side with
    | outgoing => exact hends.1
    | incoming => exact hends.2
  · intro h i hi
    have hl : d.hasLink ⟨i⟩ := d.hasLink_iff _ |>.2 hi
    have hlink : d.link ⟨i⟩ = d.links[i] := d.link_of_lt hi
    rw [hasEnds, Bool.and_eq_true, ← hlink]
    exact ⟨h .outgoing ⟨i⟩ hl, h .incoming ⟨i⟩ hl⟩

namespace Redraws

/-- `hasFlows` is read off what `Redraws` keeps. -/
theorem hasFlows (h : e.Redraws d) (hd : d.hasFlows) : e.hasFlows := by
  rw [hasFlows_iff] at hd ⊢
  intro side id l hl
  rw [h.hasLink]
  exact hd side id l ((h.linksAt_perm side id).mem_iff.1 hl)

/-- `hasAllEnds` is read off what `Redraws` keeps. -/
theorem hasAllEnds (h : e.Redraws d) (hd : d.hasAllEnds) : e.hasAllEnds := by
  rw [hasAllEnds_iff] at hd ⊢
  intro side l hl
  rw [h.hasNode, h.nearEnd]
  rw [h.hasLink] at hl
  exact hd side l hl

end Redraws

/-- `d.hasSlots` follows from `hasFlows` and `hasAllEnds`. -/
theorem hasSlots_of_hasFlows (hflows : d.hasFlows) (hends : d.hasAllEnds) : d.hasSlots := by
  rw [hasFlows_iff] at hflows
  rw [hasAllEnds_iff] at hends
  have horder : ∀ side id, d.hasOrder side ((d.node id).linksAt side) := by
    intro side id
    rw [hasOrder, Bool.and_eq_true, Bool.or_eq_true, hasFarEnds, List.all_eq_true,
      List.all_eq_true]
    -- the far end on one side is the near end on the other
    refine ⟨hflows side id, Or.inr fun l hl => ?_⟩
    have hlink := hflows side id l hl
    rw [Bool.and_eq_true]
    refine ⟨hlink, ?_⟩
    cases side with
    | outgoing => exact hends .incoming l hlink
    | incoming => exact hends .outgoing l hlink
  rw [hasSlots, all_nodes_iff]
  intro id _
  rw [Bool.and_eq_true]
  exact ⟨horder .outgoing id, horder .incoming id⟩

/-- A diagram shows another with its links put into order. -/
structure Restacks (e d : Diagram α) : Prop where
  /-- `e` differs from `d` in the order of links and their slots alone. -/
  unstacked : e.unstacked = d.unstacked
  /-- The links on a side of a node are in the order of the nodes that they lead to, and those to
  one height are in the order that they had. -/
  stableSort : ∀ side id,
    StableSort (d.above side) ((d.node id).linksAt side) ((e.node id).linksAt side)

/-- `d.withSlots` is a `Restacks` of `d`. -/
theorem restacks_withSlots (d : Diagram α) : d.withSlots.Restacks d where
  unstacked := d.unstacked_withSlots
  stableSort side id := by
    rw [linksAt_withSlots]
    exact d.stableSort_fromTopEnd side _

/-- Two diagrams that are `Restacks` of one have the same order of links on every side of every
node. -/
theorem Restacks.linksAt_unique {d' : Diagram α} (h : e.Restacks d) (h' : d'.Restacks d)
    (side : Side) (id : NodeId) : (e.node id).linksAt side = (d'.node id).linksAt side :=
  (h.stableSort side id).unique (d.above_refl side) (h'.stableSort side id)

/-- **`withSlots` sorts the links on every side of every node by the heights of the nodes that they
lead to, those to one height in the order that they had, and changes nothing else but slots;
`d.withSlots.withSlots = d.withSlots`**. All this takes is that links and nodes exist where `d`
names them. -/
theorem withSlots_restacks (hflows : d.hasFlows) (hends : d.hasAllEnds) :
    d.hasSlots ∧ d.withSlots.Restacks d ∧
      d.withSlots.hasSlots ∧ d.withSlots.withSlots = d.withSlots := by
  have hagain := d.redraws_withSlots
  exact ⟨hasSlots_of_hasFlows hflows hends, d.restacks_withSlots,
    hasSlots_of_hasFlows (hagain.hasFlows hflows) (hagain.hasAllEnds hends),
    d.withSlots_withSlots⟩

/-- Three nodes with links that nobody would draw: one link stands twice on a side, one on the side
of a node that it does not touch, and the places of two nodes are no ordinary numbers. -/
def tangle : Diagram Binary64 :=
  let hub : Node Binary64 :=
    { Node.unplaced "hub" with y := -0, outgoing := [⟨2⟩, ⟨0⟩, ⟨2⟩, ⟨1⟩], incoming := [⟨1⟩, ⟨0⟩] }
  let lost : Node Binary64 :=
    { Node.unplaced "lost" with y := Binary64.nan, outgoing := [⟨1⟩, ⟨2⟩], incoming := [⟨0⟩] }
  let far : Node Binary64 :=
    { Node.unplaced "far" with y := -Binary64.infinity, incoming := [⟨2⟩, ⟨2⟩] }
  { Diagram.empty with
    nodes := #[hub, lost, far]
    links := #[{ Link.unplaced ⟨0⟩ ⟨1⟩ 1 0 with dy := 2 },
      { Link.unplaced ⟨0⟩ ⟨0⟩ 1 1 with dy := 3 },
      { Link.unplaced ⟨0⟩ ⟨2⟩ 1 2 with dy := Binary64.infinity }] }

/-- The links of `tangle` are sorted by `withSlots`, and were not in order before. -/
theorem withSlots_restacks_tangle :
    tangle.hasFlows ∧ tangle.hasAllEnds ∧ tangle.hasSlots ∧ tangle.withSlots.Restacks tangle ∧
      tangle.withSlots ≠ tangle ∧ tangle.withSlots.withSlots = tangle.withSlots := by
  have hflows : tangle.hasFlows := by decide +kernel
  have hends : tangle.hasAllEnds := by decide +kernel
  obtain ⟨hslots, hrestacks, -, hagain⟩ := withSlots_restacks hflows hends
  refine ⟨hflows, hends, hslots, hrestacks, fun hsame => ?_, hagain⟩
  have hsorted := (hrestacks.stableSort .outgoing ⟨0⟩).sorted
  rw [hsame] at hsorted
  revert hsorted
  decide +kernel

end Diagram

end SankeyDiagram
