import SankeyDiagram.Proofs.Restacking

/-! # Where settling puts nodes

The places of packed boxes in closed form, in exact numbers, and with them what settling columns
does: sorting the nodes of each layer, sweeping them down, up and down again comes to one greatest
and one least number for each node.

* **`Box.pushedTop`** how far down the boxes above push a box, and **`Box.packedTop`** where a box
  is packed.
* **`Box.top_pack`** packed boxes start at their places; **`Box.pack_pack`** packing them again
  leaves them there.
* **`Columns.Settles`** columns whose layers are sorted, with each node where its box is packed.
* **`Columns.settled_packs`** settling does this, and where nothing is negative it keeps the order
  of the nodes and settles nothing a second time. -/

namespace SankeyDiagram

/-! ## Boxes -/

namespace Box

variable {gap extent : Rat} {boxes others : List (Box Rat)}

/-- Boxes are told by `slacks` and heights. -/
theorem eq_of_slacks {offset : Rat} (hslacks : slacks gap offset boxes = slacks gap offset others)
    (hheight : boxes.map height = others.map height) : boxes = others := by
  induction boxes generalizing others offset with
  | nil =>
    rw [List.map_nil, eq_comm, List.map_eq_nil_iff] at hheight
    rw [hheight]
  | cons b below ih =>
    cases others with
    | nil => cases hheight
    | cons c rest =>
      rw [slacks, slacks, List.cons.injEq] at hslacks
      rw [List.map_cons, List.map_cons, List.cons.injEq] at hheight
      obtain ⟨top, height⟩ := b
      obtain ⟨top', height'⟩ := c
      obtain ⟨rfl, hheight⟩ := hheight
      -- under one offset, one slack tells where a box starts
      obtain rfl : top = top' := sub_left_inj.1 hslacks.1
      rw [ih hslacks.2 hheight]

/-- The slack of a box is how far it starts below the boxes above it, as deep as `depth` says. -/
theorem getElem?_slacks (gap offset : Rat) (boxes : List (Box Rat)) (i : Nat) :
    (slacks gap offset boxes)[i]?
      = boxes[i]?.map fun b => b.top - (offset + depth gap (boxes.take i)) := by
  induction boxes generalizing offset i with
  | nil => rfl
  | cons b below ih =>
    cases i with
    | zero => simp [slacks]
    | succ i =>
      rw [slacks, List.getElem?_cons_succ, ih, List.getElem?_cons_succ, List.take_succ_cons,
        depth_cons]
      congr 1
      funext c
      ring

/-- `accumulate op` applies `op` to all numbers up to a position. -/
theorem getElem?_accumulate (op : Rat → Rat → Rat) (start : Rat) (xs : List Rat) (i : Nat) :
    (accumulate op start xs)[i]? = xs[i]?.map fun _ => (xs.take (i + 1)).foldl op start := by
  induction xs generalizing start i with
  | nil => rfl
  | cons x xs ih =>
    cases i with
    | zero => rfl
    | succ i =>
      rw [accumulate, List.getElem?_cons_succ, ih, List.getElem?_cons_succ, List.take_succ_cons,
        List.foldl_cons]

/-! ### Places in closed form -/

/-- How far down a box is pushed: at least to the end of the boxes above it, stacked from zero on,
and for each box from the top down to itself to the end of those between the two, stacked from
where that box starts. -/
def pushedTop (gap : Rat) (boxes : List (Box Rat)) (i : Nat) : Rat :=
  ((boxes.take (i + 1)).mapIdx fun j b => b.top + depth gap ((boxes.take i).drop j)).foldl max
    (depth gap (boxes.take i))

/-- Where a box is packed: as far down as it is pushed, but so that it and the boxes below it have
room in the extent, and in any case not above the end of the boxes above it. -/
def packedTop (gap extent : Rat) (boxes : List (Box Rat)) (i : Nat) : Rat :=
  max (depth gap (boxes.take i))
    (min (pushedTop gap boxes i) (extent - required gap (boxes.drop i)))

/-- `depth` adds up over two parts of boxes. -/
theorem depth_take_add (gap : Rat) (boxes : List (Box Rat)) {i j : Nat} (h : j ≤ i) :
    depth gap (boxes.take j) + depth gap ((boxes.take i).drop j) = depth gap (boxes.take i) := by
  rw [← depth_append]
  conv_rhs => rw [← List.take_append_drop j (boxes.take i), List.take_take, min_eq_left h]

/-- `required` is the `depth` of the first boxes and `required` of the rest. -/
theorem depth_take_add_required (gap : Rat) {i : Nat} (h : i < boxes.length) :
    depth gap (boxes.take i) + required gap (boxes.drop i) = required gap boxes := by
  have hne : boxes ≠ [] := List.ne_nil_of_length_pos (by omega)
  have hne' : boxes.drop i ≠ [] := by simpa using h
  -- both sides lack the gap below the last box
  have hwhole := depth_append gap (boxes.take i) (boxes.drop i)
  rw [List.take_append_drop, depth_eq_required_add hne, depth_eq_required_add hne'] at hwhole
  linarith

/-- `pushedTop` is the greatest slack up to a box, below the boxes above it. -/
theorem pushedTop_eq (gap : Rat) (boxes : List (Box Rat)) (i : Nat) :
    pushedTop gap boxes i
      = depth gap (boxes.take i) + ((slacks gap 0 boxes).take (i + 1)).foldl max 0 := by
  have hlist : ((boxes.take (i + 1)).mapIdx fun j b => b.top + depth gap ((boxes.take i).drop j))
      = ((slacks gap 0 boxes).take (i + 1)).map (depth gap (boxes.take i) + ·) := by
    apply List.ext_getElem?
    intro j
    rw [List.getElem?_mapIdx, List.getElem?_map, List.getElem?_take, List.getElem?_take]
    by_cases hj : j < i + 1
    · rw [if_pos hj, if_pos hj, getElem?_slacks, Option.map_map]
      congr 1
      funext b
      have hsum := depth_take_add gap boxes (Nat.le_of_lt_succ hj)
      show b.top + _ = _ + (b.top - (0 + _))
      linarith
    · rw [if_neg hj, if_neg hj]
      rfl
  -- the greatest of numbers that are all raised by one amount is raised by it
  have hshift : ∀ (raise start : Rat) (xs : List Rat),
      (xs.map (raise + ·)).foldl max (raise + start) = raise + xs.foldl max start := by
    intro raise start xs
    rw [List.foldl_map]
    exact List.foldl_hom (raise + ·) fun x y => max_add_add_left raise x y
  rw [pushedTop, hlist, ← hshift, add_zero]

/-- `pack` starts each box at its `packedTop`. -/
theorem top_pack (gap extent : Rat) (boxes : List (Box Rat)) :
    (pack gap extent boxes).map top
      = (List.range boxes.length).map (packedTop gap extent boxes) := by
  apply List.ext_getElem?
  intro i
  by_cases hi : i < boxes.length
  · have hi' : i < (pack gap extent boxes).length := by simpa using hi
    -- what stands above a box is as deep as before, since heights are kept
    have hdepth : depth gap ((pack gap extent boxes).take i) = depth gap (boxes.take i) := by
      rw [depth, depth, List.map_take, map_height_pack, ← List.map_take]
    have hslack : (pack gap extent boxes)[i].top - depth gap (boxes.take i)
        = max 0 (min (extent - required gap boxes)
            (((slacks gap 0 boxes).take (i + 1)).foldl max 0)) := by
      have hget := congrArg (·[i]?) (slacks_pack gap extent boxes)
      simp only [getElem?_slacks, List.getElem?_map, getElem?_accumulate, hdepth, zero_add,
        List.getElem?_eq_getElem hi, List.getElem?_eq_getElem hi'] at hget
      exact Option.some.inj hget
    have hroom : depth gap (boxes.take i) + (extent - required gap boxes)
        = extent - required gap (boxes.drop i) := by
      rw [← depth_take_add_required gap hi]
      ring
    have hplace : (pack gap extent boxes)[i].top = packedTop gap extent boxes i := by
      rw [packedTop, pushedTop_eq, eq_add_of_sub_eq' hslack, ← max_add_add_left,
        ← min_add_add_left, add_zero, hroom, min_comm]
    rw [List.getElem?_map, List.getElem?_map, List.getElem?_range hi,
      List.getElem?_eq_getElem hi']
    exact congrArg some hplace
  · rw [List.getElem?_eq_none (by simpa using hi), List.getElem?_eq_none (by simpa using hi)]

/-- `pack` is idempotent. -/
theorem pack_pack (gap extent : Rat) (boxes : List (Box Rat)) :
    pack gap extent (pack gap extent boxes) = pack gap extent boxes := by
  obtain ⟨free, hfree⟩ : ∃ free, free = extent - required gap boxes := ⟨_, rfl⟩
  have hrequired : required gap (pack gap extent boxes) = required gap boxes :=
    required_congr gap (map_height_pack gap extent boxes)
  have hasc : (slacks gap 0 (pack gap extent boxes)).Pairwise (· ≤ ·) := by
    rw [slacks_pack, List.pairwise_map]
    exact (pairwise_accumulate_max 0 _).imp fun hle => max_le_max_left 0 (min_le_min_left _ hle)
  have hslacks : slacks gap 0 (pack gap extent (pack gap extent boxes))
      = slacks gap 0 (pack gap extent boxes) := by
    -- slacks that ascend from zero on and leave room are not changed by either sweep
    rw [slacks_pack, accumulate_max_of_ascending 0 hasc, hrequired, slacks_pack, ← hfree,
      List.map_map, List.map_map]
    refine List.map_congr_left fun slack _ => ?_
    show max 0 (min free (max 0 (max 0 (min free slack)))) = max 0 (min free slack)
    rw [max_eq_right (le_max_left 0 _), min_max_distrib_left, ← min_assoc, min_self, ← max_assoc,
      max_eq_left (min_le_right free 0)]
  exact eq_of_slacks hslacks (map_height_pack ..)

end Box

/-! ## Layers -/

namespace Diagram

variable {α : Type} [Scalar α] {d : Diagram α} {config : Config α} {layer : List NodeId}

/-- `packed` leaves a layer whose boxes are packed as it is. -/
theorem packed_eq_self (hnodup : layer.Nodup) (hnodes : ∀ id ∈ layer, d.hasNode id)
    (h : Box.pack config.nodePadding config.height (layer.map d.box) = layer.map d.box) :
    packed config d layer = d := by
  have hboxes := map_box_packed config d hnodup hnodes
  rw [h, List.map_inj_left] at hboxes
  refine eq_of_flattened (flattened_packed config d layer) fun id => ?_
  by_cases hid : id ∈ layer
  · exact congrArg Box.top (hboxes id hid)
  · exact congrArg Box.top (box_packed_of_not_mem config d hid)

end Diagram

/-! ## Columns -/

namespace Columns

/-- What settling makes of columns: the nodes of each layer are sorted by their upper edges, and
then each of them starts where its box is packed. -/
structure Settles (config : Config Rat) (c e : Columns Rat) : Prop where
  /-- The layers are sorted from the top down, and nodes that start at one height keep their
  order. -/
  sorts : List.Forall₂
    (StableSort fun a b => decide ((c.diagram.node a).y ≤ (c.diagram.node b).y)) c.layers e.layers
  /-- Each node starts at the `packedTop` of its box among those of its layer. -/
  y_eq : ∀ order ∈ e.layers, ∀ (i : Nat) (hi : i < order.length),
    (e.diagram.node order[i]).y
      = Box.packedTop config.nodePadding config.height (order.map c.diagram.box) i
  /-- `e.diagram` differs from `c.diagram` in upper edges alone. -/
  flattened : e.diagram.flattened = c.diagram.flattened
  /-- Nodes that `c.layers` does not hold stay as they are. -/
  node_eq : ∀ id ∉ c.layers.flatten, e.diagram.node id = c.diagram.node id

variable {c : Columns Rat} {config : Config Rat} {order : List NodeId}

/-- `fromTop` keeps the nodes of layers. -/
theorem flatten_fromTop_perm (c : Columns Rat) :
    (c.layers.map c.diagram.fromTop).flatten.Perm c.layers.flatten := by
  apply List.Perm.flatten_congr
  rw [List.forall₂_map_left_iff]
  exact List.forall₂_same.2 fun layer _ => List.mergeSort_perm layer _

section Settled

variable (hnodup : c.layers.flatten.Nodup)
  (hnodes : ∀ id ∈ c.layers.flatten, c.diagram.hasNode id)
include hnodup hnodes

/-- `settled` puts the nodes of each layer where `Box.pack` puts their boxes. -/
theorem map_box_settled (h : order ∈ (c.settled config).layers) :
    order.map (c.settled config).diagram.box
      = Box.pack config.nodePadding config.height (order.map c.diagram.box) := by
  have hperm := c.flatten_fromTop_perm
  apply Diagram.map_box_foldl_packed config c.diagram (hperm.nodup_iff.2 hnodup) _ h
  intro id hid
  exact hnodes id (hperm.mem_iff.1 hid)

/-- `c.settled config` sorts and packs: `c.Settles config (c.settled config)`. -/
theorem settles_settled (config : Config Rat) : c.Settles config (c.settled config) := by
  have hflat : (c.settled config).diagram.flattened = c.diagram.flattened :=
    Diagram.flattened_foldl (Diagram.flattened_packed config) _ _
  refine ⟨?_, ?_, hflat, ?_⟩
  · rw [settled, List.forall₂_map_right_iff]
    exact List.forall₂_same.2 fun layer _ => c.diagram.stableSort_fromTop layer
  · intro order horder i hi
    have htops := congrArg (List.map Box.top) (map_box_settled hnodup hnodes horder)
    rw [Box.top_pack, List.map_map, List.length_map] at htops
    have hget := congrArg (·[i]?) htops
    simp only [List.getElem?_map, List.getElem?_range hi, List.getElem?_eq_getElem hi] at hget
    exact Option.some.inj hget
  · -- a node that no layer holds is in none of the boxes that are packed
    intro id hid
    have hbox : (c.settled config).diagram.box id = c.diagram.box id := by
      apply Diagram.box_foldl_packed_of_not_mem config c.diagram
      intro layer hlayer hmem
      exact hid (c.flatten_fromTop_perm.mem_iff.1 (List.mem_flatten.2 ⟨layer, hlayer, hmem⟩))
    exact Diagram.node_eq_of_flattened hflat (congrArg Box.top hbox)

variable (hgap : 0 ≤ config.nodePadding)
  (hdy : ∀ id ∈ c.layers.flatten, 0 ≤ (c.diagram.node id).dy)
include hgap hdy

/-- `settled` leaves the nodes of a layer in order from the top if no height and no gap is
negative. -/
theorem pairwise_y_settled (h : order ∈ (c.settled config).layers) :
    order.Pairwise fun a b =>
      ((c.settled config).diagram.node a).y ≤ ((c.settled config).diagram.node b).y := by
  have hheight : ∀ b ∈ order.map c.diagram.box, 0 ≤ b.height := by
    rw [List.forall_mem_map]
    intro id hid
    exact hdy id (c.flatten_fromTop_perm.mem_iff.1 (List.mem_flatten.2 ⟨order, h, hid⟩))
  have hboxes := map_box_settled hnodup hnodes h
  have hspaced : Box.Spaced config.nodePadding (order.map (c.settled config).diagram.box) := by
    rw [hboxes]
    exact Box.spaced_pack hgap hheight
  have hpacked : ∀ b ∈ order.map (c.settled config).diagram.box, 0 ≤ b.height := by
    rw [hboxes]
    exact Box.height_nonneg_of_mem_pack hheight
  rw [Box.Spaced, List.pairwise_map] at hspaced
  rw [List.forall_mem_map] at hpacked
  refine hspaced.imp_of_mem fun {a b} ha _ hab => ?_
  -- a node that ends a gap above another one does not start below it
  have hend : ((c.settled config).diagram.box a).top
      ≤ ((c.settled config).diagram.box a).bottom + config.nodePadding :=
    (le_add_of_nonneg_right (hpacked a ha)).trans (le_add_of_nonneg_right hgap)
  exact hend.trans hab

/-- `settled` is idempotent if no height and no gap is negative. -/
theorem settled_settled : (c.settled config).settled config = c.settled config := by
  have hflat := (settles_settled hnodup hnodes config).flattened
  generalize hsettled : c.settled config = e at hflat
  have hperm : e.layers.flatten.Perm c.layers.flatten := hsettled ▸ c.flatten_fromTop_perm
  -- sorting leaves layers that are in order from the top
  have hlayers : e.layers.map e.diagram.fromTop = e.layers := by
    refine (List.map_congr_left fun order horder => ?_).trans (List.map_id e.layers)
    subst hsettled
    apply List.mergeSort_of_pairwise
    simpa using pairwise_y_settled hnodup hnodes hgap hdy horder
  -- packing leaves boxes that are packed
  have hpacked : ∀ order ∈ e.layers, Diagram.packed config e.diagram order = e.diagram := by
    intro order horder
    have hsub : order.Sublist e.layers.flatten := List.sublist_flatten_of_mem horder
    apply Diagram.packed_eq_self
    · exact hsub.nodup (hperm.nodup_iff.2 hnodup)
    · intro id hid
      rw [Diagram.hasNode_of_flattened hflat]
      exact hnodes id (hperm.mem_iff.1 (hsub.mem hid))
    · subst hsettled
      rw [map_box_settled hnodup hnodes horder, Box.pack_pack]
  have hfold : e.layers.foldl (Diagram.packed config) e.diagram = e.diagram :=
    List.foldlRecOn e.layers _ (motive := (· = e.diagram)) rfl fun d hd order horder => by
      rw [hd, hpacked order horder]
  rw [settled, hlayers, hfold]

end Settled

/-- **`settled` sorts the nodes of each layer and starts each of them at its `packedTop`, whatever
the gaps, the heights and the extent are, and changes nothing else. Where gaps and heights are not
below zero, the nodes stay in their order, and `settled` again changes nothing.** -/
theorem settled_packs (hnodup : c.layers.flatten.Nodup)
    (hnodes : ∀ id ∈ c.layers.flatten, c.diagram.hasNode id) (config : Config Rat) :
    c.Settles config (c.settled config) ∧
      (0 ≤ config.nodePadding → (∀ id ∈ c.layers.flatten, 0 ≤ (c.diagram.node id).dy) →
        (∀ order ∈ (c.settled config).layers, order.Pairwise fun a b =>
          ((c.settled config).diagram.node a).y ≤ ((c.settled config).diagram.node b).y) ∧
        (c.settled config).settled config = c.settled config) := by
  refine ⟨settles_settled hnodup hnodes config, fun hgap hdy => ⟨?_, ?_⟩⟩
  · intro order horder
    exact pairwise_y_settled hnodup hnodes hgap hdy horder
  · exact settled_settled hnodup hnodes hgap hdy

/-- A layer of three nodes, not in their order, the last of which is too far down. -/
def lowered : Columns Rat where
  diagram := { Diagram.empty with
    nodes := #[{ Node.unplaced "a" with y := 0, dy := 20 },
      { Node.unplaced "b" with y := 70, dy := 20 }, { Node.unplaced "c" with y := 95, dy := 20 }] }
  layers := [[⟨2⟩, ⟨0⟩, ⟨1⟩]]

/-- Settings with an extent that the three nodes fit. -/
def roomyConfig : Config Rat := { Config.standard with height := 100, nodePadding := 10 }

/-- The lowest node of `lowered` is moved up into the extent, and the one above it gives way. -/
theorem settled_packs_lowered :
    lowered.layers.flatten.Nodup ∧ (∀ id ∈ lowered.layers.flatten, lowered.diagram.hasNode id) ∧
      0 ≤ roomyConfig.nodePadding ∧
      (∀ id ∈ lowered.layers.flatten, 0 ≤ (lowered.diagram.node id).dy) ∧
      (lowered.settled roomyConfig).layers = [[⟨0⟩, ⟨1⟩, ⟨2⟩]] ∧
      (lowered.settled roomyConfig).diagram.nodes.toList.map Node.y = [0, 50, 80] ∧
      lowered.Settles roomyConfig (lowered.settled roomyConfig) ∧
      (lowered.settled roomyConfig).settled roomyConfig = lowered.settled roomyConfig := by
  have hnodup : lowered.layers.flatten.Nodup := by decide +kernel
  have hnodes : ∀ id ∈ lowered.layers.flatten, lowered.diagram.hasNode id := by decide +kernel
  have hgap : 0 ≤ roomyConfig.nodePadding := by decide +kernel
  have hdy : ∀ id ∈ lowered.layers.flatten, 0 ≤ (lowered.diagram.node id).dy := by
    decide +kernel
  obtain ⟨hsettles, hstays⟩ := settled_packs hnodup hnodes roomyConfig
  refine ⟨hnodup, hnodes, hgap, hdy, ?_, ?_, hsettles, (hstays hgap hdy).2⟩
  -- sorting by merging is not evaluated by the kernel, sorting by insertion is
  · rw [settled, Diagram.fromTop_eq_insertionSort]
    decide +kernel
  · rw [settled, Diagram.fromTop_eq_insertionSort]
    decide +kernel

end Columns

end SankeyDiagram
