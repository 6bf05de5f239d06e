import Mathlib.Algebra.BigOperators.Group.List.Basic
import Mathlib.Algebra.Order.Field.Rat
import Mathlib.Data.List.Induction
import Mathlib.Tactic.Linarith
import Mathlib.Tactic.Ring
import SankeyDiagram.Packing
import SankeyDiagram.Scalar.Exact

/-! # Packed boxes

Where packing puts boxes, in exact numbers. What counts is how far each box starts below the place
that the boxes above leave it when all of them are stacked without slack. In these coordinates
pushing down takes the greatest slack so far, pulling up the least one, and packing both.

* **`Box.slacks`** the slack of every box; **`Box.depth`** the height that boxes take up with a
  gap below each.
* **`Box.accumulate`** what an operation makes of the numbers of a list so far.
* **`Box.slacks_pushDown`**, **`Box.slacksUp_pullUp`** the two passes in these coordinates.
* **`Box.slacks_pack`** the slacks of packed boxes.
* **`Box.Spaced`**, **`Box.Tight`** boxes apart by a gap, and boxes without slack.
* **`Box.spaced_pack`**, **`Box.top_pack_nonneg`**, **`Box.bottom_pack_le`**, **`Box.tight_pack`**
  what packing achieves. -/

namespace SankeyDiagram

namespace Box

/-! ## Heights -/

section Heights

variable {α : Type} [Scalar α]

omit [Scalar α] in
/-- `moveTo` keeps the height. -/
@[simp] theorem height_moveTo (b : Box α) (top : α) : (b.moveTo top).height = b.height := rfl

/-- `pushDown` keeps heights. -/
@[simp] theorem map_height_pushDown (gap limit : α) (boxes : List (Box α)) :
    (pushDown gap limit boxes).map height = boxes.map height := by
  induction boxes generalizing limit with
  | nil => rfl
  | cons b below ih =>
    rw [pushDown, List.map_cons, List.map_cons, ih]
    by_cases h : b.top < limit
    · rw [if_pos h, height_moveTo]
    · rw [if_neg h]

/-- `pullUp` keeps heights. -/
@[simp] theorem map_height_pullUp (gap limit : α) (boxes : List (Box α)) :
    (pullUp gap limit boxes).map height = boxes.map height := by
  induction boxes generalizing limit with
  | nil => rfl
  | cons b above ih =>
    rw [pullUp, List.map_cons, List.map_cons, ih]
    by_cases h : 0 < b.bottom + gap - limit
    · rw [if_pos h, height_moveTo]
    · rw [if_neg h]

/-- Boxes from the top down, after the last one of them is moved up and the others gave way. -/
def pulledUp (gap excess : α) (last : Box α) (above : List (Box α)) : List (Box α) :=
  (last.moveTo (last.top - excess) :: pullUp gap (last.top - excess) above).reverse

/-- `pullBack` is `pulledUp`, pushed down again if the first box is too high. -/
theorem exists_pulledUp (gap excess : α) (last : Box α) (above : List (Box α)) :
    ∃ first rest, pulledUp gap excess last above = first :: rest ∧
      pullBack gap excess last above
        = if first.top < 0 then pushDown gap 0 (first :: rest) else first :: rest := by
  cases h : pulledUp gap excess last above with
  | nil =>
    have hlen := congrArg List.length h
    simp [pulledUp] at hlen
  | cons first rest =>
    refine ⟨first, rest, rfl, ?_⟩
    have hlist : (last.moveTo (last.top - excess) ::
        pullUp gap (last.moveTo (last.top - excess)).top above).reverse = first :: rest := h
    simp only [pullBack, hlist]

/-- `pulledUp` keeps heights, from the top down. -/
@[simp] theorem map_height_pulledUp (gap excess : α) (last : Box α) (above : List (Box α)) :
    (pulledUp gap excess last above).map height = ((last :: above).map height).reverse := by
  rw [pulledUp, List.map_reverse, List.map_cons, map_height_pullUp, height_moveTo, List.map_cons]

/-- `pullBack` keeps heights; the boxes are given from the bottom up. -/
@[simp] theorem map_height_pullBack (gap excess : α) (last : Box α) (above : List (Box α)) :
    (pullBack gap excess last above).map height = ((last :: above).map height).reverse := by
  obtain ⟨first, rest, hpulled, hback⟩ := exists_pulledUp gap excess last above
  rw [hback, ← map_height_pulledUp gap excess, hpulled]
  by_cases hfirst : first.top < 0
  · rw [if_pos hfirst, map_height_pushDown]
  · rw [if_neg hfirst]

/-- `pack` keeps heights. -/
@[simp] theorem map_height_pack (gap extent : α) (boxes : List (Box α)) :
    (pack gap extent boxes).map height = boxes.map height := by
  have hpushed : (pushDown gap 0 boxes).map height = boxes.map height := map_height_pushDown ..
  rw [pack]
  simp only
  split
  · rename_i h
    rw [List.reverse_eq_nil_iff] at h
    rw [← hpushed, h]
  · rename_i last above h
    rw [List.reverse_eq_iff] at h
    by_cases hfit : last.bottom - extent ≤ 0
    · rw [if_pos hfit, hpushed]
    · rw [if_neg hfit, map_height_pullBack, ← List.map_reverse, ← h, hpushed]

end Heights

/-! ## Numbers so far -/

/-- What an operation makes of a number and those of a list so far, one after another. -/
def accumulate (op : Rat → Rat → Rat) : Rat → List Rat → List Rat
  | _, [] => []
  | so_far, x :: xs => op so_far x :: accumulate op (op so_far x) xs

/-- `accumulate op` is `map (op so_far)` where no number takes away what a later one does. -/
theorem accumulate_eq_map {op : Rat → Rat → Rat} {xs : List Rat} (so_far : Rat)
    (h : xs.Pairwise fun x y => ∀ z, op (op z x) y = op z y) :
    accumulate op so_far xs = xs.map (op so_far) := by
  induction xs generalizing so_far with
  | nil => rfl
  | cons x xs ih =>
    rw [List.pairwise_cons] at h
    rw [accumulate, ih _ h.2, List.map_cons]
    refine congrArg _ (List.map_congr_left fun y hy => ?_)
    exact h.1 y hy so_far

/-- `accumulate max` of ascending numbers raises them to the first one. -/
theorem accumulate_max_of_ascending {xs : List Rat} (floor : Rat) (h : xs.Pairwise (· ≤ ·)) :
    accumulate max floor xs = xs.map (max floor) := by
  apply accumulate_eq_map
  refine h.imp fun hxy z => ?_
  rw [max_assoc, max_eq_right hxy]

/-- `accumulate min` of descending numbers lowers them to the first one. -/
theorem accumulate_min_of_descending {xs : List Rat} (ceiling : Rat) (h : xs.Pairwise (· ≥ ·)) :
    accumulate min ceiling xs = xs.map (min ceiling) := by
  apply accumulate_eq_map
  refine h.imp fun hxy z => ?_
  rw [min_assoc, min_eq_right hxy]

/-- No number of `accumulate max floor` is below `floor`. -/
theorem le_of_mem_accumulate_max {xs : List Rat} {floor x : Rat} (h : x ∈ accumulate max floor xs) :
    floor ≤ x := by
  induction xs generalizing floor with
  | nil => cases h
  | cons y ys ih =>
    rcases List.mem_cons.1 h with rfl | hx
    · exact le_max_left floor y
    · exact (le_max_left floor y).trans (ih hx)

/-- `accumulate max` ascends. -/
theorem pairwise_accumulate_max (floor : Rat) (xs : List Rat) :
    (accumulate max floor xs).Pairwise (· ≤ ·) := by
  induction xs generalizing floor with
  | nil => exact List.Pairwise.nil
  | cons x xs ih => exact List.pairwise_cons.2 ⟨fun y hy => le_of_mem_accumulate_max hy, ih _⟩

/-! ## Slack -/

variable {gap offset limit extent : Rat} {boxes : List (Box Rat)}

/-- The height that boxes take up with a gap below each. -/
def depth (gap : Rat) (boxes : List (Box Rat)) : Rat :=
  ((boxes.map height).map (· + gap)).sum

/-- How far below the place where the boxes above leave it each box starts, if they are stacked
from an offset on. -/
def slacks (gap : Rat) : Rat → List (Box Rat) → List Rat
  | _, [] => []
  | offset, b :: below => (b.top - offset) :: slacks gap (offset + b.height + gap) below

/-- The `slacks` of boxes from the bottom up, if they are stacked so that they end at an offset. -/
def slacksUp (gap : Rat) : Rat → List (Box Rat) → List Rat
  | _, [] => []
  | offset, b :: above =>
    (b.top - (offset - gap - b.height)) :: slacksUp gap (offset - gap - b.height) above

/-- No boxes are `0` deep. -/
@[simp] theorem depth_nil (gap : Rat) : depth gap [] = 0 := rfl

/-- A box adds its height and a gap to `depth`. -/
@[simp] theorem depth_cons (gap : Rat) (b : Box Rat) (boxes : List (Box Rat)) :
    depth gap (b :: boxes) = b.height + gap + depth gap boxes := by
  simp [depth]

/-- `depth` adds up. -/
theorem depth_append (gap : Rat) (boxes more : List (Box Rat)) :
    depth gap (boxes ++ more) = depth gap boxes + depth gap more := by
  simp [depth]

/-- `slacks` go on at the `depth` of the boxes before. -/
theorem slacks_append (gap offset : Rat) (boxes more : List (Box Rat)) :
    slacks gap offset (boxes ++ more)
      = slacks gap offset boxes ++ slacks gap (offset + depth gap boxes) more := by
  induction boxes generalizing offset with
  | nil => rw [List.nil_append, depth_nil, add_zero, slacks, List.nil_append]
  | cons b below ih =>
    have hoffset : offset + b.height + gap + depth gap below
        = offset + (b.height + gap + depth gap below) := by ring
    rw [List.cons_append, slacks, ih, hoffset, slacks, depth_cons, List.cons_append]

/-- `slacksUp` of the reverse is the reverse of `slacks`. -/
theorem slacksUp_reverse (gap offset : Rat) (boxes : List (Box Rat)) :
    slacksUp gap (offset + depth gap boxes) boxes.reverse = (slacks gap offset boxes).reverse := by
  -- the last box comes first from the bottom up
  induction boxes using List.reverseRecOn with
  | nil => rfl
  | append_singleton above b ih =>
    have hoffset : offset + depth gap (above ++ [b]) - gap - b.height
        = offset + depth gap above := by
      rw [depth_append, depth_cons, depth_nil]
      ring
    rw [List.reverse_append, List.reverse_singleton, List.singleton_append, slacksUp, hoffset, ih,
      slacks_append, List.reverse_append]
    rfl

/-- `pushDown` moves a box to the limit or leaves it where it is. -/
theorem pushDown_cons (gap limit : Rat) (b : Box Rat) (below : List (Box Rat)) :
    pushDown gap limit (b :: below)
      = b.moveTo (max limit b.top) :: pushDown gap (max limit b.top + b.height + gap) below := by
  have hmoved : (if b.top < limit then b.moveTo limit else b) = b.moveTo (max limit b.top) := by
    by_cases h : b.top < limit
    · rw [if_pos h, max_eq_left h.le]
    · rw [if_neg h, max_eq_right (not_lt.1 h)]
      rfl
  rw [pushDown]
  simp only [hmoved]
  rfl

/-- `pullUp` moves a box so that its gap ends at the limit or leaves it where it is. -/
theorem pullUp_cons (gap limit : Rat) (b : Box Rat) (above : List (Box Rat)) :
    pullUp gap limit (b :: above)
      = b.moveTo (min (limit - gap - b.height) b.top)
        :: pullUp gap (min (limit - gap - b.height) b.top) above := by
  have hexcess : b.bottom + gap - limit = b.top - (limit - gap - b.height) := by
    show b.top + b.height + gap - limit = _
    ring
  have hmoved : (if 0 < b.bottom + gap - limit
      then b.moveTo (b.top - (b.bottom + gap - limit)) else b)
        = b.moveTo (min (limit - gap - b.height) b.top) := by
    rw [hexcess, sub_sub_cancel]
    by_cases h : 0 < b.top - (limit - gap - b.height)
    · rw [if_pos h, min_eq_left (sub_pos.1 h).le]
    · rw [if_neg h, min_eq_right (sub_nonpos.1 (not_lt.1 h))]
      rfl
  rw [pullUp]
  simp only [hmoved]
  rfl

/-- The slacks after `pushDown` are the greatest so far. -/
theorem slacks_pushDown (gap offset floor : Rat) (boxes : List (Box Rat)) :
    slacks gap offset (pushDown gap (offset + floor) boxes)
      = accumulate max floor (slacks gap offset boxes) := by
  induction boxes generalizing offset floor with
  | nil => rfl
  | cons b below ih =>
    -- the limit is the place of the box raised by the greatest slack above it
    have htop : max (offset + floor) b.top = offset + max floor (b.top - offset) := by
      rw [← max_add_add_left, add_sub_cancel]
    have hnext : max (offset + floor) b.top + b.height + gap
        = offset + b.height + gap + max floor (b.top - offset) := by
      rw [htop]
      ring
    have hslack : max (offset + floor) b.top - offset = max floor (b.top - offset) := by
      rw [htop, add_sub_cancel_left]
    rw [pushDown_cons, hnext, slacks, height_moveTo, ih, slacks, accumulate]
    exact congrArg (· :: _) hslack

/-- The slacks after `pullUp` are the least so far, from the bottom up. -/
theorem slacksUp_pullUp (gap offset ceiling : Rat) (boxes : List (Box Rat)) :
    slacksUp gap offset (pullUp gap (offset + ceiling) boxes)
      = accumulate min ceiling (slacksUp gap offset boxes) := by
  induction boxes generalizing offset ceiling with
  | nil => rfl
  | cons b above ih =>
    -- the limit is the place of the box below raised by the least slack there
    have htop : min (offset + ceiling - gap - b.height) b.top
        = offset - gap - b.height + min ceiling (b.top - (offset - gap - b.height)) := by
      rw [← min_add_add_left, add_sub_cancel]
      congr 1
      ring
    rw [pullUp_cons, htop, slacksUp, height_moveTo, ih, slacksUp, accumulate]
    exact congrArg (· :: _) (add_sub_cancel_left _ _)

/-! ## Packing -/

/-- The height that boxes take up with the gaps between them. -/
def required (gap : Rat) (boxes : List (Box Rat)) : Rat :=
  (boxes.map height).sum + ((boxes.length - 1 : Nat) : Rat) * gap

/-- `depth` is `required` and the last gap. -/
theorem depth_eq_required_add (hne : boxes ≠ []) : depth gap boxes = required gap boxes + gap := by
  have hsum : depth gap boxes = (boxes.map height).sum + (boxes.length : Rat) * gap := by
    rw [depth, List.sum_map_add, List.map_id', List.map_const', List.sum_replicate,
      List.length_map, nsmul_eq_mul]
  have hlen : ((boxes.length - 1 : Nat) : Rat) + 1 = boxes.length := by
    have hpos := List.length_pos_of_ne_nil hne
    exact_mod_cast Nat.sub_add_cancel hpos
  rw [hsum, required, ← hlen]
  ring

/-- `required` reads heights alone. -/
theorem required_congr {others : List (Box Rat)} (gap : Rat)
    (h : boxes.map height = others.map height) : required gap boxes = required gap others := by
  have hlen : boxes.length = others.length := by simpa using congrArg List.length h
  rw [required, h, hlen, required]

/-- `slacksUp` of boxes starts with the slack of the last one. -/
theorem slacksUp_depth (gap : Rat) (last : Box Rat) (above : List (Box Rat))
    (hrev : boxes.reverse = last :: above) :
    slacksUp gap (depth gap boxes) (last :: above)
      = (last.bottom - required gap boxes)
        :: slacksUp gap (required gap boxes - last.height) above := by
  have hne : boxes ≠ [] := by
    rintro rfl
    cases hrev
  have hbase : depth gap boxes - gap - last.height = required gap boxes - last.height := by
    rw [depth_eq_required_add hne, add_sub_cancel_right]
  rw [slacksUp, hbase]
  refine congrArg (· :: _) ?_
  show last.top - _ = last.top + last.height - _
  ring

/-- The slacks of boxes, from the last one up. -/
theorem slacks_reverse (gap : Rat) (last : Box Rat) (above : List (Box Rat))
    (hrev : boxes.reverse = last :: above) :
    (slacks gap 0 boxes).reverse
      = (last.bottom - required gap boxes)
        :: slacksUp gap (required gap boxes - last.height) above := by
  rw [← slacksUp_depth gap last above hrev, ← hrev, ← slacksUp_reverse, zero_add]

/-- After `pulledUp`, ascending boxes have no more slack than there is room for. -/
theorem slacks_pulledUp {last : Box Rat} {above : List (Box Rat)}
    (hrev : boxes.reverse = last :: above) (hasc : (slacks gap 0 boxes).Pairwise (· ≤ ·))
    (hexcess : extent < last.bottom) :
    slacks gap 0 (pulledUp gap (last.bottom - extent) last above)
      = (slacks gap 0 boxes).map (min (extent - required gap boxes)) := by
  obtain ⟨free, hfree⟩ : ∃ free, free = extent - required gap boxes := ⟨_, rfl⟩
  have htop : last.top - (last.bottom - extent) = required gap boxes - last.height + free := by
    show last.top - (last.top + last.height - extent) = _
    rw [hfree]
    ring
  have hrequired : required gap (pulledUp gap (last.bottom - extent) last above)
      = required gap boxes := by
    apply required_congr
    rw [map_height_pulledUp, ← hrev, List.map_reverse, List.reverse_reverse]
  have hlowest : (last.moveTo (required gap boxes - last.height + free)).bottom
      - required gap boxes = free := by
    show required gap boxes - last.height + free + last.height - required gap boxes = free
    ring
  have hpulled : (pulledUp gap (last.bottom - extent) last above).reverse
      = last.moveTo (required gap boxes - last.height + free)
        :: pullUp gap (required gap boxes - last.height + free) above := by
    rw [pulledUp, List.reverse_reverse, htop]
  -- the slacks from the bottom up are lowered one after another, starting with what is free
  have hreverse : (slacks gap 0 (pulledUp gap (last.bottom - extent) last above)).reverse
      = accumulate min free (slacks gap 0 boxes).reverse := by
    rw [slacks_reverse gap _ _ hpulled, hrequired, hlowest, height_moveTo, slacksUp_pullUp,
      slacks_reverse gap _ _ hrev, accumulate, min_eq_left]
    rw [hfree]
    linarith
  have hdesc : (slacks gap 0 boxes).reverse.Pairwise (· ≥ ·) := List.pairwise_reverse.2 hasc
  rw [accumulate_min_of_descending free hdesc, List.map_reverse] at hreverse
  rw [← hfree]
  exact List.reverse_injective hreverse

/-- No slack of ascending boxes is greater than that of the last one. -/
theorem slack_le_last {last : Box Rat} {above : List (Box Rat)}
    (hrev : boxes.reverse = last :: above) (hasc : (slacks gap 0 boxes).Pairwise (· ≤ ·))
    {slack : Rat} (h : slack ∈ slacks gap 0 boxes) : slack ≤ last.bottom - required gap boxes := by
  have hdesc : (slacks gap 0 boxes).reverse.Pairwise (· ≥ ·) := List.pairwise_reverse.2 hasc
  rw [slacks_reverse gap last above hrev, List.pairwise_cons] at hdesc
  rw [← List.mem_reverse, slacks_reverse gap last above hrev, List.mem_cons] at h
  rcases h with rfl | h
  · exact le_rfl
  · exact hdesc.1 slack h

/-- After `pullBack`, ascending boxes have no more slack than there is room for, and none if they do
not fit. -/
theorem slacks_pullBack {last : Box Rat} {above : List (Box Rat)}
    (hrev : boxes.reverse = last :: above) (hasc : (slacks gap 0 boxes).Pairwise (· ≤ ·))
    (hexcess : extent < last.bottom) :
    slacks gap 0 (pullBack gap (last.bottom - extent) last above)
      = (slacks gap 0 boxes).map fun slack => max 0 (min (extent - required gap boxes) slack) := by
  obtain ⟨first, rest, hlist, hback⟩ := exists_pulledUp gap (last.bottom - extent) last above
  have hpulled := slacks_pulledUp hrev hasc hexcess
  have hmap : ((slacks gap 0 boxes).map fun slack =>
      max 0 (min (extent - required gap boxes) slack))
        = (slacks gap 0 (first :: rest)).map (max 0) := by
    rw [← hlist, hpulled, List.map_map]
    rfl
  have hasc' : (slacks gap 0 (first :: rest)).Pairwise (· ≤ ·) := by
    rw [← hlist, hpulled, List.pairwise_map]
    exact hasc.imp fun hle => min_le_min_left _ hle
  -- boxes that were pulled up too far are pushed down to zero again
  rw [hback, hmap]
  by_cases hfirst : first.top < 0
  · have hdown := slacks_pushDown gap 0 0 (first :: rest)
    rw [add_zero] at hdown
    rw [if_pos hfirst, hdown, accumulate_max_of_ascending 0 hasc']
  · -- the first slack is the least one, and the place of the first box
    rw [if_neg hfirst]
    rw [slacks, List.pairwise_cons] at hasc'
    have hnonneg : ∀ slack ∈ slacks gap 0 (first :: rest), 0 ≤ slack := by
      intro slack hslack
      rw [slacks, List.mem_cons] at hslack
      have htop : 0 ≤ first.top - 0 := by linarith
      rcases hslack with rfl | hslack
      · exact htop
      · exact htop.trans (hasc'.1 slack hslack)
    rw [List.map_congr_left fun slack hslack => max_eq_right (hnonneg slack hslack), List.map_id']

/-- **After `pack`, boxes have the greatest slack so far, but no more than there is room for, and
none if they do not fit.** -/
theorem slacks_pack (gap extent : Rat) (boxes : List (Box Rat)) :
    slacks gap 0 (pack gap extent boxes)
      = (accumulate max 0 (slacks gap 0 boxes)).map fun slack =>
          max 0 (min (extent - required gap boxes) slack) := by
  obtain ⟨pushed, hpushed⟩ : ∃ pushed, pushed = pushDown gap 0 boxes := ⟨_, rfl⟩
  have hslacks : accumulate max 0 (slacks gap 0 boxes) = slacks gap 0 pushed := by
    rw [← slacks_pushDown, add_zero, hpushed]
  have hasc : (slacks gap 0 pushed).Pairwise (· ≤ ·) := by
    rw [← hslacks]
    exact pairwise_accumulate_max 0 _
  have hrequired : required gap boxes = required gap pushed := by
    apply required_congr
    rw [hpushed, map_height_pushDown]
  -- after the first pass the slacks ascend, so that the last box tells whether all fit
  rw [hslacks, hrequired, pack, ← hpushed]
  simp only
  cases hrev : pushed.reverse with
  | nil =>
    rw [List.reverse_eq_nil_iff] at hrev
    rw [hrev]
    rfl
  | cons last above =>
    show slacks gap 0 (if last.bottom - extent ≤ 0 then pushed else _) = _
    by_cases hfit : last.bottom - extent ≤ 0
    · -- the last box has the greatest slack, and that much room there is
      have hroom : ∀ slack ∈ slacks gap 0 pushed,
          max 0 (min (extent - required gap pushed) slack) = slack := by
        intro slack hslack
        have hle := slack_le_last hrev hasc hslack
        rw [← hslacks] at hslack
        rw [min_eq_right (by linarith), max_eq_right (le_of_mem_accumulate_max hslack)]
      rw [if_pos hfit, List.map_congr_left hroom, List.map_id']
    · rw [if_neg hfit]
      exact slacks_pullBack hrev hasc (by linarith)

/-- The lower box is moved up into the extent, and the upper one gives way. -/
example : pack (1 : Rat) 10 [⟨5, 3⟩, ⟨6, 4⟩] = [⟨2, 3⟩, ⟨6, 4⟩] := by decide +kernel

/-! ## What packing achieves -/

/-- Boxes one below the other, with a gap between any two of them. -/
def Spaced (gap : Rat) (boxes : List (Box Rat)) : Prop :=
  boxes.Pairwise fun a b => a.bottom + gap ≤ b.top

/-- Boxes without slack: the first one starts at an offset, and every other one where the gap below
the one before ends. -/
def Tight (gap : Rat) : Rat → List (Box Rat) → Prop
  | _, [] => True
  | offset, b :: below => b.top = offset ∧ Tight gap (b.bottom + gap) below

/-- Boxes are `Tight` iff none has any slack. -/
theorem tight_iff (gap offset : Rat) (boxes : List (Box Rat)) :
    Tight gap offset boxes ↔ ∀ slack ∈ slacks gap offset boxes, slack = 0 := by
  induction boxes generalizing offset with
  | nil => simp [Tight, slacks]
  | cons b below ih =>
    rw [Tight, slacks, List.forall_mem_cons, sub_eq_zero, ih]
    refine and_congr_right fun htop => ?_
    show (∀ slack ∈ slacks gap (b.top + b.height + gap) below, slack = 0) ↔ _
    rw [htop]

/-- A box is at least as far down as its slack. -/
theorem exists_slack_le_top {b : Box Rat} (hgap : 0 ≤ gap) (hheight : ∀ b ∈ boxes, 0 ≤ b.height)
    (offset : Rat) (hb : b ∈ boxes) :
    ∃ slack ∈ slacks gap offset boxes, offset + slack ≤ b.top := by
  induction boxes generalizing offset with
  | nil => cases hb
  | cons c below ih =>
    rw [List.forall_mem_cons] at hheight
    rw [slacks]
    rcases List.mem_cons.1 hb with rfl | hb
    · exact ⟨b.top - offset, List.mem_cons_self, by linarith⟩
    · obtain ⟨slack, hslack, hle⟩ := ih hheight.2 (offset + c.height + gap) hb
      exact ⟨slack, List.mem_cons_of_mem _ hslack, by linarith [hheight.1]⟩

/-- `depth` is not negative. -/
theorem depth_nonneg (hgap : 0 ≤ gap) (hheight : ∀ b ∈ boxes, 0 ≤ b.height) :
    0 ≤ depth gap boxes := by
  induction boxes with
  | nil => exact le_rfl
  | cons b below ih =>
    rw [List.forall_mem_cons] at hheight
    rw [depth_cons]
    have hrest := ih hheight.2
    linarith [hheight.1]

/-- A box is at most as far down as its slack. -/
theorem exists_bottom_le_slack {b : Box Rat} (hgap : 0 ≤ gap) (hheight : ∀ b ∈ boxes, 0 ≤ b.height)
    (offset : Rat) (hb : b ∈ boxes) :
    ∃ slack ∈ slacks gap offset boxes, b.bottom + gap ≤ offset + depth gap boxes + slack := by
  induction boxes generalizing offset with
  | nil => cases hb
  | cons c below ih =>
    rw [List.forall_mem_cons] at hheight
    rw [slacks, depth_cons]
    rcases List.mem_cons.1 hb with rfl | hb
    · have hrest := depth_nonneg hgap hheight.2
      refine ⟨b.top - offset, List.mem_cons_self, ?_⟩
      show b.top + b.height + gap ≤ _
      linarith
    · obtain ⟨slack, hslack, hle⟩ := ih hheight.2 (offset + c.height + gap) hb
      exact ⟨slack, List.mem_cons_of_mem _ hslack, by linarith⟩

/-- Boxes with ascending slacks are `Spaced`. -/
theorem spaced_of_ascending (hgap : 0 ≤ gap) (hheight : ∀ b ∈ boxes, 0 ≤ b.height) {offset : Rat}
    (hasc : (slacks gap offset boxes).Pairwise (· ≤ ·)) : Spaced gap boxes := by
  induction boxes generalizing offset with
  | nil => exact List.Pairwise.nil
  | cons b below ih =>
    rw [List.forall_mem_cons] at hheight
    rw [slacks, List.pairwise_cons] at hasc
    -- a box further down has more slack, and the first box with its gap above its place
    refine List.pairwise_cons.2 ⟨fun c hc => ?_, ih hheight.2 hasc.2⟩
    obtain ⟨slack, hslack, hle⟩ := exists_slack_le_top hgap hheight.2 (offset + b.height + gap) hc
    have hmore := hasc.1 slack hslack
    show b.top + b.height + gap ≤ c.top
    linarith

/-- `pack` leaves no negative heights if there were none. -/
theorem height_nonneg_of_mem_pack (hheight : ∀ b ∈ boxes, 0 ≤ b.height) :
    ∀ b ∈ pack gap extent boxes, 0 ≤ b.height := by
  intro b hb
  have hmem : b.height ∈ boxes.map height := by
    rw [← map_height_pack gap extent boxes]
    exact List.mem_map_of_mem hb
  obtain ⟨c, hc, heq⟩ := List.mem_map.1 hmem
  rw [← heq]
  exact hheight c hc

/-- A box of `pack` has no negative slack, and no more than there is room for. -/
theorem slack_of_mem_pack {slack : Rat} (h : slack ∈ slacks gap 0 (pack gap extent boxes)) :
    0 ≤ slack ∧ slack ≤ max 0 (extent - required gap boxes) := by
  rw [slacks_pack] at h
  obtain ⟨pushed, -, rfl⟩ := List.mem_map.1 h
  exact ⟨le_max_left _ _, max_le_max_left 0 (min_le_left _ _)⟩

/-- Boxes of `pack` start at zero or below. -/
theorem top_pack_nonneg (hgap : 0 ≤ gap) (hheight : ∀ b ∈ boxes, 0 ≤ b.height) {b : Box Rat}
    (hb : b ∈ pack gap extent boxes) : 0 ≤ b.top := by
  obtain ⟨slack, hslack, hle⟩ :=
    exists_slack_le_top hgap (height_nonneg_of_mem_pack hheight) 0 hb
  have hnonneg := (slack_of_mem_pack hslack).1
  linarith

/-- Boxes of `pack` are `Spaced`. -/
theorem spaced_pack (hgap : 0 ≤ gap) (hheight : ∀ b ∈ boxes, 0 ≤ b.height) :
    Spaced gap (pack gap extent boxes) := by
  apply spaced_of_ascending hgap (height_nonneg_of_mem_pack hheight)
  rw [slacks_pack, List.pairwise_map]
  refine (pairwise_accumulate_max 0 _).imp fun hle => ?_
  exact max_le_max_left 0 (min_le_min_left _ hle)

/-- Boxes of `pack` end in the extent, or where all boxes stacked without slack do. -/
theorem bottom_pack_le (hgap : 0 ≤ gap) (hheight : ∀ b ∈ boxes, 0 ≤ b.height) {b : Box Rat}
    (hb : b ∈ pack gap extent boxes) : b.bottom ≤ max (required gap boxes) extent := by
  obtain ⟨slack, hslack, hle⟩ :=
    exists_bottom_le_slack hgap (height_nonneg_of_mem_pack hheight) 0 hb
  have hroom := (slack_of_mem_pack hslack).2
  have hrequired : required gap (pack gap extent boxes) = required gap boxes :=
    required_congr gap (map_height_pack gap extent boxes)
  rw [depth_eq_required_add (List.ne_nil_of_mem hb), hrequired] at hle
  calc
    b.bottom ≤ required gap boxes + slack := by linarith
    _ ≤ required gap boxes + max 0 (extent - required gap boxes) := by linarith
    _ = max (required gap boxes) extent := by
      rw [← max_add_add_left, add_zero, add_sub_cancel]

/-- Boxes that do not fit are `Tight` after `pack`. -/
theorem tight_pack (hover : extent < required gap boxes) :
    Tight gap 0 (pack gap extent boxes) := by
  rw [tight_iff]
  intro slack hslack
  obtain ⟨hnonneg, hle⟩ := slack_of_mem_pack hslack
  rw [max_eq_left (by linarith)] at hle
  exact le_antisymm hle hnonneg

/-- The last of `Tight` boxes ends at `required`. -/
theorem Tight.bottom_eq {last : Box Rat} (h : Tight gap 0 boxes)
    (hlast : boxes.getLast? = some last) : last.bottom = required gap boxes := by
  rw [List.getLast?_eq_head?_reverse, List.head?_eq_some_iff] at hlast
  obtain ⟨above, hrev⟩ := hlast
  have hslack : last.bottom - required gap boxes ∈ slacks gap 0 boxes := by
    rw [← List.mem_reverse, slacks_reverse gap last above hrev]
    exact List.mem_cons_self
  exact sub_eq_zero.1 ((tight_iff gap 0 boxes).1 h _ hslack)

end Box

end SankeyDiagram
