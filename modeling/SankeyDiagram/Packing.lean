import SankeyDiagram.Scalar

/-! # Packing

Boxes one below the other, kept apart by a gap and inside of an extent from zero downward.

## Main definitions

* **`Box`** an upper edge and a height.
* **`Box.pushDown`** moves boxes down until each clears the one above it.
* **`Box.pullUp`** moves boxes up until each clears the one below it.
* **`Box.pack`** both, so that boxes that fit the extent stay inside of it.
-/

namespace SankeyDiagram

/-- A box in a column. -/
structure Box (α : Type) where
  /-- The upper edge. -/
  top : α
  /-- The height. -/
  height : α
deriving DecidableEq, Repr

namespace Box

variable {α : Type} [Scalar α]

/-- The lower edge. -/
def bottom (b : Box α) : α := b.top + b.height

/-- The box with another upper edge. -/
def moveTo (b : Box α) (top : α) : Box α := { b with top }

/-- Moves boxes down, from the top one on, until each starts at a limit or below and leaves a gap
to the next. -/
def pushDown (gap limit : α) : List (Box α) → List (Box α)
  | [] => []
  | b :: below =>
    let moved := if b.top < limit then b.moveTo limit else b
    moved :: pushDown gap (moved.bottom + gap) below

/-- Moves boxes up, from the bottom one on, until each leaves a gap above a limit and the next
above that. -/
def pullUp (gap limit : α) : List (Box α) → List (Box α)
  | [] => []
  | b :: above =>
    let excess := b.bottom + gap - limit
    let moved := if 0 < excess then b.moveTo (b.top - excess) else b
    moved :: pullUp gap moved.top above

/-- Moves boxes up whose last one ends below the extent: the last one by what it exceeds, the
others as far as they have to give way. If that takes the first one above zero, all are moved
down again. -/
def pullBack (gap excess : α) (last : Box α) (above : List (Box α)) : List (Box α) :=
  let lowest := last.moveTo (last.top - excess)
  let pulled := (lowest :: pullUp gap lowest.top above).reverse
  match pulled with
  | [] => []
  | first :: _ => if first.top < 0 then pushDown gap 0 pulled else pulled

/-- Boxes in their order, with gaps and inside of the extent; boxes that do not fit start at zero
and end below the extent. -/
def pack (gap extent : α) (boxes : List (Box α)) : List (Box α) :=
  let pushed := pushDown gap 0 boxes
  match pushed.reverse with
  | [] => []
  | last :: above =>
    let excess := last.bottom - extent
    if excess ≤ 0 then pushed else pullBack gap excess last above

/-- `pushDown` keeps the number of boxes. -/
@[simp] theorem length_pushDown (gap limit : α) (boxes : List (Box α)) :
    (pushDown gap limit boxes).length = boxes.length := by
  induction boxes generalizing limit with
  | nil => rfl
  | cons b below ih => simp [pushDown, ih]

/-- `pullUp` keeps the number of boxes. -/
@[simp] theorem length_pullUp (gap limit : α) (boxes : List (Box α)) :
    (pullUp gap limit boxes).length = boxes.length := by
  induction boxes generalizing limit with
  | nil => rfl
  | cons b above ih => simp [pullUp, ih]

/-- `pullBack` gives back the last box and all those above it. -/
@[simp] theorem length_pullBack (gap excess : α) (last : Box α) (above : List (Box α)) :
    (pullBack gap excess last above).length = above.length + 1 := by
  unfold pullBack
  simp only
  split
  · rename_i h
    simp at h
  · split <;> simp

/-- `pack` keeps the number of boxes. -/
@[simp] theorem length_pack (gap extent : α) (boxes : List (Box α)) :
    (pack gap extent boxes).length = boxes.length := by
  unfold pack
  simp only
  have hp : (pushDown gap 0 boxes).length = boxes.length := length_pushDown ..
  split
  · rename_i h
    have := congrArg List.length h
    simp only [List.length_reverse, hp] at this
    simpa using this.symm
  · rename_i last above h
    have hl := congrArg List.length h
    simp only [List.length_reverse, List.length_cons, hp] at hl
    split <;> simp [hl]

end Box

end SankeyDiagram
