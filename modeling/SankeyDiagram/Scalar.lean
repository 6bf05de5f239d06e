/-! # Scalars

The numbers that a layout is computed with. Every stage of the layout is written once, over the
operations collected here, so that it can be run on binary64 words and reasoned about on exact
rationals.

## Main definitions

* **`Scalar`** the operations on coordinates and flow values: arithmetic, the two order tests, the
  embedding of counts, the neutral summand, finiteness, and a total order for sorting.
* **`Scalar.sum`** the sum of a list from left to right.
* **`Scalar.larger`**, **`Scalar.smaller`** the larger and the smaller of two scalars, passing over
  one that compares with nothing.
-/

namespace SankeyDiagram

/-- The operations of a number type in which diagrams are laid out. The tests `<` and `≤` may fail
both ways; `precedes` never does, and is what sorting uses. -/
class Scalar (α : Type) extends
    Add α, Sub α, Mul α, Div α, Zero α, One α, NatCast α, OfScientific α, LT α, LE α where
  /-- The test `<` can be decided. -/
  decidableLT : DecidableLT α
  /-- The test `≤` can be decided. -/
  decidableLE : DecidableLE α
  /-- What a sum of nothing is: adding it changes no scalar, not even the sign of a zero. -/
  neutral : α
  /-- Whether the scalar is an ordinary number. -/
  isFinite : α → Bool
  /-- Whether the first scalar may stand before the second in sorted order. -/
  precedes : α → α → Bool
  /-- Of two scalars one may stand before the other. -/
  precedes_total : ∀ a b, precedes a b || precedes b a
  /-- Sorted order is transitive. -/
  precedes_trans : ∀ a b c, precedes a b → precedes b c → precedes a c

namespace Scalar

variable {α : Type} [Scalar α]

instance : DecidableLT α := decidableLT

instance : DecidableLE α := decidableLE

/-- `precedes a a`: a scalar may stand before itself. -/
@[simp] theorem precedes_refl (a : α) : precedes a a := by
  simpa using precedes_total a a

/-- The sum of a list, added up from left to right onto the neutral summand. -/
def sum (xs : List α) : α :=
  xs.foldl (· + ·) neutral

/-- `sum [] = neutral`: the sum of no scalars is where all sums start. -/
@[simp] theorem sum_nil : sum ([] : List α) = neutral := rfl

/-- `sum (xs ++ [x]) = sum xs + x`: the last summand is added last. -/
theorem sum_append_singleton (xs : List α) (x : α) : sum (xs ++ [x]) = sum xs + x := by
  simp [sum]

/-- The larger of two scalars, and the second of two that are `≤` each other; one that is not even
`≤` itself gives way to the other. -/
def larger (a b : α) : α :=
  if a ≤ b then b else if a ≤ a then a else b

/-- The smaller of two scalars; one that is not even `≤` itself gives way to the other. -/
def smaller (a b : α) : α :=
  if a ≤ b then a else if b ≤ b then b else a

end Scalar

end SankeyDiagram
