import SankeyDiagram.Scalar

/-! # Exact scalars

The rational numbers as scalars: every operation is exact and every number is finite.
-/

namespace SankeyDiagram

/-- Rational numbers, with sorting by `≤`. -/
instance : Scalar Rat where
  zero := 0
  one := 1
  decidableLT := inferInstance
  decidableLE := inferInstance
  neutral := 0
  isFinite _ := true
  precedes a b := decide (a ≤ b)
  precedes_total a b := by simpa using Rat.le_total
  precedes_trans a b c hab hbc := by
    simpa using Rat.le_trans (by simpa using hab) (by simpa using hbc)

namespace Scalar

/-- In exact numbers sums start at `0`. -/
@[simp] theorem neutral_rat : (neutral : Rat) = 0 := rfl

/-- All exact numbers are ordinary ones. -/
@[simp] theorem isFinite_rat (a : Rat) : isFinite a = true := rfl

/-- In exact numbers `precedes` is `≤`. -/
@[simp] theorem precedes_rat (a b : Rat) : precedes a b = decide (a ≤ b) := rfl

end Scalar

end SankeyDiagram
