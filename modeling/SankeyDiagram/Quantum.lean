import SankeyDiagram.Scalar.Binary64

/-! # Quanta

Coordinates as whole numbers of millionths, so that fingerprints do not depend on how numbers are
written. Halves are rounded away from zero, and the result is held in 64 bits.

## Main definitions

* **`Quantum.roundAway`** a rational number rounded to a whole one.
* **`Quantum.ofRat`** the quanta of a rational number.
* **`Quantum.ofBinary64`** the quanta of a word.
-/

namespace SankeyDiagram

namespace Quantum

/-- How many quanta make one. -/
def perUnit : Nat := 1000000

/-- The least number of quanta, minus two to the power of 63. -/
def least : Int := -9223372036854775808

/-- The greatest number of quanta, one less than two to the power of 63. -/
def greatest : Int := 9223372036854775807

/-- The nearest number of quanta to a whole number. -/
def clamp (n : Int) : Int :=
  max least (min greatest n)

/-- A rational number rounded to a whole one, halves away from zero. -/
def roundAway (r : Rat) : Int :=
  if r < 0 then -(-r + 1 / 2).floor else (r + 1 / 2).floor

/-- The quanta of a rational number. -/
def ofRat (r : Rat) : Int :=
  clamp (roundAway (r * perUnit))

/-- The quanta of a word, with the product rounded to a word first. The infinities have the
extreme numbers of quanta, and what is not a number has the least. -/
def ofBinary64 (x : Binary64) : Int :=
  let scaled := x * ((perUnit : Nat) : Binary64)
  if x.isNaN then least
  else if scaled.isFinite then clamp (roundAway scaled.toRat)
  else if scaled.isNegative then least
  else greatest

end Quantum

end SankeyDiagram
