import SankeyDiagram.Scalar

/-! # Binary64 words

The 64-bit words of binary floating point as scalars. A word keeps the sign of a value that is not
a number, which sorted order shows.

## Main definitions

* **`Binary64`** a word.
* **`Binary64.toFloat`**, **`Binary64.ofFloat`** passage to the arithmetic of `Float`.
* **`Binary64.orderKey`** the position of a word in sorted order.
* **`Binary64.significand`**, **`Binary64.exponent`** the magnitude of a finite word as
  `significand * 2 ^ exponent`.
-/

namespace SankeyDiagram

/-- A binary64 word. -/
structure Binary64 where
  /-- Sign, eleven bits of exponent and fifty-two of fraction, from the highest bit down. -/
  bits : UInt64
deriving DecidableEq, Repr

namespace Binary64

/-- The value of a word, with all words that are not numbers made one. -/
def toFloat (x : Binary64) : Float :=
  Float.ofBits x.bits

/-- The word without its sign. -/
def magnitudeBits (x : Binary64) : UInt64 :=
  x.bits &&& 0x7FFFFFFFFFFFFFFF

/-- The sign bit. -/
def isNegative (x : Binary64) : Bool :=
  x.bits ≥ 0x8000000000000000

/-- Whether the word is not a number. -/
def isNaN (x : Binary64) : Bool :=
  x.magnitudeBits > 0x7FF0000000000000

/-- Whether the word is a number other than the two infinities. -/
def isFinite (x : Binary64) : Bool :=
  x.magnitudeBits < 0x7FF0000000000000

/-- The positive value that is not a number. -/
def nan : Binary64 := ⟨0x7FF8000000000000⟩

/-- What an operation without a value yields: the negative value that is not a number. -/
def invalid : Binary64 := ⟨0xFFF8000000000000⟩

/-- Positive infinity. -/
def infinity : Binary64 := ⟨0x7FF0000000000000⟩

/-- The same word with the other sign. -/
def neg (x : Binary64) : Binary64 :=
  ⟨x.bits ^^^ 0x8000000000000000⟩

instance : Neg Binary64 := ⟨neg⟩

/-- The word of a computed value. -/
def ofFloat (r : Float) : Binary64 :=
  if r.isNaN then invalid else ⟨r.toBits⟩

/-- The word of a float as it stands. -/
def exactly (r : Float) : Binary64 :=
  ⟨r.toBits⟩

/-- An operation of two operands: an operand that is not a number is the result, the left one
first, and otherwise the rounded value is. -/
@[inline] def combine (op : Float → Float → Float) (a b : Binary64) : Binary64 :=
  if a.isNaN then a else if b.isNaN then b else ofFloat (op a.toFloat b.toFloat)

instance : Add Binary64 := ⟨combine (· + ·)⟩

instance : Sub Binary64 := ⟨combine (· - ·)⟩

instance : Mul Binary64 := ⟨combine (· * ·)⟩

instance : Div Binary64 := ⟨combine (· / ·)⟩

instance : Zero Binary64 := ⟨exactly 0⟩

instance : One Binary64 := ⟨exactly 1⟩

instance : NatCast Binary64 := ⟨fun n => exactly (Float.ofNat n)⟩

instance : OfScientific Binary64 := ⟨fun m s e => exactly (OfScientific.ofScientific m s e)⟩

instance : LT Binary64 := ⟨fun a b => a.toFloat < b.toFloat⟩

instance : LE Binary64 := ⟨fun a b => a.toFloat ≤ b.toFloat⟩

instance : DecidableLT Binary64 := fun a b => inferInstanceAs (Decidable (a.toFloat < b.toFloat))

instance : DecidableLE Binary64 := fun a b => inferInstanceAs (Decidable (a.toFloat ≤ b.toFloat))

/-- The position of a word in sorted order: negative words come first, those of larger magnitude
before those of smaller, and positive words follow by magnitude. -/
def orderKey (x : Binary64) : UInt64 :=
  if x.isNegative then ~~~ x.bits else x.bits ||| 0x8000000000000000

/-- Binary64 words, with sorting by sign and magnitude of the whole word. -/
instance : Scalar Binary64 where
  decidableLT := inferInstance
  decidableLE := inferInstance
  neutral := -0
  isFinite := isFinite
  precedes a b := a.orderKey ≤ b.orderKey
  precedes_total a b := by simpa using UInt64.le_total a.orderKey b.orderKey
  precedes_trans a b c hab hbc := by
    simpa using UInt64.le_trans (by simpa using hab) (by simpa using hbc)

/-! ## The magnitude of a finite word -/

/-- The eleven bits of the exponent. -/
def exponentBits (x : Binary64) : Nat :=
  (x.magnitudeBits >>> 52).toNat

/-- The fifty-two bits of the fraction. -/
def fractionBits (x : Binary64) : Nat :=
  (x.bits &&& 0xFFFFFFFFFFFFF).toNat

/-- The whole number that a power of two scales to the magnitude of a finite word. -/
def significand (x : Binary64) : Nat :=
  if x.exponentBits = 0 then x.fractionBits else Nat.pow 2 52 + x.fractionBits

/-- The power of two that scales the significand of a finite word. -/
def exponent (x : Binary64) : Int :=
  if x.exponentBits = 0 then -1074 else (x.exponentBits : Int) - 1075

/-- Whether the word below in magnitude is only half as far away as the word above. -/
def isNarrowBelow (x : Binary64) : Bool :=
  x.fractionBits = 0 && x.exponentBits > 1

/-- The rational number that a finite word denotes. -/
def toRat (x : Binary64) : Rat :=
  let size : Rat :=
    if 0 ≤ x.exponent then ((x.significand * Nat.pow 2 x.exponent.toNat : Nat) : Rat)
    else mkRat x.significand (Nat.pow 2 (-x.exponent).toNat)
  if x.isNegative then -size else size

end Binary64

end SankeyDiagram
