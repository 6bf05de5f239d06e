import SankeyDiagram.Decimal.Shortest

/-! # Scaled significands

The binary64 word that a written number is read as. Sixty-four bits hold its digits as far as they
fit, and the word of what is held is scaled by a power of ten. Both steps round, so the result may
be a neighbour of the word nearest to the number.

## Main definitions

* **`Decimal.ofDigits`** what is held of the digits before and behind a point.
* **`Decimal.scale?`** a word times a power of ten.
* **`Decimal.word?`** the word that a decimal is read as, unless that is infinite.
-/

namespace SankeyDiagram

namespace Decimal

/-! ## Digits -/

/-- How many numbers sixty-four bits tell apart. -/
def capacity : Nat := Nat.pow 2 64

/-- A number with one more digit at its end. -/
def append (n : Nat) (digit : Char) : Nat :=
  10 * n + (digit.toNat - '0'.toNat)

/-- Takes in digits before the point: from the first that does not fit on, each of them counts as
one power of ten. -/
def ofWhole (n : Nat) : List Char → Decimal
  | [] => ⟨n, 0⟩
  | c :: cs => if append n c < capacity then ofWhole (append n c) cs else ⟨n, cs.length + 1⟩

/-- Takes in digits behind the point: the first that does not fit and all behind it are dropped. -/
def withPlaces (d : Decimal) : List Char → Decimal
  | [] => d
  | c :: cs =>
    if append d.digits c < capacity then withPlaces ⟨append d.digits c, d.exponent - 1⟩ cs else d

/-- What is held of the digits before and behind a point. -/
def ofDigits (whole places : List Char) : Decimal :=
  (ofWhole 0 whole).withPlaces places

/-! ## Words -/

/-- The greatest power of ten by which a word is scaled in one step. -/
def stepLimit : Nat := 308

/-- The word nearest to a power of ten. -/
def power (k : Nat) : Binary64 :=
  OfScientific.ofScientific 1 false k

/-- A word that is not negative, times a power of ten; none if that is infinite. A power below the
limit is divided off in several steps. -/
def scale? (x : Binary64) (exponent : Int) : Option Binary64 :=
  if exponent.natAbs ≤ stepLimit then
    let scaled :=
      if 0 ≤ exponent then x * power exponent.natAbs else x / power exponent.natAbs
    if scaled.isFinite then some scaled else none
  else if x = 0 then some x
  else if 0 ≤ exponent then none
  else scale? (x / power stepLimit) (exponent + stepLimit)
termination_by exponent.natAbs
decreasing_by
  rename_i hlarge _ hnegative
  unfold stepLimit at *
  omega

/-- The word that a decimal is read as, none if that is infinite. -/
def word? (d : Decimal) : Option Binary64 :=
  scale? d.digits d.exponent

end Decimal

end SankeyDiagram
