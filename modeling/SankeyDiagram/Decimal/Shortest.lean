import SankeyDiagram.Scalar.Binary64

/-! # Shortest decimals

The decimal with the fewest digits that rounds to a given binary64 word.

## Main definitions

* **`Decimal`** a natural number scaled by a power of ten.
* **`Decimal.roundsTo`** whether a decimal lies in the interval of reals that round to a word.
* **`Decimal.shortest`** the shortest decimal that does, and of those the one nearest to the word.
-/

namespace SankeyDiagram

/-- The number `digits * 10 ^ exponent`. -/
structure Decimal where
  /-- The digits, read as one number. -/
  digits : Nat
  /-- The power of ten that the digits count. -/
  exponent : Int
deriving DecidableEq, Repr

namespace Decimal

/-- What becomes of a decimal that lies midway between the two candidates. -/
inductive Tie where
  /-- The candidate whose last digit is even. -/
  | toEven
  /-- The larger candidate. -/
  | up
deriving DecidableEq, Repr

/-- How `digits * 10 ^ exponent` compares with `count * 2 ^ power`. -/
def compareBinary (digits : Nat) (exponent : Int) (count : Nat) (power : Int) : Ordering :=
  compare (digits * Nat.pow 10 exponent.toNat * Nat.pow 2 (-power).toNat)
    (count * Nat.pow 2 power.toNat * Nat.pow 10 (-exponent).toNat)

/-- Whether a decimal rounds to the magnitude of a finite word that is not zero: it lies between
the midpoints to the two neighbours, which belong to the interval when the significand is even. -/
def roundsTo (x : Binary64) (d : Decimal) : Bool :=
  let below := 4 * x.significand - (if x.isNarrowBelow then 1 else 2)
  let above := 4 * x.significand + 2
  let toLow := compareBinary d.digits d.exponent below (x.exponent - 2)
  let toHigh := compareBinary d.digits d.exponent above (x.exponent - 2)
  if x.significand % 2 = 0 then toLow != .lt && toHigh != .gt else toLow == .gt && toHigh == .lt

/-- The number of digits before the point of the magnitude of a word: the least `k` with the
magnitude below `10 ^ k`, found near an estimate from the binary length. -/
def pointPosition (x : Binary64) : Int :=
  let log2 : Int := x.significand.log2 + x.exponent
  let estimate := log2 * 30103 / 100000
  let fits (k : Int) : Bool := compareBinary 1 k x.significand x.exponent == .gt
  if fits estimate then estimate
  else if fits (estimate + 1) then estimate + 1
  else estimate + 2

/-- The multiple of `10 ^ exponent` just below the magnitude of a word, as a count. -/
def floorOnGrid (x : Binary64) (exponent : Int) : Nat :=
  (x.significand * Nat.pow 2 x.exponent.toNat * Nat.pow 10 (-exponent).toNat)
    / (Nat.pow 2 (-x.exponent).toNat * Nat.pow 10 exponent.toNat)

/-- The neighbour on the grid of `10 ^ exponent` that rounds to a word, the nearer if both do. -/
def onGrid? (tie : Tie) (x : Binary64) (exponent : Int) : Option Decimal :=
  let low : Decimal := ⟨floorOnGrid x exponent, exponent⟩
  let high : Decimal := ⟨low.digits + 1, exponent⟩
  match low.digits != 0 && roundsTo x low, roundsTo x high with
  | true, true =>
    match compareBinary (2 * low.digits + 1) exponent (2 * x.significand) x.exponent, tie with
    | .gt, _ => some low
    | .lt, _ => some high
    | .eq, .toEven => if low.digits % 2 = 0 then some low else some high
    | .eq, .up => some high
  | true, false => some low
  | false, true => some high
  | false, false => none

/-- The magnitude of a finite word, digit by digit. -/
def ofWord (x : Binary64) : Decimal :=
  if 0 ≤ x.exponent then ⟨x.significand * Nat.pow 2 x.exponent.toNat, 0⟩
  else ⟨x.significand * Nat.pow 5 (-x.exponent).toNat, x.exponent⟩

/-- Moves up to `n` zeros from the end of the digits into the exponent. -/
def dropZeros : Nat → Decimal → Decimal
  | 0, d => d
  | n + 1, d =>
    if d.digits % 10 = 0 && d.digits != 0 then dropZeros n ⟨d.digits / 10, d.exponent + 1⟩ else d

/-- The decimal with the fewest digits that rounds to the magnitude of a finite word. Grids of
one to seventeen digits are tried from the coarsest on. -/
def shortest (tie : Tie) (x : Binary64) : Decimal :=
  if x.significand = 0 then ⟨0, 0⟩
  else
    let point := pointPosition x
    let found := (List.range 17).findSome? fun (n : Nat) => onGrid? tie x (point - 1 - (n : Int))
    dropZeros 800 (found.getD (ofWord x))

end Decimal

end SankeyDiagram
