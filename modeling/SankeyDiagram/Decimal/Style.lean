import SankeyDiagram.Decimal.Shortest

/-! # Written numbers

How binary64 words are written.

## Main definitions

* **`Decimal.digitChars`** the digits of a natural number.
* **`NumberStyle`** the choices that a written form leaves open.
* **`NumberStyle.text`** the text of a binary64 word.
* **`NumberStyle.plain`** the style of messages and drawings: always positional.
* **`NumberStyle.document`** the style of documents: scientific beyond sixteen digits.
-/

namespace SankeyDiagram

namespace Decimal

/-- The decimal digits of a natural number, from the highest down. -/
def digitChars (n : Nat) : List Char :=
  Nat.toDigits 10 n

/-- The power of ten that the first digit counts. -/
def leadingExponent (d : Decimal) : Int :=
  d.exponent + (digitChars d.digits).length - 1

/-- The digits before and after the point, with zeros filled in where the point lies outside of
them; the part after the point may be empty. -/
def positional (d : Decimal) : List Char × List Char :=
  let cs := digitChars d.digits
  if 0 ≤ d.exponent then
    (cs ++ List.replicate d.exponent.toNat '0', [])
  else
    let places := (-d.exponent).toNat
    if places < cs.length then (cs.take (cs.length - places), cs.drop (cs.length - places))
    else (['0'], List.replicate (places - cs.length) '0' ++ cs)

end Decimal

/-- The choices that the written form of a binary64 word leaves open. -/
structure NumberStyle where
  /-- The decimal exponents of the first digit that are written positionally, if not all are. -/
  window : Option (Int × Int)
  /-- Whether a whole number written positionally ends in a point and a zero. -/
  pointZero : Bool
  /-- Which candidate is taken midway between two. -/
  tie : Decimal.Tie
  /-- The text of what is not a number. -/
  nan : String
  /-- The text of positive infinity. -/
  infinity : String
  /-- The text of negative infinity. -/
  minusInfinity : String

namespace NumberStyle

/-- Messages and drawings write all digits positionally, and whole numbers without a point. -/
def plain : NumberStyle where
  window := none
  pointZero := false
  tie := .up
  nan := "NaN"
  infinity := "inf"
  minusInfinity := "-inf"

/-- Documents write first digits of the powers -5 to 15 positionally, always with a point, and all
others with a signed exponent. What is not finite has no number there. -/
def document : NumberStyle where
  window := some (-5, 15)
  pointZero := true
  tie := .toEven
  nan := "null"
  infinity := "null"
  minusInfinity := "null"

/-- Whether a decimal is written positionally. -/
def isPositional (style : NumberStyle) (d : Decimal) : Bool :=
  match style.window with
  | none => true
  | some (least, greatest) => decide (least ≤ d.leadingExponent ∧ d.leadingExponent ≤ greatest)

/-- A decimal exponent with its sign. -/
def exponentChars (e : Int) : List Char :=
  (if e < 0 then '-' else '+') :: Decimal.digitChars e.natAbs

/-- The characters of a decimal. -/
def decimalChars (style : NumberStyle) (d : Decimal) : List Char :=
  if style.isPositional d then
    match d.positional with
    | (whole, []) => if style.pointZero then whole ++ ['.', '0'] else whole
    | (whole, places) => whole ++ '.' :: places
  else
    match Decimal.digitChars d.digits with
    | [] => []
    | [c] => c :: 'e' :: exponentChars d.leadingExponent
    | c :: cs => c :: '.' :: cs ++ 'e' :: exponentChars d.leadingExponent

/-- The characters of a finite word. -/
def finiteChars (style : NumberStyle) (x : Binary64) : List Char :=
  let digits := style.decimalChars (Decimal.shortest style.tie x)
  if x.isNegative then '-' :: digits else digits

/-- The text of a word. -/
def text (style : NumberStyle) (x : Binary64) : String :=
  if x.isFinite then String.ofList (style.finiteChars x)
  else if x.isNaN then style.nan
  else if x.isNegative then style.minusInfinity
  else style.infinity

end NumberStyle

/-- The text of a word in messages and drawings. -/
def Binary64.plainText (x : Binary64) : String :=
  NumberStyle.plain.text x

end SankeyDiagram
