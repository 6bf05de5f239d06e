import Mathlib
import SankeyDiagram.Scalar.Binary64

/-! # Signs of sums

Rounding does not make a sum of words negative whose summands are not: the sign of a rounded value
is that of the exact one.

* **`Binary64.IsNonNeg`** the values that are not below zero, those that are not numbers among them.
* **`Binary64.isNonNeg_unpack_pack`** a value keeps its sign in its word.
* **`Binary64.not_add_lt_zero`** a sum is not below zero if its summands are not. -/

namespace SankeyDiagram

namespace Binary64

open Float.Model Float.Model.UnpackedFloat

/-- The value is not below zero. A zero is not, whatever its sign, and neither is what is not a
number. -/
def IsNonNeg : UnpackedFloat → Prop
  | .finite .negative _ _ _ => False
  | .infinity .negative => False
  | _ => True

/-! ## Words and values -/

/-- The value of a word, taken apart. -/
def unpacked (x : Binary64) : UnpackedFloat := x.toFloat.toModel.unpack

/-- `0` is the zero with a positive sign. -/
theorem unpacked_zero : (0 : Binary64).unpacked = .zero .positive := rfl

/-- `invalid` is not a number. -/
theorem unpacked_invalid : invalid.unpacked = .notANumber := rfl

/-- `¬x < 0` iff the value of `x` is `IsNonNeg`. -/
theorem not_lt_zero_iff (x : Binary64) : ¬ x < 0 ↔ IsNonNeg x.unpacked := by
  have hlt : x < 0 ↔ x.unpacked.lt (0 : Binary64).unpacked = true := by
    show x.toFloat.lt (0 : Binary64).toFloat = true ↔ _
    exact decide_eq_true_iff
  rw [hlt, unpacked_zero]
  cases x.unpacked with
  | notANumber => simp [UnpackedFloat.lt, UnpackedFloat.compare, IsNonNeg]
  | zero sign => simp [UnpackedFloat.lt, UnpackedFloat.compare, IsNonNeg]
  | infinity sign => cases sign <;> simp [UnpackedFloat.lt, UnpackedFloat.compare, IsNonNeg]
  | finite sign => cases sign <;> simp [UnpackedFloat.lt, UnpackedFloat.compare, IsNonNeg]

/-- What `packComponents` puts together with a positive sign is `IsNonNeg`. -/
theorem isNonNeg_unpack_packComponents
    (exponent : BitVec Format.binary64.exponentBits)
    (mantissa : BitVec Format.binary64.mantissaBitsWithoutImplicit) :
    IsNonNeg (unpack .binary64 (packComponents .binary64 .positive exponent mantissa)) := by
  -- a lemma of Batteries, whose lemmas on floats come only with the whole of Mathlib
  have hsign : Sign.ofBitVec (unpackSign (packComponents .binary64 .positive exponent mantissa))
      = .positive := by
    rw [unpackSign_packComponents, Sign.ofBitVec_toBitVec]
  rw [UnpackedFloat.unpack]
  simp only [hsign]
  split
  · split <;> trivial
  · split
    · split <;> trivial
    · trivial

/-- `pack` keeps `IsNonNeg`. -/
theorem isNonNeg_unpack_pack {u : UnpackedFloat} (h : IsNonNeg u) :
    IsNonNeg (unpack .binary64 (UnpackedFloat.pack .binary64 u)) := by
  cases u with
  | notANumber => exact isNonNeg_unpack_packComponents ..
  | zero sign => cases sign <;> trivial
  | infinity sign =>
    cases sign with
    | negative => exact h.elim
    | positive => exact isNonNeg_unpack_packComponents ..
  | finite sign mantissa exponent =>
    cases sign with
    | negative => exact h.elim
    | positive =>
      -- what is too large becomes infinite, and what is too small loses bits, with the sign kept
      rw [UnpackedFloat.pack]
      simp only [packedInfinity]
      split
      · exact isNonNeg_unpack_packComponents ..
      · split <;> exact isNonNeg_unpack_packComponents ..

/-- `ofFloat` keeps `IsNonNeg`. -/
theorem isNonNeg_unpacked_ofFloat {r : Float} (h : IsNonNeg r.toModel.unpack) :
    IsNonNeg (ofFloat r).unpacked := by
  rw [ofFloat]
  split
  · rw [unpacked_invalid]
    trivial
  · exact isNonNeg_unpack_pack h

/-! ## Sums -/

/-- `round` keeps a positive sign. -/
theorem isNonNeg_round (spec : Format) (mantissa : Nat) (exponent : Int) :
    IsNonNeg (UnpackedFloat.round spec .positive mantissa exponent) := by
  rw [UnpackedFloat.round]
  simp only [roundWithAccuracy]
  split <;> trivial

/-- `add` keeps `IsNonNeg`: the exact sum of values that are not below zero is not, and neither is
the rounded one. -/
theorem isNonNeg_add (spec : Format) {u v : UnpackedFloat} (hu : IsNonNeg u) (hv : IsNonNeg v) :
    IsNonNeg (u.add spec v) := by
  -- a negative sign is excluded on either side, and what is not finite or is zero decides the sum
  cases u with
  | notANumber => trivial
  | infinity sign =>
    cases sign with
    | negative => exact hu.elim
    | positive =>
      cases v with
      | infinity other =>
        cases other with
        | negative => exact hv.elim
        | positive => trivial
      | notANumber | zero | finite => trivial
  | zero sign =>
    cases v with
    | zero other => cases sign <;> cases other <;> trivial
    | notANumber => trivial
    | infinity | finite => exact hv
  | finite sign mantissa exponent hpos =>
    cases v with
    | notANumber => trivial
    | infinity => exact hv
    | zero => exact hu
    | finite other more power hmore =>
      cases sign with
      | negative => exact hu.elim
      | positive =>
        cases other with
        | negative => exact hv.elim
        | positive =>
          -- two significands on one grid add up to a natural number
          rw [UnpackedFloat.add]
          simp only [decreaseExponent, Sign.apply, UnpackedFloat.normalize]
          split
          · rename_i hlt
            refine absurd (Int.compare_eq_lt.1 hlt) (Int.not_lt.2 ?_)
            exact Int.add_nonneg (Int.natCast_nonneg _) (Int.natCast_nonneg _)
          · trivial
          · exact isNonNeg_round ..

/-- **`¬a + b < 0` for words with `¬a < 0` and `¬b < 0`.** -/
theorem not_add_lt_zero {a b : Binary64} (ha : ¬ a < 0) (hb : ¬ b < 0) : ¬ a + b < 0 := by
  rw [not_lt_zero_iff] at *
  show IsNonNeg (combine (· + ·) a b).unpacked
  rw [combine]
  split
  · exact ha
  · split
    · exact hb
    · exact isNonNeg_unpacked_ofFloat (isNonNeg_unpack_pack (isNonNeg_add _ ha hb))

end Binary64

end SankeyDiagram
