import SankeyDiagram.Proofs.Denotation

/-! # Comparisons of words

Two words compare in one of three ways unless one of them is not a number, and then no test between
the two holds. Finite words compare as the numbers that they denote.

* **`Binary64.unpacked_eq_notANumber_iff`** which words have no number for a value.
* **`Binary64.exists_compare`** values that are numbers compare, and the other way round they
  compare the other way.
* **`Binary64.not_le_iff`**, **`Binary64.not_lt_of_isNaN`** when the tests fail.
* **`Binary64.lt_iff_toRat_lt`** the order of finite words. -/

namespace SankeyDiagram

namespace Binary64

open Float.Model Float.Model.UnpackedFloat

/-! ## Words that are not numbers -/

/-- A word is not a number iff its exponent is the greatest one and its fraction is not zero. -/
theorem isNaN_iff (x : Binary64) : x.isNaN ↔ x.exponentBits = 2047 ∧ x.fractionBits ≠ 0 := by
  have hbits : x.bits.toNat < 2 ^ 64 := x.bits.toNat_lt
  rw [isNaN, decide_eq_true_eq, gt_iff_lt, UInt64.lt_iff_toNat_lt, toNat_magnitudeBits,
    exponentBits_eq, fractionBits_eq]
  show 2047 * 2 ^ 52 < _ ↔ _
  omega

/-- `isNaNBits` tests what `isNaN` tests. -/
theorem isNaNBits_iff (x : Binary64) : @isNaNBits .binary64 x.bits.toBitVec ↔ x.isNaN := by
  rw [isNaNBits, decide_eq_true_eq, isNaN_iff, ← toNat_unpackExponent, ← toNat_unpackMantissa,
    ← BitVec.toNat_inj, ne_eq, ← BitVec.toNat_inj]
  rfl

/-- `x.unpacked` is `notANumber` iff `x.isNaN`. -/
theorem unpacked_eq_notANumber_iff (x : Binary64) : x.unpacked = .notANumber ↔ x.isNaN := by
  have hpacked : x.unpacked = unpack .binary64
      (if @isNaNBits .binary64 x.bits.toBitVec then packedNaN .binary64 else x.bits.toBitVec) := by
    rw [← pack_unpack]
    rfl
  by_cases hnan : x.isNaN
  · rw [hpacked, if_pos ((isNaNBits_iff x).2 hnan)]
    exact ⟨fun _ => hnan, fun _ => rfl⟩
  · rw [hpacked, if_neg (mt (isNaNBits_iff x).1 hnan)]
    refine ⟨fun h => ?_, fun h => absurd h hnan⟩
    -- the value is read off the exponent first, and only then off the fraction
    rw [← isNaNBits_iff, isNaNBits, decide_eq_true_eq]
    rw [UnpackedFloat.unpack] at h
    simp only at h
    split at h
    case isTrue hexponent =>
      split at h
      case isTrue => cases h
      case isFalse hfraction => exact ⟨hexponent, hfraction⟩
    case isFalse =>
      split at h
      case isTrue => split at h <;> cases h
      case isFalse => cases h

/-! ## The tests -/

/-- `a ≤ b` is the comparison of `unpacked` values, where there is one. -/
theorem le_iff (a b : Binary64) : a ≤ b ↔ (a.unpacked.compare b.unpacked).any Ordering.isLE := by
  show a.toFloat.le b.toFloat = true ↔ _
  exact decide_eq_true_iff

/-- `a < b` is the comparison of `unpacked` values, where there is one. -/
theorem lt_iff (a b : Binary64) : a < b ↔ a.unpacked.compare b.unpacked = some .lt := by
  show a.toFloat.lt b.toFloat = true ↔ _
  exact decide_eq_true_iff.trans beq_iff_eq

/-- The comparison of exponents and then of significands, the other way round. -/
theorem then_compare_swap (exponent power : Int) (mantissa more : Nat) :
    (compare power exponent).then (compare more mantissa)
      = ((compare exponent power).then (compare mantissa more)).swap := by
  rw [Ordering.swap_then, ← Std.OrientedCmp.eq_swap, ← Std.OrientedCmp.eq_swap]

/-- Values that are numbers compare, and the other way round they compare as `Ordering.swap`
says. -/
theorem exists_compare {u v : UnpackedFloat} (hu : u ≠ .notANumber) (hv : v ≠ .notANumber) :
    ∃ o, u.compare v = some o ∧ v.compare u = some o.swap := by
  cases u with
  | notANumber => exact absurd rfl hu
  | zero sign =>
    cases v with
    | notANumber => exact absurd rfl hv
    | zero => exact ⟨_, rfl, rfl⟩
    | infinity other | finite other => cases other <;> exact ⟨_, rfl, rfl⟩
  | infinity sign =>
    cases v with
    | notANumber => exact absurd rfl hv
    | zero => cases sign <;> exact ⟨_, rfl, rfl⟩
    | infinity other | finite other => cases sign <;> cases other <;> exact ⟨_, rfl, rfl⟩
  | finite sign mantissa exponent =>
    cases v with
    | notANumber => exact absurd rfl hv
    | zero => cases sign <;> exact ⟨_, rfl, rfl⟩
    | infinity other => cases sign <;> cases other <;> exact ⟨_, rfl, rfl⟩
    | finite other more power =>
      -- of one sign they compare by their exponents and then by their mantissas
      have hswap := then_compare_swap exponent power mantissa more
      cases sign <;> cases other
      · exact ⟨_, rfl, congrArg (fun o : Ordering => some o.swap) hswap⟩
      · exact ⟨_, rfl, rfl⟩
      · exact ⟨_, rfl, rfl⟩
      · exact ⟨_, rfl, congrArg some hswap⟩

/-- What is not a number compares with nothing. -/
theorem compare_eq_none {a b : Binary64} (h : a.isNaN ∨ b.isNaN) :
    a.unpacked.compare b.unpacked = none := by
  rw [← unpacked_eq_notANumber_iff, ← unpacked_eq_notANumber_iff] at h
  rcases h with ha | hb
  · rw [ha]
    rfl
  · rw [hb]
    cases a.unpacked <;> rfl

/-- What is not a number is not `<` anything, and nothing is `<` it. -/
theorem not_lt_of_isNaN {a b : Binary64} (h : a.isNaN ∨ b.isNaN) : ¬a < b := by
  rw [lt_iff, compare_eq_none h]
  exact nofun

/-- **`¬a ≤ b` iff a word is not a number, or `b < a`.** -/
theorem not_le_iff (a b : Binary64) : ¬ a ≤ b ↔ a.isNaN ∨ b.isNaN ∨ b < a := by
  by_cases hnan : a.isNaN ∨ b.isNaN
  · rw [le_iff, compare_eq_none hnan, ← or_assoc]
    exact iff_of_true Bool.false_ne_true (Or.inl hnan)
  · rw [not_or, ← unpacked_eq_notANumber_iff, ← unpacked_eq_notANumber_iff] at hnan
    obtain ⟨o, ho, hswap⟩ := exists_compare hnan.1 hnan.2
    rw [le_iff, lt_iff, ← unpacked_eq_notANumber_iff, ← unpacked_eq_notANumber_iff, ho, hswap]
    cases o <;> simp [hnan]

/-- `a ≤ a` iff `a` is a number. -/
theorem le_self_iff (a : Binary64) : a ≤ a ↔ ¬a.isNaN := by
  rw [← not_iff_not, not_le_iff, not_not]
  constructor
  · rintro (hnan | hnan | hlt)
    · exact hnan
    · exact hnan
    · by_contra hnan
      -- a value that is a number would compare with itself both ways
      rw [← unpacked_eq_notANumber_iff] at hnan
      obtain ⟨o, ho, hswap⟩ := exists_compare hnan hnan
      rw [lt_iff, ho, Option.some_inj] at hlt
      rw [ho, hlt] at hswap
      cases hswap
  · exact Or.inl

/-! ## The order of magnitudes -/

variable {x y : Binary64}

/-- `x.magnitude` is `x.significand * 2 ^ x.exponent`. -/
theorem magnitude_eq (x : Binary64) : x.magnitude = x.significand * (2 : Rat) ^ x.exponent := by
  rw [magnitude]
  split
  case isTrue h =>
    obtain ⟨n, hn⟩ := Int.eq_ofNat_of_zero_le h
    rw [hn, Int.toNat_natCast, zpow_natCast, Nat.pow_eq, Nat.cast_mul, Nat.cast_pow, Nat.cast_ofNat]
  case isFalse h =>
    obtain ⟨n, hn⟩ : ∃ n : Nat, x.exponent = -n := ⟨(-x.exponent).toNat, by omega⟩
    rw [hn, neg_neg, Int.toNat_natCast, zpow_neg, zpow_natCast, Nat.pow_eq, Rat.mkRat_eq_div,
      Nat.cast_pow, Nat.cast_ofNat, div_eq_mul_inv, Int.cast_natCast]

/-- A magnitude is zero iff the significand is. -/
theorem magnitude_eq_zero_iff (x : Binary64) : x.magnitude = 0 ↔ x.significand = 0 := by
  have hpow : (2 : Rat) ^ x.exponent ≠ 0 := zpow_ne_zero _ two_ne_zero
  rw [magnitude_eq, mul_eq_zero, or_iff_left hpow, Nat.cast_eq_zero]

/-- A magnitude is positive if the significand is. -/
theorem magnitude_pos (h : 0 < x.significand) : 0 < x.magnitude :=
  lt_of_le_of_ne x.magnitude_nonneg fun heq => h.ne' ((magnitude_eq_zero_iff x).1 heq.symm)

/-- No exponent is below `-1074`. -/
theorem le_exponent (x : Binary64) : -1074 ≤ x.exponent := by
  rw [exponent]
  split <;> omega

/-- Above the least exponent the significand has all its bits. -/
theorem le_significand (h : x.exponent ≠ -1074) : 2 ^ 52 ≤ x.significand := by
  rw [exponent] at h
  rw [significand, Nat.pow_eq]
  split
  case isTrue hbits => exact absurd (if_pos hbits) h
  case isFalse => exact Nat.le_add_right ..

/-- A greater exponent makes up for any significand. -/
theorem magnitude_lt_of_exponent_lt (h : x.exponent < y.exponent) : x.magnitude < y.magnitude := by
  have hx : (x.significand : Rat) < 2 ^ 53 := by exact_mod_cast x.significand_lt
  -- above the least exponent no leading bit is missing
  have hy : (2 : Rat) ^ 52 ≤ y.significand := by
    exact_mod_cast le_significand (by have := x.le_exponent; omega)
  calc x.magnitude = x.significand * 2 ^ x.exponent := x.magnitude_eq
    _ < 2 ^ 53 * 2 ^ x.exponent := by gcongr
    _ = 2 ^ 52 * 2 ^ (x.exponent + 1) := by
      rw [zpow_add_one₀ two_ne_zero]
      ring
    _ ≤ 2 ^ 52 * 2 ^ y.exponent := by
      gcongr
      · exact one_le_two
      · omega
    _ ≤ y.significand * 2 ^ y.exponent := by gcongr
    _ = y.magnitude := y.magnitude_eq.symm

/-- Magnitudes are ordered by exponents, and then by significands. -/
theorem magnitude_lt_iff : x.magnitude < y.magnitude
    ↔ x.exponent < y.exponent ∨ x.exponent = y.exponent ∧ x.significand < y.significand := by
  rcases lt_trichotomy x.exponent y.exponent with hlt | heq | hgt
  · exact iff_of_true (magnitude_lt_of_exponent_lt hlt) (Or.inl hlt)
  · have hpow : (0 : Rat) < 2 ^ y.exponent := by positivity
    rw [magnitude_eq, magnitude_eq, heq, mul_lt_mul_iff_left₀ hpow, Nat.cast_lt]
    simp
  · exact iff_of_false (magnitude_lt_of_exponent_lt hgt).not_gt (by omega)

/-- The comparison of exponents and then of significands is that of magnitudes. -/
theorem then_compare_eq_lt_iff :
    (compare x.exponent y.exponent).then (compare x.significand y.significand) = .lt
      ↔ x.magnitude < y.magnitude := by
  rw [magnitude_lt_iff, Ordering.then_eq_lt, compare_lt_iff_lt, compare_eq_iff_eq,
    compare_lt_iff_lt]

/-! ## The order of finite words -/

/-- A word without significand denotes zero. -/
theorem toRat_of_significand_eq_zero (h : x.significand = 0) : x.toRat = 0 := by
  rw [toRat_eq, (magnitude_eq_zero_iff x).2 h, neg_zero, ite_self]

/-- `x.toRat` is `-x.magnitude` under a negative sign. -/
theorem toRat_of_negative (h : x.sign = .negative) : x.toRat = -x.magnitude := by
  rw [sign] at h
  split at h
  case isTrue hneg => rw [toRat_eq, if_pos hneg]
  case isFalse => cases h

/-- `x.toRat` is `x.magnitude` under a positive sign. -/
theorem toRat_of_positive (h : x.sign = .positive) : x.toRat = x.magnitude := by
  rw [sign] at h
  split at h
  case isTrue => cases h
  case isFalse hneg => rw [toRat_eq, if_neg hneg]

/-- **Finite words compare as the numbers that they denote: `x < y ↔ x.toRat < y.toRat`.** -/
theorem lt_iff_toRat_lt (hx : x.isFinite) (hy : y.isFinite) : x < y ↔ x.toRat < y.toRat := by
  rw [lt_iff]
  rcases unpacked_cases hx with ⟨hx, hux⟩ | ⟨hx, hux⟩ <;>
    rcases unpacked_cases hy with ⟨hy, huy⟩ | ⟨hy, huy⟩ <;> rw [hux, huy]
  · rw [toRat_of_significand_eq_zero hx, toRat_of_significand_eq_zero hy]
    exact iff_of_false (by simp [UnpackedFloat.compare]) (lt_irrefl 0)
  · have hpos := magnitude_pos hy
    rw [toRat_of_significand_eq_zero hx]
    cases hsign : y.sign with
    | negative =>
      rw [toRat_of_negative hsign]
      exact iff_of_false (by simp [UnpackedFloat.compare]) (by linarith)
    | positive =>
      rw [toRat_of_positive hsign]
      exact iff_of_true rfl hpos
  · have hpos := magnitude_pos hx
    rw [toRat_of_significand_eq_zero hy]
    cases hsign : x.sign with
    | negative =>
      rw [toRat_of_negative hsign]
      exact iff_of_true rfl (by linarith)
    | positive =>
      rw [toRat_of_positive hsign]
      exact iff_of_false (by simp [UnpackedFloat.compare]) (by linarith)
  · have hxpos := magnitude_pos hx
    have hypos := magnitude_pos hy
    cases hxsign : x.sign with
    | negative =>
      rw [toRat_of_negative hxsign]
      cases hysign : y.sign with
      | negative =>
        -- below zero the order of magnitudes is turned round
        rw [toRat_of_negative hysign, neg_lt_neg_iff, ← then_compare_eq_lt_iff, then_compare_swap]
        exact Option.some_inj
      | positive =>
        rw [toRat_of_positive hysign]
        exact iff_of_true rfl (by linarith)
    | positive =>
      rw [toRat_of_positive hxsign]
      cases hysign : y.sign with
      | negative =>
        rw [toRat_of_negative hysign]
        exact iff_of_false (by simp [UnpackedFloat.compare]) (by linarith)
      | positive =>
        rw [toRat_of_positive hysign, ← then_compare_eq_lt_iff]
        exact Option.some_inj

/-- A word that is neither finite nor NaN is `infinity` or `-infinity`. -/
theorem eq_infinity_of_not_isFinite (hfinite : ¬x.isFinite) (hnan : ¬x.isNaN) :
    x = infinity ∨ x = -infinity := by
  have hlt := x.bits.toNat_lt
  rw [isFinite_iff, exponentBits_eq] at hfinite
  rw [isNaN_iff, fractionBits_eq, exponentBits_eq] at hnan
  have hbits : x.bits.toNat = 2047 * 2 ^ 52 ∨ x.bits.toNat = 2 ^ 63 + 2047 * 2 ^ 52 := by omega
  obtain ⟨bits⟩ := x
  rcases hbits with hbits | hbits
  · exact Or.inl (congrArg mk (UInt64.toNat_inj.1 hbits))
  · exact Or.inr (congrArg mk (UInt64.toNat_inj.1 hbits))

/-- A finite word is a number. -/
theorem not_isNaN_of_isFinite (h : x.isFinite) : ¬x.isNaN := by
  rw [isFinite_iff] at h
  rw [isNaN_iff]
  exact fun hnan => h.ne hnan.1

end Binary64

end SankeyDiagram
