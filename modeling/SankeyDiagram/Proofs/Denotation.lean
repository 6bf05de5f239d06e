import SankeyDiagram.Proofs.Signs
import SankeyDiagram.Proofs.Sizing

/-! # The numbers that words denote

Every finite word denotes a rational number. Settings and flows in words are taken over into these
numbers, and what is accepted in words is accepted in them.

* **`Binary64.abs_toRat_le`** no number that a finite word denotes is beyond `Binary64.greatest`.
* **`Binary64.unpacked_cases`** what the value of a finite word is made of.
* **`Binary64.toRat_nonneg`** a finite word that is not below zero denotes no number below zero.
* **`Config.exact`**, **`Flow.exact`** settings and flows in the numbers that their words denote.
* **`Diagram.exists_ofFlows_exact`** flows that make a diagram in words make one in numbers. -/

namespace SankeyDiagram

/-! ## Words -/

namespace Binary64

/-- The greatest number that a word denotes. -/
def greatest : Rat := (2 ^ 53 - 1) * 2 ^ 971

/-- The number that a finite word without its sign denotes. -/
def magnitude (x : Binary64) : Rat :=
  if 0 ≤ x.exponent then ((x.significand * Nat.pow 2 x.exponent.toNat : Nat) : Rat)
  else mkRat x.significand (Nat.pow 2 (-x.exponent).toNat)

variable {x : Binary64}

/-- `x.toRat` is the magnitude under the sign. -/
theorem toRat_eq (x : Binary64) :
    x.toRat = if x.isNegative then -x.magnitude else x.magnitude := rfl

/-- The fraction is the last 52 bits. -/
theorem fractionBits_eq (x : Binary64) : x.fractionBits = x.bits.toNat % 2 ^ 52 := by
  rw [fractionBits, UInt64.toNat_and]
  exact Nat.and_two_pow_sub_one_eq_mod _ 52

/-- The magnitude is the word without its first bit. -/
theorem toNat_magnitudeBits (x : Binary64) : x.magnitudeBits.toNat = x.bits.toNat % 2 ^ 63 := by
  rw [magnitudeBits, UInt64.toNat_and]
  exact Nat.and_two_pow_sub_one_eq_mod _ 63

/-- The exponent is the 11 bits before the fraction. -/
theorem exponentBits_eq (x : Binary64) : x.exponentBits = x.bits.toNat % 2 ^ 63 / 2 ^ 52 := by
  rw [exponentBits, UInt64.toNat_shiftRight, toNat_magnitudeBits, Nat.shiftRight_eq_div_pow]
  rfl

/-- A word is negative iff its first bit is set. -/
theorem isNegative_iff (x : Binary64) : x.isNegative ↔ 2 ^ 63 ≤ x.bits.toNat := by
  rw [isNegative, decide_eq_true_eq]
  exact UInt64.le_iff_toNat_le

/-- A word is finite iff `x.exponentBits < 2047`. -/
theorem isFinite_iff (x : Binary64) : x.isFinite ↔ x.exponentBits < 2047 := by
  rw [isFinite, decide_eq_true_eq, UInt64.lt_iff_toNat_lt, toNat_magnitudeBits, exponentBits_eq,
    Nat.div_lt_iff_lt_mul (by norm_num)]
  rfl

/-! ## How great a word is -/

/-- A significand has at most 53 bits. -/
theorem significand_lt (x : Binary64) : x.significand < 2 ^ 53 := by
  have hfraction := x.fractionBits_eq
  rw [significand, Nat.pow_eq]
  split <;> omega

/-- The exponent of a finite word is at most `971`. -/
theorem exponent_le (h : x.isFinite) : x.exponent ≤ 971 := by
  rw [isFinite_iff] at h
  rw [exponent]
  split <;> omega

/-- No magnitude is negative. -/
theorem magnitude_nonneg (x : Binary64) : 0 ≤ x.magnitude := by
  rw [magnitude, Rat.mkRat_eq_div]
  split <;> positivity

/-- No magnitude of a finite word is beyond `greatest`. -/
theorem magnitude_le_greatest (h : x.isFinite) : x.magnitude ≤ greatest := by
  have hsignificand : (x.significand : Rat) ≤ 2 ^ 53 - 1 := by
    have hlt : ((x.significand + 1 : Nat) : Rat) ≤ (2 ^ 53 : Nat) :=
      Nat.cast_le.2 x.significand_lt
    push_cast at hlt
    linarith
  rw [magnitude, greatest]
  split
  case isTrue =>
    have hpow : (2 : Rat) ^ x.exponent.toNat ≤ 2 ^ 971 :=
      pow_le_pow_right₀ one_le_two (by have := exponent_le h; omega)
    rw [Nat.pow_eq, Nat.cast_mul, Nat.cast_pow, Nat.cast_ofNat]
    exact mul_le_mul hsignificand hpow (by positivity) (by norm_num)
  case isFalse =>
    -- a power of two below one only makes the significand smaller
    have hdiv : (x.significand : Rat) / (2 ^ (-x.exponent).toNat : Nat) ≤ x.significand :=
      div_le_self (Nat.cast_nonneg _) (Nat.one_le_cast.2 Nat.one_le_two_pow)
    rw [Rat.mkRat_eq_div]
    exact (hdiv.trans hsignificand).trans
      (le_mul_of_one_le_right (by norm_num) (one_le_pow₀ one_le_two))

/-- **`|x.toRat| ≤ greatest` for every finite word.** -/
theorem abs_toRat_le (h : x.isFinite) : |x.toRat| ≤ greatest := by
  have habs : |x.toRat| = x.magnitude := by
    rw [toRat_eq]
    split
    · rw [abs_neg, abs_of_nonneg x.magnitude_nonneg]
    · exact abs_of_nonneg x.magnitude_nonneg
  exact habs.trans_le (magnitude_le_greatest h)

example : (⟨0x7FEFFFFFFFFFFFFF⟩ : Binary64).toRat = greatest := by decide +kernel

/-! ## The value of a word -/

section Unpacked

open Float.Model Float.Model.UnpackedFloat

/-- `unpackExponent` gives `exponentBits`. -/
theorem toNat_unpackExponent (x : Binary64) :
    (@unpackExponent .binary64 x.bits.toBitVec).toNat = x.exponentBits := by
  rw [unpackExponent, BitVec.toNat_cast, BitVec.extractLsb_toNat, exponentBits_eq,
    Nat.shiftRight_eq_div_pow]
  show x.bits.toNat / 2 ^ 52 % 2 ^ 11 = _
  omega

/-- `unpackMantissa` gives `fractionBits`. -/
theorem toNat_unpackMantissa (x : Binary64) :
    (@unpackMantissa .binary64 x.bits.toBitVec).toNat = x.fractionBits := by
  rw [unpackMantissa, BitVec.toNat_cast, BitVec.extractLsb_toNat, fractionBits_eq,
    Nat.shiftRight_zero]
  rfl

/-- `unpackSign` gives the first bit. -/
theorem toNat_unpackSign (x : Binary64) :
    (@unpackSign .binary64 x.bits.toBitVec).toNat = x.bits.toNat / 2 ^ 63 % 2 := by
  rw [unpackSign, BitVec.toNat_cast, BitVec.extractLsb_toNat, Nat.shiftRight_eq_div_pow]
  rfl

/-- The exponent of a finite word is not that of infinity. -/
theorem unpackExponent_ne (h : x.isFinite) :
    @unpackExponent .binary64 x.bits.toBitVec
      ≠ -BitVec.ofNat Format.binary64.exponentBits 1 := by
  intro heq
  have hbits := toNat_unpackExponent x
  rw [heq] at hbits
  exact absurd (isFinite_iff x |>.1 h) (by rw [← hbits]; decide)

/-- `x.unpacked` of a finite word is what its bits say. -/
theorem unpacked_of_isFinite (h : x.isFinite) :
    x.unpacked = unpack .binary64 x.bits.toBitVec := by
  have hnumber : ¬ @isNaNBits .binary64 x.bits.toBitVec := by
    rw [isNaNBits, decide_eq_true_eq]
    exact fun hnan => unpackExponent_ne h hnan.1
  show unpack .binary64 (UnpackedFloat.pack .binary64 (unpack .binary64 x.bits.toBitVec)) = _
  rw [pack_unpack, if_neg hnumber]

/-- The sign of a word. -/
def sign (x : Binary64) : Sign := if x.isNegative then .negative else .positive

/-- `x.sign` is what `unpackSign` gives. -/
theorem ofBitVec_unpackSign (x : Binary64) :
    Sign.ofBitVec (@unpackSign .binary64 x.bits.toBitVec) = x.sign := by
  have hlt := x.bits.toNat_lt
  have hbit := toNat_unpackSign x
  have hnegative := x.isNegative_iff
  rw [Sign.ofBitVec, sign]
  split
  case isTrue hzero =>
    rw [hzero] at hbit
    have hbit : 0 = x.bits.toNat / 2 ^ 63 % 2 := hbit
    exact (if_neg fun hneg => by have := hnegative.1 hneg; omega).symm
  case isFalse hone =>
    have hbit : x.bits.toNat / 2 ^ 63 % 2 ≠ 0 := by
      rw [← hbit]
      exact fun hzero => hone (BitVec.eq_of_toNat_eq hzero)
    exact (if_pos (hnegative.2 (by omega))).symm

/-- `x.unpacked` of a finite word is a zero, or made of `x.sign`, `x.significand` and
`x.exponent`. -/
theorem unpacked_cases (h : x.isFinite) : (x.significand = 0 ∧ x.unpacked = .zero x.sign) ∨
    ∃ hpos, x.unpacked = .finite x.sign x.significand x.exponent hpos := by
  have hexponent := toNat_unpackExponent x
  have hfraction := toNat_unpackMantissa x
  rw [unpacked_of_isFinite h, UnpackedFloat.unpack]
  simp only [ofBitVec_unpackSign]
  rw [if_neg (unpackExponent_ne h)]
  split
  case isTrue hzero =>
    have hbits : x.exponentBits = 0 := by
      rw [← hexponent, hzero]
      rfl
    have hsignificand : x.significand = x.fractionBits := by rw [significand, if_pos hbits]
    split
    case isTrue hnone =>
      refine Or.inl ⟨?_, rfl⟩
      rw [hsignificand, ← hfraction, hnone]
      rfl
    case isFalse hsome =>
      have hpos : 0 < x.significand := by
        rw [hsignificand, ← hfraction]
        exact Nat.pos_of_ne_zero fun hnone => hsome (BitVec.eq_of_toNat_eq hnone)
      refine Or.inr ⟨hpos, ?_⟩
      simp only [UnpackedFloat.finite.injEq, true_and]
      rw [hsignificand, hfraction, hexponent, exponent, if_pos hbits, hbits]
      exact ⟨rfl, rfl⟩
  case isFalse hsome =>
    have hbits : x.exponentBits ≠ 0 := by
      rw [← hexponent]
      exact fun hzero => hsome (BitVec.eq_of_toNat_eq hzero)
    have hsignificand : x.significand = 2 ^ 52 + x.fractionBits := by
      rw [significand, if_neg hbits, Nat.pow_eq]
    have hlt : x.fractionBits < 2 ^ 52 := by
      rw [fractionBits_eq]
      exact Nat.mod_lt _ (by norm_num)
    refine Or.inr ⟨by omega, ?_⟩
    simp only [UnpackedFloat.finite.injEq, true_and]
    -- the highest bit of the significand stands before those of the fraction
    rw [hsignificand, hexponent, exponent, if_neg hbits, BitVec.toNat_append, hfraction,
      ← Nat.shiftLeft_add_eq_or_of_lt hlt]
    exact ⟨rfl, rfl⟩

/-- A finite word with a negative sign and `¬x < 0` is a zero. -/
theorem significand_eq_zero (hfinite : x.isFinite) (hneg : x.isNegative) (h : ¬ x < 0) :
    x.significand = 0 := by
  rw [not_lt_zero_iff] at h
  rcases unpacked_cases hfinite with ⟨hzero, -⟩ | ⟨_, hvalue⟩
  · exact hzero
  · rw [hvalue, sign, if_pos hneg] at h
    exact h.elim

/-- **`0 ≤ x.toRat` for a finite word with `¬x < 0`.** -/
theorem toRat_nonneg (hfinite : x.isFinite) (h : ¬ x < 0) : 0 ≤ x.toRat := by
  rw [toRat_eq]
  split
  case isFalse => exact x.magnitude_nonneg
  case isTrue hneg => simp [magnitude, significand_eq_zero hfinite hneg h]

end Unpacked

end Binary64

/-! ## Settings and flows -/

/-- The settings in the numbers that their words denote. -/
def Config.exact (c : Config Binary64) : Config Rat where
  width := c.width.toRat
  height := c.height.toRat
  nodeWidth := c.nodeWidth.toRat
  nodePadding := c.nodePadding.toRat
  iterations := c.iterations
  curvature := c.curvature.toRat

/-- A flow in the number that its word denotes. -/
def Flow.exact (flow : Flow Binary64) : Flow Rat := { flow with value := flow.value.toRat }

/-- A flow between positions in the number that its word denotes. -/
def ResolvedFlow.exact (flow : ResolvedFlow Binary64) : ResolvedFlow Rat :=
  { flow with value := flow.value.toRat }

namespace Config

variable {config : Config Binary64}

/-- A length of `config.exact` is what its word denotes. -/
theorem dimension_exact (config : Config Binary64) (field : Dimension) :
    config.exact.dimension field = (config.dimension field).toRat := by
  cases field <;> rfl

/-- The lengths of `config.exact` are not negative if `config.error? = none`. -/
theorem dimension_exact_nonneg (h : config.error? = none) (field : Dimension) :
    0 ≤ config.exact.dimension field := by
  rw [dimension_exact]
  exact Binary64.toRat_nonneg (isFinite_dimension h field) (not_dimension_lt_zero h field)

/-- The lengths of `config.exact` are not beyond `greatest` if `config.error? = none`. -/
theorem dimension_exact_le_greatest (h : config.error? = none) (field : Dimension) :
    config.exact.dimension field ≤ Binary64.greatest := by
  rw [dimension_exact]
  exact (le_abs_self _).trans (Binary64.abs_toRat_le (isFinite_dimension h field))

end Config

/-- `Flow.resolve` and `exact` commute. -/
theorem Flow.resolve_exact {names : List String} {link : Nat} {flow : Flow Binary64}
    {r : ResolvedFlow Binary64} (h : flow.resolve names link = .ok r) :
    flow.exact.resolve names link = .ok r.exact := by
  obtain ⟨⟨hfinite, hneg⟩, hvalue, hsource, htarget⟩ := Flow.resolve_eq_ok h
  rw [hvalue] at hfinite hneg
  have hexact : ¬ flow.exact.value < 0 := not_lt.2 (Binary64.toRat_nonneg hfinite hneg)
  rw [Flow.resolve_of_ends rfl hexact (Endpoint.resolve_of_resolve hsource link)
    (Endpoint.resolve_of_resolve htarget link), ResolvedFlow.exact, hvalue]
  rfl

/-- `resolveAll` and `exact` commute. -/
theorem resolveAll_exact {names : List String} {flows : List (Flow Binary64)}
    {resolved : List (ResolvedFlow Binary64)} (h : resolveAll names flows = .ok resolved) :
    resolveAll names (flows.map Flow.exact) = .ok (resolved.map ResolvedFlow.exact) := by
  rw [resolveAll_eq_ok_iff] at h ⊢
  rw [List.forall₂_map_left_iff, List.forall₂_map_right_iff]
  exact h.imp fun _ _ hr link => Flow.resolve_exact (hr link)

/-- **Flows that `ofFlows` accepts in words are accepted in the numbers that the words denote.** -/
theorem Diagram.exists_ofFlows_exact {names : List String} {flows : List (Flow Binary64)}
    {w : Diagram Binary64} (h : ofFlows names flows = .ok w) :
    ∃ d, ofFlows names (flows.map Flow.exact) = .ok d := by
  obtain ⟨hnames, resolved, -, hresolve, -⟩ := ofFlows_eq_ok_iff.1 h
  obtain ⟨taken, -, hmade⟩ := exists_ofFlows_of_resolveAll hnames (resolveAll_exact hresolve)
  exact ⟨taken.diagram names, hmade⟩

end SankeyDiagram
