import SankeyDiagram.Proofs.Comparison
import SankeyDiagram.Quantum

/-! # Quanta of numbers

Which numbers have the same number of quanta. They are less than a quantum apart; but numbers that
are less than a quantum apart may have different numbers of quanta, one on either side of a bound
between them.

* **`Quantum.le_roundAway_iff`** the numbers that are rounded to a whole number or above it.
* **`Quantum.abs_sub_lt_one_of_roundAway`**, **`Quantum.abs_roundAway_sub_le_one`** how far apart
  numbers are that are rounded alike, and how far apart numbers are rounded that are less than one
  apart.
* **`Quantum.undivided_iff`** numbers have the same quanta iff no bound is between them.
* **`Quantum.ofBinary64_eq`** the quanta of a word are those of its product, an infinite one too.
* **`Quantum.ofBinary64_eq_iff`** words have the same quanta iff no bound is between their products.
* **`Quantum.abs_sub_lt_of_ofRat`** numbers of the same quanta are less than a quantum apart.
* **`Quantum.ofExact`** the quanta of a word if its product were exact;
  **`Quantum.ofBinary64_eq_ofExact`** those are its quanta where the product is exact. -/

namespace SankeyDiagram

namespace Quantum

variable {r s : Rat} {n m k : Int}

/-! ## Rounding -/

/-- A number is rounded to a whole number or to one above it. The bound itself is rounded up above
zero and down below it. -/
def Attains (r : Rat) (n : Int) : Prop :=
  if 0 < n then (n : Rat) - 1 / 2 ≤ r else (n : Rat) - 1 / 2 < r

/-- `n ≤ roundAway r` iff `Attains r n`: a number halfway between two is rounded away from zero. -/
theorem le_roundAway_iff : n ≤ roundAway r ↔ Attains r n := by
  rw [roundAway, Attains]
  split
  case isTrue hneg =>
    -- below zero the program rounds what is above zero, and takes it back
    have hfloor : n ≤ -(-r + 1 / 2).floor ↔ (n : Rat) - 1 / 2 < r := by
      rw [le_neg, ← Int.lt_add_one_iff, Rat.floor_lt_iff]
      push_cast
      constructor <;> intro h <;> linarith
    rw [hfloor]
    split
    case isTrue hn =>
      have hone : (1 : Rat) ≤ n := by exact_mod_cast hn
      exact iff_of_false (by linarith) (by linarith)
    case isFalse => rfl
  case isFalse hneg =>
    rw [Rat.le_floor_iff, sub_le_iff_le_add]
    split
    case isTrue => rfl
    case isFalse hn =>
      have hzero : (n : Rat) ≤ 0 := by exact_mod_cast not_lt.1 hn
      rw [not_lt] at hneg
      exact iff_of_true (by linarith) (by linarith)

/-- What attains `n` is at most half below it. -/
theorem Attains.le (h : Attains r n) : (n : Rat) - 1 / 2 ≤ r := by
  rw [Attains] at h
  split at h
  · exact h
  · exact h.le

/-- What is less than half below `n` attains it. -/
theorem Attains.of_lt (h : (n : Rat) - 1 / 2 < r) : Attains r n := by
  rw [Attains]
  split
  · exact h.le
  · exact h

/-- `roundAway r` is at most half above `r`. -/
theorem sub_half_le_roundAway (r : Rat) : (roundAway r : Rat) - 1 / 2 ≤ r :=
  (le_roundAway_iff.1 le_rfl).le

/-- `roundAway r` is at most half below `r`. -/
theorem le_roundAway_add_half (r : Rat) : r ≤ (roundAway r : Rat) + 1 / 2 := by
  by_contra hlt
  have hattains : Attains r (roundAway r + 1) := .of_lt (by push_cast; linarith)
  have hle := le_roundAway_iff.2 hattains
  omega

/-- **`|r - s| < 1` if `roundAway r = roundAway s`.** Both bounds of a whole number are one apart,
but not both of them are rounded to it. -/
theorem abs_sub_lt_one_of_roundAway (h : roundAway r = roundAway s) : |r - s| < 1 := by
  have hcell : ∀ {r s : Rat}, roundAway r = roundAway s → r - s < 1 := by
    intro r s h
    -- `r` does not attain the next whole number, and `s` attains this one
    have hupper : ¬Attains r (roundAway r + 1) := by
      rw [← le_roundAway_iff]
      omega
    have hlower : Attains s (roundAway r) := le_roundAway_iff.1 h.le
    rw [Attains] at hupper hlower
    by_cases hpos : 0 < roundAway r
    · -- above zero the lower bound is rounded up to the whole number, and the upper beyond it
      rw [if_pos (by omega), not_le] at hupper
      rw [if_pos hpos] at hlower
      push_cast at hupper
      linarith
    · rw [if_neg hpos] at hlower
      have hle : r ≤ (roundAway r : Rat) + 1 - 1 / 2 := by
        split at hupper
        · exact_mod_cast (not_le.1 hupper).le
        · exact_mod_cast not_lt.1 hupper
      linarith
  rw [abs_sub_lt_iff]
  exact ⟨hcell h, hcell h.symm⟩

/-- `roundAway` takes numbers less than one apart to one whole number or to neighbours. -/
theorem abs_roundAway_sub_le_one (h : |r - s| < 1) : |roundAway r - roundAway s| ≤ 1 := by
  have hnext : ∀ {r s : Rat}, |r - s| < 1 → roundAway r ≤ roundAway s + 1 := by
    intro r s h
    have hattains : Attains s (roundAway r - 1) := by
      refine .of_lt ?_
      have hle := sub_half_le_roundAway r
      have hlt := (abs_sub_lt_iff.1 h).1
      push_cast
      linarith
    have hle := le_roundAway_iff.2 hattains
    omega
  have hrs := hnext h
  have hsr := hnext (abs_sub_comm r s ▸ h)
  rw [abs_le]
  omega

/-! ## Numbers of quanta in 64 bits -/

/-- Between the bounds `clamp` changes no comparison. -/
theorem le_clamp_iff (hleast : least < n) (hgreatest : n ≤ greatest) : n ≤ clamp m ↔ n ≤ m := by
  rw [clamp]
  omega

/-- `clamp` leaves what is between its bounds. -/
theorem clamp_eq_self (hleast : least ≤ m) (hgreatest : m ≤ greatest) : clamp m = m := by
  rw [clamp]
  omega

/-- `least` bounds `clamp m` from below. -/
theorem least_le_clamp (m : Int) : least ≤ clamp m := le_max_left _ _

/-- `greatest` bounds `clamp m` from above. -/
theorem clamp_le_greatest (m : Int) : clamp m ≤ greatest :=
  max_le (by decide) (min_le_left _ _)

/-- Only whole numbers of 64 bits tell two apart after `clamp`. -/
theorem clamp_eq_iff :
    clamp m = clamp k ↔ ∀ n, least < n → n ≤ greatest → (n ≤ m ↔ n ≤ k) := by
  constructor
  · intro h n hleast hgreatest
    rw [← le_clamp_iff hleast hgreatest, h, le_clamp_iff hleast hgreatest]
  · intro h
    have hle : ∀ {m k : Int}, (∀ n, least < n → n ≤ greatest → (n ≤ m ↔ n ≤ k)) →
        clamp m ≤ clamp k := by
      intro m k h
      rcases (least_le_clamp m).eq_or_lt with heq | hlt
      · rw [← heq]
        exact least_le_clamp k
      · have hmax := clamp_le_greatest m
        rw [le_clamp_iff hlt hmax, ← h _ hlt hmax, ← le_clamp_iff hlt hmax]
    exact le_antisymm (hle h) (hle fun n hleast hgreatest => (h n hleast hgreatest).symm)

/-- `clamp` moves whole numbers no further apart. -/
theorem abs_clamp_sub_le (m k : Int) : |clamp m - clamp k| ≤ |m - k| := by
  rw [abs_le]
  rcases abs_cases (m - k) with ⟨habs, hsign⟩ | ⟨habs, hsign⟩ <;>
    rw [habs, clamp, clamp] <;> omega

/-- No bound between numbers of quanta that fit 64 bits is between two numbers. -/
def Undivided (r s : Rat) : Prop :=
  ∀ n, least < n → n ≤ greatest → (Attains r n ↔ Attains s n)

/-- Two numbers are `Undivided` iff they have the same `clamp (roundAway _)`. -/
theorem undivided_iff : Undivided r s ↔ clamp (roundAway r) = clamp (roundAway s) := by
  simp only [clamp_eq_iff, le_roundAway_iff]
  rfl

/-! ## Quanta of words -/

/-- The magnitude that a word without a finite value has by its bits is at least `2 ^ 64`, beyond
all that `clamp` leaves. -/
theorem le_magnitude_of_not_isFinite {x : Binary64} (h : ¬x.isFinite) :
    (2 : Rat) ^ 64 ≤ x.magnitude := by
  have hbits : x.exponentBits = 2047 := by
    have hlt := x.bits.toNat_lt
    rw [Binary64.isFinite_iff] at h
    have heq := x.exponentBits_eq
    omega
  have hexponent : x.exponent = 972 := by
    rw [Binary64.exponent, hbits]
    rfl
  have hsignificand : (2 : Rat) ^ 52 ≤ x.significand := by
    exact_mod_cast Binary64.le_significand (by rw [hexponent]; decide)
  rw [Binary64.magnitude_eq, hexponent]
  -- 53 bits before the greatest exponent are far more than 64
  have hpow : (2 : Rat) ^ (12 : Int) ≤ 2 ^ (972 : Int) :=
    zpow_le_zpow_right₀ one_le_two (by decide)
  calc (2 : Rat) ^ 64 = (2 : Rat) ^ 52 * (2 : Rat) ^ (12 : Int) := by norm_num
    _ ≤ x.significand * (2 : Rat) ^ (972 : Int) :=
      mul_le_mul hsignificand hpow (by positivity) (Nat.cast_nonneg _)

/-- **`ofBinary64 x` is the number of quanta of the product `x * perUnit`.** A product that is
infinite has the extreme numbers of quanta, as the number by its bits has. -/
theorem ofBinary64_eq {x : Binary64} (h : ¬x.isNaN) :
    ofBinary64 x = clamp (roundAway (x * ((perUnit : Nat) : Binary64)).toRat) := by
  rw [ofBinary64, if_neg h]
  generalize x * ((perUnit : Nat) : Binary64) = scaled
  by_cases hfinite : scaled.isFinite
  · rw [if_pos hfinite]
  · -- the magnitude that an infinite product has by its bits is beyond both bounds
    have hfar := le_magnitude_of_not_isFinite hfinite
    rw [if_neg hfinite]
    split
    case isTrue hneg =>
      have hle : (roundAway scaled.toRat : Rat) ≤ (least : Int) := by
        have hround := sub_half_le_roundAway scaled.toRat
        rw [Binary64.toRat_eq, if_pos hneg] at hround ⊢
        have hleast : ((least : Int) : Rat) = -2 ^ 63 := by norm_num [least]
        rw [hleast]
        linarith
      have hle : roundAway scaled.toRat ≤ least := by exact_mod_cast hle
      rw [clamp]
      omega
    case isFalse hneg =>
      have hle : ((greatest : Int) : Rat) ≤ roundAway scaled.toRat := by
        have hround := le_roundAway_add_half scaled.toRat
        rw [Binary64.toRat_eq, if_neg hneg] at hround ⊢
        have hgreatest : ((greatest : Int) : Rat) = 2 ^ 63 - 1 := by norm_num [greatest]
        rw [hgreatest]
        linarith
      have hle : greatest ≤ roundAway scaled.toRat := by exact_mod_cast hle
      have hbelow : least ≤ greatest := by decide
      rw [clamp]
      omega

/-- Words that are numbers have the same `ofBinary64` iff their products are `Undivided`. -/
theorem ofBinary64_eq_iff {x y : Binary64} (hx : ¬x.isNaN) (hy : ¬y.isNaN) :
    ofBinary64 x = ofBinary64 y ↔
      Undivided (x * ((perUnit : Nat) : Binary64)).toRat
        (y * ((perUnit : Nat) : Binary64)).toRat := by
  rw [undivided_iff, ofBinary64_eq hx, ofBinary64_eq hy]

/-! ## Quanta of exact products -/

/-- Quanta scale distances by `perUnit`. -/
theorem abs_mul_perUnit_sub (r s : Rat) :
    |r * (perUnit : Nat) - s * (perUnit : Nat)| = |r - s| * 1000000 := by
  rw [← sub_mul, abs_mul]
  norm_num [perUnit]

/-- `ofRat r` needs no `clamp` below the limit. -/
theorem ofRat_of_abs_lt (h : |r| < 9200000000000) : ofRat r = roundAway (r * (perUnit : Nat)) := by
  have hscaled : |r * (perUnit : Nat)| < 9200000000000000000 := by
    have hmul := abs_mul_perUnit_sub r 0
    rw [zero_mul, sub_zero, sub_zero] at hmul
    rw [hmul]
    linarith
  have hlower := sub_half_le_roundAway (r * (perUnit : Nat))
  have hupper := le_roundAway_add_half (r * (perUnit : Nat))
  rw [abs_lt] at hscaled
  -- half a quantum does not reach from the limit to a bound of 64 bits
  refine clamp_eq_self ?_ ?_
  · have hle : ((least : Int) : Rat) ≤ roundAway (r * (perUnit : Nat)) := by
      norm_num [least]
      linarith
    exact_mod_cast hle
  · have hle : (roundAway (r * (perUnit : Nat)) : Rat) ≤ (greatest : Int) := by
      norm_num [greatest]
      linarith
    exact_mod_cast hle

/-- **Numbers below the limit with one `ofRat` are less than a quantum apart.** -/
theorem abs_sub_lt_of_ofRat (hr : |r| < 9200000000000) (hs : |s| < 9200000000000)
    (h : ofRat r = ofRat s) : |r - s| < 1 / 1000000 := by
  rw [ofRat_of_abs_lt hr, ofRat_of_abs_lt hs] at h
  have hlt := abs_sub_lt_one_of_roundAway h
  rw [abs_mul_perUnit_sub] at hlt
  rw [lt_div_iff₀ (by norm_num)]
  exact hlt

/-- `ofRat` takes numbers less than a quantum apart to one number of quanta or to neighbours. -/
theorem abs_ofRat_sub_le_one (h : |r - s| < 1 / 1000000) : |ofRat r - ofRat s| ≤ 1 := by
  refine (abs_clamp_sub_le _ _).trans (abs_roundAway_sub_le_one ?_)
  rw [abs_mul_perUnit_sub, ← lt_div_iff₀ (by norm_num)]
  exact h

variable {x y : Binary64}

/-- The quanta of a word, with an exact product. -/
def ofExact (x : Binary64) : Int :=
  if x.isNaN then least else ofRat x.toRat

/-- Two words denote numbers less than a quantum apart. -/
def Near (x y : Binary64) : Prop := |x.toRat - y.toRat| < 1 / 1000000

instance : DecidableRel Near := fun x y =>
  inferInstanceAs (Decidable (|x.toRat - y.toRat| < 1 / 1000000))

/-- A word denotes a number below the limit. -/
def Moderate (x : Binary64) : Prop := x.isFinite ∧ |x.toRat| < 9200000000000

instance : DecidablePred Moderate := fun x =>
  inferInstanceAs (Decidable (x.isFinite ∧ |x.toRat| < 9200000000000))

/-- `ofExact` of a finite word is `ofRat` of what it denotes. -/
theorem ofExact_of_isFinite (h : x.isFinite) : ofExact x = ofRat x.toRat :=
  if_neg (Binary64.not_isNaN_of_isFinite h)

/-- Words that are `Moderate`, with one `ofExact`, are `Near`. -/
theorem near_of_ofExact (hx : Moderate x) (hy : Moderate y) (h : ofExact x = ofExact y) :
    Near x y := by
  rw [ofExact_of_isFinite hx.1, ofExact_of_isFinite hy.1] at h
  exact abs_sub_lt_of_ofRat hx.2 hy.2 h

/-- `ofExact` takes finite words that are `Near` to one number of quanta or to neighbours. -/
theorem Near.abs_ofExact_sub_le_one (h : Near x y) (hx : x.isFinite) (hy : y.isFinite) :
    |ofExact x - ofExact y| ≤ 1 := by
  rw [ofExact_of_isFinite hx, ofExact_of_isFinite hy]
  exact abs_ofRat_sub_le_one h

/-- `ofBinary64 x = ofExact x` if the exact product is a word. -/
theorem ofBinary64_eq_ofExact
    (h : (x * ((perUnit : Nat) : Binary64)).toRat = x.toRat * (perUnit : Nat)) :
    ofBinary64 x = ofExact x := by
  by_cases hnan : x.isNaN
  · rw [ofBinary64, if_pos hnan, ofExact, if_pos hnan]
  · rw [ofBinary64_eq hnan, h, ofExact, if_neg hnan, ofRat]

end Quantum

end SankeyDiagram
