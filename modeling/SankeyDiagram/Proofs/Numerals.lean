import Mathlib.Data.List.TakeWhile
import SankeyDiagram.Json.Basic
import SankeyDiagram.Json.Token

/-! # Written numbers

What is scanned of numbers that were written, whole ones and others: the whole of them, and nothing
of what comes behind them.

* **`WholeDigits`** digits that may stand before a point.
* **`NumberScan.scan_decimalChars`** a written decimal is scanned whole.
* **`NumberScan.scan_digitChars`**, **`NumberScan.scan_shortest`** so are the whole numbers and the
  words of documents. -/

namespace SankeyDiagram

/-! ## Digits -/

namespace Decimal

/-- `digitChars n` are digits. -/
theorem isDigit_of_mem_digitChars {n : Nat} {c : Char} (h : c ∈ digitChars n) : c.isDigit :=
  Nat.isDigit_of_mem_toDigits (by decide) (by decide) h

/-- Every number has a digit. -/
theorem digitChars_ne_nil (n : Nat) : digitChars n ≠ [] :=
  Nat.toDigits_ne_nil

/-- Zero is written `0`. -/
theorem digitChars_zero : digitChars 0 = ['0'] := rfl

/-- Only zero is written with a `0` in front. -/
theorem head?_digitChars_ne {n : Nat} (h : n ≠ 0) : (digitChars n).head? ≠ some '0' := by
  induction n using Nat.strong_induction_on with
  | _ n ih =>
    rw [digitChars, Nat.toDigits_eq_if (by decide)]
    split
    case isTrue hsmall =>
      have hdigits : ∀ m < 10, m ≠ 0 → [Nat.digitChar m].head? ≠ some '0' := by decide
      exact hdigits n hsmall h
    case isFalse hlarge =>
      -- the first digit of a longer number is that of its tenth
      have hfirst := ih (n / 10) (by omega) (by omega)
      rw [digitChars] at hfirst
      rw [List.head?_append]
      cases hhead : (Nat.toDigits 10 (n / 10)).head? with
      | none => exact absurd (List.head?_eq_none_iff.1 hhead) Nat.toDigits_ne_nil
      | some c =>
        rw [Option.some_or, ← hhead]
        exact hfirst

end Decimal

/-- `value (digitChars n) = n`. -/
theorem NumberText.value_digitChars (n : Nat) : value (Decimal.digitChars n) = n :=
  Nat.ofDigitChars_toDigits (by decide) (by decide)

/-- Digits are scanned up to the first character that is none. -/
theorem takeWhile_digits_append {digits rest : List Char} (hdigits : ∀ c ∈ digits, c.isDigit)
    (hrest : ∀ c ∈ rest.head?, ¬ c.isDigit) :
    (digits ++ rest).takeWhile Char.isDigit = digits ∧
      (digits ++ rest).dropWhile Char.isDigit = rest := by
  rw [List.takeWhile_append_of_pos hdigits, List.dropWhile_append_of_pos hdigits]
  cases rest with
  | nil => simp
  | cons c rest =>
    have hc : ¬ c.isDigit := hrest c rfl
    simp [hc]

/-! ## Numbers -/

/-- No number goes on into a text. -/
def EndsNumber (rest : List Char) : Prop :=
  ∀ c ∈ rest.head?, ¬ c.isDigit ∧ c ≠ '.' ∧ c ≠ 'e' ∧ c ≠ 'E'

/-- Digits that may be the whole digits of a number: a zero is the only one of them or not the
first. -/
structure WholeDigits (digits : List Char) : Prop where
  ne_nil : digits ≠ []
  isDigit : ∀ c ∈ digits, c.isDigit
  zero : digits.head? = some '0' → digits = ['0']

namespace NumberScan

variable {negative marked : Bool} {whole places rest : List Char}

/-- `scanExponent` without an exponent is complete where the number ends. -/
theorem scanExponent_of_endsNumber (h : EndsNumber rest) :
    scanExponent negative whole places marked rest
      = .complete ⟨negative, whole, places, 0, !marked⟩ rest := by
  cases rest with
  | nil => rfl
  | cons c cs =>
    obtain ⟨-, -, he, hE⟩ := h c rfl
    rw [scanExponent, if_neg (not_or.2 ⟨he, hE⟩)]

/-- `scanExponent` reads a written exponent. -/
theorem scanExponent_exponentChars (e : Int) (h : EndsNumber rest) :
    scanExponent negative whole places marked ('e' :: (NumberStyle.exponentChars e ++ rest))
      = .complete ⟨negative, whole, places, e, false⟩ rest := by
  have hsign : exponentSign (NumberStyle.exponentChars e ++ rest)
      = (decide (e < 0), Decimal.digitChars e.natAbs ++ rest) := by
    rw [NumberStyle.exponentChars]
    by_cases hneg : e < 0
    · simp [hneg, exponentSign]
    · simp [hneg, exponentSign]
  have hdigits : ∀ c ∈ Decimal.digitChars e.natAbs, c.isDigit :=
    fun _ => Decimal.isDigit_of_mem_digitChars
  have hrest : ∀ c ∈ rest.head?, ¬ c.isDigit := fun c hc => (h c hc).1
  obtain ⟨htake, hdrop⟩ := takeWhile_digits_append hdigits hrest
  rw [scanExponent, if_pos (Or.inl rfl), hsign]
  simp only [htake, hdrop, Decimal.digitChars_ne_nil, if_false, NumberText.value_digitChars]
  -- the sign and the digits that were read make the exponent
  have hvalue : (if decide (e < 0) = true then -(e.natAbs : Int) else e.natAbs) = e := by
    split
    case isTrue hneg =>
      have hlt : e < 0 := of_decide_eq_true hneg
      omega
    case isFalse hneg =>
      have hle : ¬ e < 0 := fun hlt => hneg (decide_eq_true hlt)
      omega
  rw [hvalue]

/-- `scanPlaces` reads a point and the digits behind it. -/
theorem scanPlaces_point (hne : places ≠ []) (hplaces : ∀ c ∈ places, c.isDigit)
    (hrest : ∀ c ∈ rest.head?, ¬ c.isDigit) :
    scanPlaces negative whole ('.' :: (places ++ rest))
      = scanExponent negative whole places true rest := by
  obtain ⟨htake, hdrop⟩ := takeWhile_digits_append hplaces hrest
  simp only [scanPlaces, htake, hdrop, hne, if_false]

/-- `scanPlaces` without a point goes on to the exponent. -/
theorem scanPlaces_of_head?_ne (h : ∀ c ∈ rest.head?, c ≠ '.') :
    scanPlaces negative whole rest = scanExponent negative whole [] false rest := by
  cases rest with
  | nil => rfl
  | cons c cs =>
    have hc : c ≠ '.' := h c rfl
    simp [scanPlaces, hc]

/-- `scan` reads `WholeDigits` up to the first character that is no digit. -/
theorem scan_of_wholeDigits (hwhole : WholeDigits whole) (hrest : ∀ c ∈ rest.head?, ¬ c.isDigit) :
    scan negative (whole ++ rest) = scanPlaces negative whole rest := by
  obtain ⟨htake, hdrop⟩ := takeWhile_digits_append hwhole.isDigit hrest
  rw [scan, htake, hdrop]
  split
  case h_1 => exact absurd rfl hwhole.ne_nil
  case h_2 c cs =>
    have hzero := hwhole.zero rfl
    cases hzero
  case h_3 => rfl

end NumberScan

/-! ## Written decimals -/

/-- What a decimal is written as in documents. -/
def NumberText.ofDecimal (negative : Bool) (d : Decimal) : NumberText :=
  if NumberStyle.document.isPositional d then
    match d.positional with
    | (whole, []) => ⟨negative, whole, ['0'], 0, false⟩
    | (whole, places) => ⟨negative, whole, places, 0, false⟩
  else
    ⟨negative, (Decimal.digitChars d.digits).take 1, (Decimal.digitChars d.digits).drop 1,
      d.leadingExponent, false⟩

namespace WholeDigits

/-- One digit is `WholeDigits`, zero included. -/
theorem singleton {c : Char} (h : c.isDigit) : WholeDigits [c] where
  ne_nil := List.cons_ne_nil _ _
  isDigit _ hmem := List.mem_singleton.1 hmem ▸ h
  zero hzero := by rw [Option.some.inj hzero]

/-- Digits without a `0` in front are `WholeDigits`. -/
theorem of_head?_ne {digits : List Char} (hne : digits ≠ []) (hdigits : ∀ c ∈ digits, c.isDigit)
    (hzero : digits.head? ≠ some '0') : WholeDigits digits :=
  ⟨hne, hdigits, fun h => absurd h hzero⟩

/-- `digitChars n` are `WholeDigits`. -/
theorem digitChars (n : Nat) : WholeDigits (Decimal.digitChars n) := by
  by_cases hn : n = 0
  · rw [hn]
    exact singleton (by decide)
  · exact of_head?_ne (Decimal.digitChars_ne_nil n) (fun _ => Decimal.isDigit_of_mem_digitChars)
      (Decimal.head?_digitChars_ne hn)

end WholeDigits

namespace Decimal

/-- The digits before the point of a decimal are `WholeDigits`. -/
theorem wholeDigits_positional {d : Decimal} (hd : d.digits = 0 → d.exponent ≤ 0) :
    WholeDigits d.positional.1 := by
  have hdigit : ∀ c ∈ digitChars d.digits, c.isDigit := fun _ => isDigit_of_mem_digitChars
  rw [positional]
  split
  case isTrue hexponent =>
    -- zeros are put behind the digits, so that the first digit stays the first one
    by_cases hzero : d.digits = 0
    · have hnone : d.exponent.toNat = 0 := by have := hd hzero; omega
      rw [hzero, hnone, List.replicate_zero, List.append_nil]
      exact .singleton (by decide)
    · refine .of_head?_ne (by simp [digitChars_ne_nil]) ?_ ?_
      · intro c hc
        rcases List.mem_append.1 hc with hc | hc
        · exact hdigit c hc
        · rw [List.eq_of_mem_replicate hc]
          decide
      · rw [List.head?_append, Option.or_of_isSome (by simp [digitChars_ne_nil])]
        exact head?_digitChars_ne hzero
  case isFalse hexponent =>
    dsimp only
    split
    case isTrue hplaces =>
      -- the digits before the point are the first of them all
      have hcount : 0 < (digitChars d.digits).length - (-d.exponent).toNat := by omega
      have hne : d.digits ≠ 0 := by
        intro hzero
        rw [hzero, digitChars_zero, List.length_singleton] at hplaces
        omega
      have htake : (digitChars d.digits).take ((digitChars d.digits).length - (-d.exponent).toNat)
          ≠ [] := by
        rw [ne_eq, List.take_eq_nil_iff, not_or]
        exact ⟨by omega, digitChars_ne_nil _⟩
      refine .of_head?_ne htake (fun c hc => hdigit c (List.mem_of_mem_take hc)) ?_
      rw [List.head?_take, if_neg (by omega)]
      exact head?_digitChars_ne hne
    case isFalse => exact .singleton (by decide)

/-- What stands behind the point of a decimal are digits. -/
theorem isDigit_of_mem_positional {d : Decimal} {c : Char} (h : c ∈ d.positional.2) :
    c.isDigit := by
  rw [positional] at h
  split at h
  case isTrue => cases h
  case isFalse =>
    dsimp only at h
    split at h
    case isTrue => exact isDigit_of_mem_digitChars (List.mem_of_mem_drop h)
    case isFalse =>
      rcases List.mem_append.1 h with h | h
      · rw [List.eq_of_mem_replicate h]
        decide
      · exact isDigit_of_mem_digitChars h

end Decimal

namespace NumberScan

variable {negative : Bool} {rest : List Char}

/-- `scan` of digits with a point among them and no exponent. -/
theorem scan_pointed {whole places : List Char} (hwhole : WholeDigits whole) (hne : places ≠ [])
    (hplaces : ∀ c ∈ places, c.isDigit) (hrest : EndsNumber rest) :
    scan negative (whole ++ '.' :: (places ++ rest))
      = .complete ⟨negative, whole, places, 0, false⟩ rest := by
  rw [scan_of_wholeDigits hwhole (by simp), scanPlaces_point hne hplaces fun c hc => (hrest c hc).1,
    scanExponent_of_endsNumber hrest]
  rfl

/-- `scan` of a digit, a point and digits if there are more, and an exponent. -/
theorem scan_leading {digit : Char} (hdigit : digit.isDigit) {places : List Char}
    (hplaces : ∀ c ∈ places, c.isDigit) (e : Int) (hrest : EndsNumber rest) :
    scan negative (digit :: ((if places = [] then [] else '.' :: places)
        ++ 'e' :: (NumberStyle.exponentChars e ++ rest)))
      = .complete ⟨negative, [digit], places, e, false⟩ rest := by
  -- the mark of an exponent is neither a digit nor a point
  have hmark : ∀ c ∈ ('e' :: (NumberStyle.exponentChars e ++ rest)).head?,
      ¬ c.isDigit ∧ c ≠ '.' := by
    intro c hc
    cases hc
    decide
  have hwhole : WholeDigits [digit] := .singleton hdigit
  cases places with
  | nil =>
    show scan negative ([digit] ++ 'e' :: (NumberStyle.exponentChars e ++ rest)) = _
    rw [scan_of_wholeDigits hwhole fun c hc => (hmark c hc).1,
      scanPlaces_of_head?_ne fun c hc => (hmark c hc).2, scanExponent_exponentChars e hrest]
  | cons place places =>
    show scan negative ([digit] ++ '.' :: ((place :: places)
      ++ 'e' :: (NumberStyle.exponentChars e ++ rest))) = _
    rw [scan_of_wholeDigits hwhole (by simp),
      scanPlaces_point (List.cons_ne_nil place places) hplaces fun c hc => (hmark c hc).1,
      scanExponent_exponentChars e hrest]

/-- **`scan` reads the whole of `NumberStyle.document.decimalChars d`, as
`NumberText.ofDecimal`.** -/
theorem scan_decimalChars {d : Decimal} (hd : d.digits = 0 → d.exponent ≤ 0)
    (hrest : EndsNumber rest) :
    scan negative (NumberStyle.document.decimalChars d ++ rest)
      = .complete (.ofDecimal negative d) rest := by
  rw [NumberStyle.decimalChars, NumberText.ofDecimal]
  split
  case isTrue =>
    have hwhole := Decimal.wholeDigits_positional hd
    have hplaces : ∀ c ∈ d.positional.2, c.isDigit := fun _ => Decimal.isDigit_of_mem_positional
    cases hpositional : d.positional with
    | mk whole places =>
      rw [hpositional] at hwhole hplaces
      cases places with
      | nil =>
        -- a decimal without places is written with one zero behind the point
        show scan negative (whole ++ ['.', '0'] ++ rest) = _
        rw [List.append_assoc]
        exact scan_pointed hwhole (List.cons_ne_nil '0' []) (by simp) hrest
      | cons c cs =>
        show scan negative (whole ++ '.' :: (c :: cs) ++ rest) = _
        rw [List.append_assoc]
        exact scan_pointed hwhole (List.cons_ne_nil c cs) hplaces hrest
  case isFalse =>
    have hdigits : ∀ c ∈ Decimal.digitChars d.digits, c.isDigit :=
      fun _ => Decimal.isDigit_of_mem_digitChars
    cases hchars : Decimal.digitChars d.digits with
    | nil => exact absurd hchars (Decimal.digitChars_ne_nil _)
    | cons c cs =>
      rw [hchars, List.forall_mem_cons] at hdigits
      -- one digit stands before the point, and all others behind it
      have hscan := @scan_leading negative rest c hdigits.1 cs hdigits.2 d.leadingExponent hrest
      cases cs with
      | nil => exact hscan
      | cons place places =>
        show scan negative (c :: '.' :: ((place :: places) ++ 'e' ::
          NumberStyle.exponentChars _) ++ rest) = _
        simpa using hscan

end NumberScan

/-! ## Digits of words -/

namespace Decimal

/-- `dropZeros` leaves digits that are not all zero. -/
theorem digits_dropZeros_ne {d : Decimal} (h : d.digits ≠ 0) (n : Nat) :
    (dropZeros n d).digits ≠ 0 := by
  induction n generalizing d with
  | zero => exact h
  | succ n ih =>
    rw [dropZeros]
    split
    case isTrue hlast =>
      rw [Bool.and_eq_true, decide_eq_true_eq] at hlast
      exact ih (show d.digits / 10 ≠ 0 by omega)
    case isFalse => exact h

/-- A decimal that `onGrid?` finds is not zero. -/
theorem digits_ne_of_onGrid? {tie : Tie} {x : Binary64} {exponent : Int} {d : Decimal}
    (h : onGrid? tie x exponent = some d) : d.digits ≠ 0 := by
  -- the program compares two neighbours, and gives the lower one only if it is not zero
  rw [onGrid?.eq_def] at h
  dsimp only at h
  generalize floorOnGrid x exponent = count at h
  generalize hlow : (count != 0 && roundsTo x ⟨count, exponent⟩) = low at h
  generalize roundsTo x ⟨count + 1, exponent⟩ = high at h
  generalize compareBinary (2 * count + 1) exponent (2 * x.significand) x.exponent = order at h
  have hcount : low = true → (⟨count, exponent⟩ : Decimal).digits ≠ 0 := by
    intro htrue
    rw [htrue, Bool.and_eq_true, bne_iff_ne] at hlow
    exact hlow.1
  have hnext : (⟨count + 1, exponent⟩ : Decimal).digits ≠ 0 := Nat.succ_ne_zero count
  cases low with
  | false =>
    cases high with
    | false => cases h
    | true => exact Option.some.inj h ▸ hnext
  | true =>
    cases high with
    | false => exact Option.some.inj h ▸ hcount rfl
    | true =>
      cases order with
      | gt => exact Option.some.inj h ▸ hcount rfl
      | lt => exact Option.some.inj h ▸ hnext
      | eq =>
        cases tie with
        | up => exact Option.some.inj h ▸ hnext
        | toEven =>
          dsimp only at h
          split at h
          · exact Option.some.inj h ▸ hcount rfl
          · exact Option.some.inj h ▸ hnext

/-- `shortest` writes only a word of magnitude zero with the digit zero alone. -/
theorem digits_shortest_ne {tie : Tie} {x : Binary64} (h : x.significand ≠ 0) :
    (shortest tie x).digits ≠ 0 := by
  have hpow : ∀ b n : Nat, b ≠ 0 → x.significand * Nat.pow b n ≠ 0 :=
    fun b n hb => Nat.mul_ne_zero h (Nat.pow_pos (by omega)).ne'
  -- a word that no grid has a shorter decimal for is written in full
  have hword : (ofWord x).digits ≠ 0 := by
    rw [ofWord]
    split
    · exact hpow 2 _ (by decide)
    · exact hpow 5 _ (by decide)
  rw [shortest, if_neg h]
  apply digits_dropZeros_ne
  cases hfound : (List.range 17).findSome? fun (n : Nat) =>
      onGrid? tie x (pointPosition x - 1 - (n : Int)) with
  | none => exact hword
  | some d =>
    obtain ⟨n, -, hn⟩ := List.exists_of_findSome?_eq_some hfound
    exact digits_ne_of_onGrid? hn

/-- `shortest` gives zero no exponent above zero. -/
theorem exponent_shortest_le {tie : Tie} {x : Binary64} (h : (shortest tie x).digits = 0) :
    (shortest tie x).exponent ≤ 0 := by
  by_cases hzero : x.significand = 0
  · simp [shortest, hzero]
  · exact absurd h (digits_shortest_ne hzero)

end Decimal

/-! ## Numbers of documents -/

namespace NumberText

/-- What a whole number is written as. -/
def ofInt (n : Int) : NumberText :=
  ⟨n < 0, Decimal.digitChars n.natAbs, [], 0, true⟩

/-- What a finite word is written as. -/
def ofWord (x : Binary64) : NumberText :=
  .ofDecimal x.isNegative (.shortest NumberStyle.document.tie x)

/-- `NumberText.ofWord` is not whole: words are written with a point or with an exponent. -/
theorem isWhole_ofWord (x : Binary64) : (ofWord x).isWhole = false := by
  rw [ofWord, ofDecimal]
  split
  · split <;> rfl
  · rfl

end NumberText

namespace NumberScan

variable {negative : Bool} {rest : List Char}

/-- `scan` reads the whole of `digitChars n`, as a whole number. -/
theorem scan_digitChars (n : Nat) (hrest : EndsNumber rest) :
    scan negative (Decimal.digitChars n ++ rest)
      = .complete ⟨negative, Decimal.digitChars n, [], 0, true⟩ rest := by
  rw [scan_of_wholeDigits (.digitChars n) fun c hc => (hrest c hc).1,
    scanPlaces_of_head?_ne fun c hc => (hrest c hc).2.1, scanExponent_of_endsNumber hrest]
  rfl

/-- `scan` reads the whole of a written word, as `NumberText.ofWord`. -/
theorem scan_shortest (x : Binary64) (hrest : EndsNumber rest) :
    scan x.isNegative (NumberStyle.document.decimalChars
        (.shortest NumberStyle.document.tie x) ++ rest) = .complete (.ofWord x) rest :=
  scan_decimalChars Decimal.exponent_shortest_le hrest

end NumberScan

end SankeyDiagram
