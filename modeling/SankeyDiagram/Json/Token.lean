import SankeyDiagram.Decimal.Scaled

/-! # Tokens of document text

The pieces that document text is made of. Text that breaks off inside a piece yields a piece that
says how, so that a reader reports the first fault that it meets and no fault of text that it has
no use for.

## Main definitions

* **`Break`**, **`Cut`** how text can break off, for a reader that needs the piece and for one that
  passes over it.
* **`NumberText`** a number as written, **`NumberText.float?`** the floating-point number that it
  is read as, and **`NumberText.numeral?`** what it denotes.
* **`Token`** a piece of text.
* **`Token.scan`** the pieces of a text, up to and including the first that breaks off.
-/

namespace SankeyDiagram

/-- How text can fail to be a document. -/
inductive Break where
  /-- A character stands where none of its kind may stand. -/
  | malformed
  /-- The text ends too early. -/
  | ended
deriving DecidableEq, Repr

/-- How text breaks off: what a reader of the piece reports, and what one that only passes over
the piece does. -/
structure Cut where
  /-- For a reader of the piece. -/
  read : Break
  /-- For a reader that passes over the piece. -/
  skipped : Break
deriving DecidableEq, Repr

namespace Cut

/-- A cut that every reader reports as malformed text. -/
def malformed : Cut := ⟨.malformed, .malformed⟩

/-- A cut that every reader reports as text that ends too early. -/
def ended : Cut := ⟨.ended, .ended⟩

/-- Text that ends inside a number; passing over it, that is malformed. -/
def endedNumber : Cut := ⟨.ended, .malformed⟩

end Cut

/-! ## Numbers -/

/-- A number as written. -/
structure NumberText where
  /-- Whether a minus sign comes first. -/
  negative : Bool
  /-- The digits before the point. -/
  whole : List Char
  /-- The digits behind the point. -/
  places : List Char
  /-- The power of ten behind the exponent mark. -/
  exponent : Int
  /-- Whether neither point nor exponent mark is written. -/
  isWhole : Bool
deriving DecidableEq, Repr

/-- What a written number denotes. -/
inductive Numeral where
  /-- A whole number. -/
  | int (value : Int)
  /-- A floating-point number. -/
  | float (value : Binary64)
deriving DecidableEq, Repr

namespace NumberText

/-- The number that a run of digits stands for. -/
def value (digits : List Char) : Nat :=
  Nat.ofDigitChars 10 digits 0

/-- What is held of the digits of a written number, with its exponent. -/
def decimal (n : NumberText) : Decimal :=
  let held := Decimal.ofDigits n.whole n.places
  ⟨held.digits, held.exponent + n.exponent⟩

/-- The floating-point number that a written number is read as, if that is finite. -/
def float? (n : NumberText) : Option Binary64 :=
  n.decimal.word?.map fun x => if n.negative then -x else x

/-- What a written number denotes: a whole number if it is written as one, is not a negative zero
and fits 64 bits, otherwise a floating-point number, if that is finite. -/
def numeral? (n : NumberText) : Option Numeral :=
  let size := value n.whole
  if n.isWhole && !n.negative && decide (size < Nat.pow 2 64) then some (.int size)
  else if n.isWhole && n.negative && size != 0 && decide (size ≤ Nat.pow 2 63) then
    some (.int (-size))
  else n.float?.map .float

end NumberText

/-- What is found where a number starts. -/
inductive NumberScan where
  /-- A number and the text behind it. -/
  | complete (number : NumberText) (rest : List Char)
  /-- No complete number. -/
  | broken (cut : Cut)

namespace NumberScan

/-- No digit where one is needed: the text may have ended there. -/
def missingDigit : List Char → NumberScan
  | [] => .broken .endedNumber
  | _ :: _ => .broken .malformed

/-- The exponent sign and the text behind it. -/
def exponentSign : List Char → Bool × List Char
  | '-' :: rest => (true, rest)
  | '+' :: rest => (false, rest)
  | rest => (false, rest)

/-- Scans from behind the digits and places of a number on. -/
def scanExponent (negative : Bool) (whole places : List Char) (marked : Bool) :
    List Char → NumberScan
  | [] => .complete ⟨negative, whole, places, 0, !marked⟩ []
  | c :: cs =>
    if c = 'e' ∨ c = 'E' then
      let signed := exponentSign cs
      let digits := signed.2.takeWhile Char.isDigit
      if digits = [] then missingDigit signed.2
      else
        let size : Int := NumberText.value digits
        .complete ⟨negative, whole, places, if signed.1 then -size else size, false⟩
          (signed.2.dropWhile Char.isDigit)
    else .complete ⟨negative, whole, places, 0, !marked⟩ (c :: cs)

/-- Scans from behind the whole digits of a number on. -/
def scanPlaces (negative : Bool) (whole : List Char) : List Char → NumberScan
  | '.' :: cs =>
    let places := cs.takeWhile Char.isDigit
    if places = [] then missingDigit cs
    else scanExponent negative whole places true (cs.dropWhile Char.isDigit)
  | cs => scanExponent negative whole [] false cs

/-- Scans a number from behind its sign on: the whole digits come first, and a zero may only be the
last of them. -/
def scan (negative : Bool) (cs : List Char) : NumberScan :=
  match cs.takeWhile Char.isDigit with
  | [] => missingDigit cs
  | '0' :: _ :: _ => .broken .malformed
  | whole => scanPlaces negative whole (cs.dropWhile Char.isDigit)

end NumberScan

/-! ## Strings -/

/-- What is found where a string starts. -/
inductive TextScan where
  /-- A string and the text behind it; none if half of a surrogate pair is left alone in it. -/
  | complete (text : Option (List Char)) (rest : List Char)
  /-- No complete string. -/
  | broken (cut : Cut)

namespace TextScan

/-- The value of a hexadecimal digit. -/
def hexValue? (c : Char) : Option Nat :=
  if c.isDigit then some (c.toNat - 48)
  else if 'a' ≤ c ∧ c ≤ 'f' then some (c.toNat - 87)
  else if 'A' ≤ c ∧ c ≤ 'F' then some (c.toNat - 55)
  else none

/-- The unit that four hexadecimal digits stand for. -/
def unit? (a b c d : Char) : Option Nat := do
  let a ← hexValue? a
  let b ← hexValue? b
  let c ← hexValue? c
  let d ← hexValue? d
  return ((a * 16 + b) * 16 + c) * 16 + d

/-- The character that a backslash and a letter stand for. -/
def simpleEscape? (c : Char) : Option Char :=
  if c = '"' ∨ c = '\\' ∨ c = '/' then some c
  else if c = 'b' then some '\x08'
  else if c = 'f' then some '\x0c'
  else if c = 'n' then some '\n'
  else if c = 'r' then some '\r'
  else if c = 't' then some '\t'
  else none

/-- What has been read of a string. -/
structure Progress where
  /-- The characters so far, the latest first. -/
  done : List Char
  /-- The first half of a surrogate pair, if it was the latest unit. -/
  pending : Option Nat
  /-- Whether half of a surrogate pair has been left alone. -/
  lone : Bool

namespace Progress

/-- The progress before the first character. -/
def start : Progress := ⟨[], none, false⟩

/-- Reads a character. -/
def char (p : Progress) (c : Char) : Progress :=
  ⟨c :: p.done, none, p.lone || p.pending.isSome⟩

/-- Reads a unit of sixteen bits. -/
def unit (p : Progress) (n : Nat) : Progress :=
  if 0xDC00 ≤ n ∧ n ≤ 0xDFFF then
    match p.pending with
    | some first =>
      ⟨Char.ofNat (0x10000 + (first - 0xD800) * 0x400 + (n - 0xDC00)) :: p.done, none, p.lone⟩
    | none => ⟨p.done, none, true⟩
  else if 0xD800 ≤ n ∧ n ≤ 0xDBFF then ⟨p.done, some n, p.lone || p.pending.isSome⟩
  else p.char (Char.ofNat n)

/-- The string, if every surrogate found its partner. -/
def text (p : Progress) : Option (List Char) :=
  if p.lone || p.pending.isSome then none else some p.done.reverse

/-- Text that breaks off; a lone half before that is malformed for a reader of the string. -/
def broken (p : Progress) (b : Break) : TextScan :=
  .broken ⟨if p.lone then .malformed else b, b⟩

end Progress

/-- Whether fewer than four bytes are left, so that no four digits can follow. -/
def isShort (rest : List Char) : Bool :=
  (String.ofList rest).utf8ByteSize < 4

/-- Scans a string from behind its opening quote on. -/
def scan (p : Progress) : List Char → TextScan
  | [] => p.broken .ended
  | '\\' :: 'u' :: a :: b :: c :: d :: rest =>
    match unit? a b c d with
    | some n => scan (p.unit n) rest
    | none => p.broken .malformed
  | '\\' :: 'u' :: rest => p.broken (if isShort rest then .ended else .malformed)
  | '\\' :: c :: rest =>
    match simpleEscape? c with
    | some e => scan (p.char e) rest
    | none => p.broken .malformed
  | ['\\'] => p.broken .ended
  | '"' :: rest => .complete p.text rest
  | c :: rest => if c.toNat < 32 then p.broken .malformed else scan (p.char c) rest

end TextScan

/-! ## Tokens -/

/-- A piece of document text. -/
inductive Token where
  /-- The opening bracket of a list. -/
  | openList
  /-- The closing bracket of a list. -/
  | closeList
  /-- The opening brace of an object. -/
  | openObject
  /-- The closing brace of an object. -/
  | closeObject
  /-- A comma. -/
  | comma
  /-- A colon. -/
  | colon
  /-- The word for no value. -/
  | null
  /-- A word for a truth value. -/
  | bool (value : Bool)
  /-- A number. -/
  | number (value : NumberText)
  /-- A string, none if half of a surrogate pair is left alone in it. -/
  | text (value : Option (List Char))
  /-- A string that breaks off. -/
  | brokenText (cut : Cut)
  /-- Anything else that breaks off. -/
  | broken (cut : Cut)
deriving DecidableEq, Repr

namespace Token

/-- Whether a character may stand between tokens. -/
def isBlank (c : Char) : Bool :=
  c = ' ' || c = '\n' || c = '\t' || c = '\r'

/-- The token of a punctuation mark. -/
def mark? (c : Char) : Option Token :=
  if c = '[' then some .openList
  else if c = ']' then some .closeList
  else if c = '\x7b' then some .openObject
  else if c = '\x7d' then some .closeObject
  else if c = ',' then some .comma
  else if c = ':' then some .colon
  else none

/-- The word that starts with a letter: its other letters and its token. -/
def word? (c : Char) : Option (List Char × Token) :=
  if c = 'n' then some (['u', 'l', 'l'], .null)
  else if c = 't' then some (['r', 'u', 'e'], .bool true)
  else if c = 'f' then some (['a', 'l', 's', 'e'], .bool false)
  else none

/-- The text behind the letters of a word. -/
def afterWord : List Char → List Char → Except Cut (List Char)
  | [], rest => .ok rest
  | _ :: _, [] => .error .ended
  | e :: es, c :: cs => if c = e then afterWord es cs else .error .malformed

/-! ### Every token takes some text -/

/-- `cs.dropWhile p` is not longer than `cs`. -/
theorem length_dropWhile_le (p : Char → Bool) (cs : List Char) :
    (cs.dropWhile p).length ≤ cs.length :=
  (List.dropWhile_sublist p).length_le

/-- `NumberScan.exponentSign` leaves no more text than it is given. -/
theorem length_exponentSign_le (cs : List Char) :
    (NumberScan.exponentSign cs).2.length ≤ cs.length := by
  unfold NumberScan.exponentSign
  split <;> simp

/-- What `scanExponent` leaves behind a number is part of what stood behind its places. -/
theorem length_of_scanExponent {negative marked : Bool} {whole places cs : List Char}
    {number : NumberText} {rest : List Char}
    (h : NumberScan.scanExponent negative whole places marked cs = .complete number rest) :
    rest.length ≤ cs.length := by
  unfold NumberScan.scanExponent at h
  split at h
  · cases h; simp
  · rename_i c cs'
    split at h
    · simp only at h
      split at h
      · unfold NumberScan.missingDigit at h; split at h <;> cases h
      · cases h
        have h₁ := length_dropWhile_le Char.isDigit (NumberScan.exponentSign cs').2
        have h₂ := length_exponentSign_le cs'
        simp only [List.length_cons]
        omega
    · cases h; simp

/-- What `scanPlaces` leaves behind a number is part of what stood behind its whole digits. -/
theorem length_of_scanPlaces {negative : Bool} {whole cs : List Char}
    {number : NumberText} {rest : List Char}
    (h : NumberScan.scanPlaces negative whole cs = .complete number rest) :
    rest.length ≤ cs.length := by
  unfold NumberScan.scanPlaces at h
  split at h
  · rename_i cs'
    simp only at h
    split at h
    · unfold NumberScan.missingDigit at h; split at h <;> cases h
    · have h₁ := length_of_scanExponent h
      have h₂ := length_dropWhile_le Char.isDigit cs'
      simp only [List.length_cons]
      omega
  · exact length_of_scanExponent h

/-- `NumberScan.scan` takes at least one character: what it leaves is shorter than its text. -/
theorem length_of_scanNumber {negative : Bool} {cs : List Char}
    {number : NumberText} {rest : List Char}
    (h : NumberScan.scan negative cs = .complete number rest) : rest.length < cs.length := by
  unfold NumberScan.scan at h
  split at h
  · unfold NumberScan.missingDigit at h; split at h <;> cases h
  · cases h
  · rename_i hne _
    have h₁ := length_of_scanPlaces h
    have h₂ : (cs.takeWhile Char.isDigit).length + (cs.dropWhile Char.isDigit).length
        = cs.length := by
      rw [← List.length_append, List.takeWhile_append_dropWhile]
    have h₃ : (cs.takeWhile Char.isDigit).length ≠ 0 := by
      simpa using hne
    omega

/-- What `TextScan.scan` leaves behind a string is part of the text from its opening quote on. -/
theorem length_of_scanText {p : TextScan.Progress} {cs : List Char}
    {text : Option (List Char)} {rest : List Char}
    (h : TextScan.scan p cs = .complete text rest) : rest.length ≤ cs.length := by
  fun_induction TextScan.scan p cs <;> simp_all [TextScan.Progress.broken] <;> omega

/-- What `afterWord` leaves behind a word is part of the text behind its first letter. -/
theorem length_of_afterWord {es cs rest : List Char} (h : afterWord es cs = .ok rest) :
    rest.length ≤ cs.length := by
  fun_induction afterWord es cs <;> simp_all
  omega

/-- The pieces of a text, up to and including the first that breaks off. -/
def scan : List Char → List Token
  | [] => []
  | c :: cs =>
    if isBlank c then scan cs
    else
      match mark? c with
      | some token => token :: scan cs
      | none =>
        match word? c with
        | some (letters, token) =>
          match _h : afterWord letters cs with
          | .ok rest => token :: scan rest
          | .error cut => [.broken cut]
        | none =>
          if c = '"' then
            match _h : TextScan.scan .start cs with
            | .complete value rest => .text value :: scan rest
            | .broken cut => [.brokenText cut]
          else if c = '-' then
            match _h : NumberScan.scan true cs with
            | .complete value rest => .number value :: scan rest
            | .broken cut => [.broken cut]
          else if c.isDigit then
            match _h : NumberScan.scan false (c :: cs) with
            | .complete value rest => .number value :: scan rest
            | .broken cut => [.broken cut]
          else [.broken .malformed]
termination_by cs => cs.length
decreasing_by
  all_goals simp only [List.length_cons]
  · omega
  · omega
  · have := length_of_afterWord _h; omega
  · have := length_of_scanText _h; omega
  · have := length_of_scanNumber _h; omega
  · have := length_of_scanNumber _h; simp only [List.length_cons] at this; omega

end Token

end SankeyDiagram
