import SankeyDiagram.Proofs.Numerals

/-! # Scanning written text

What is scanned of text that was written: a written value has its tokens, whatever comes behind it,
with blanks between them or without.

* **`TextScan.scan_textChars`** an escaped string is scanned back to its characters.
* **`Json.tokens`** the tokens of a value.
* **`Token.scan_compactChars`**, **`Token.scan_prettyChars`** both texts of a value have these. -/

namespace SankeyDiagram

/-! ## Strings -/

namespace TextScan

variable (p : Progress)

/-- `hexValue?` undoes `hexDigit`. -/
theorem hexValue?_hexDigit (n : Nat) : hexValue? (Json.hexDigit n) = some (n % 16) := by
  have hall : ∀ n < 16, hexValue? ((Nat.toDigits 16 n).headD '0') = some n := by decide
  exact hall (n % 16) (Nat.mod_lt _ (by decide))

/-- `unit?` reads the four digits of a unit below `256`. -/
theorem unit?_hexDigit {n : Nat} (h : n < 256) :
    unit? '0' '0' (Json.hexDigit (n / 16)) (Json.hexDigit n) = some n := by
  have hzero : hexValue? '0' = some 0 := by decide
  rw [unit?, hzero, hexValue?_hexDigit, hexValue?_hexDigit]
  show some (((0 * 16 + 0) * 16 + n / 16 % 16) * 16 + n % 16) = some n
  congr 1
  omega

/-- A unit that is no half of a pair is the character of its number. -/
theorem unit_toNat {c : Char} (h : c.toNat < 0xD800) : p.unit c.toNat = p.char c := by
  rw [Progress.unit, if_neg (by omega), if_neg (by omega), Char.ofNat_toNat]

/-- A letter behind `\\` is scanned as what it stands for. -/
theorem scan_simpleEscape {letter c : Char} (hletter : letter ≠ 'u')
    (h : simpleEscape? letter = some c) (cs : List Char) :
    scan p ('\\' :: letter :: cs) = scan (p.char c) cs := by
  simp [scan, hletter, h]

/-- **`scan` gives back the character of `Json.escapeChar`.** -/
theorem scan_escapeChar (c : Char) (cs : List Char) :
    scan p (Json.escapeChar c ++ cs) = scan (p.char c) cs := by
  have hescape : ∀ letter d : Char, c.toNat = d.toNat → letter ≠ 'u' →
      simpleEscape? letter = some d → scan p (['\\', letter] ++ cs) = scan (p.char c) cs := by
    intro letter d hd hletter hd'
    rw [show c = d from Char.ext (UInt32.toNat_inj.1 hd)]
    exact scan_simpleEscape p hletter hd' cs
  rw [Json.escapeChar]
  -- in the order of the writer: quotes, what is shown, short escapes, and all else by number
  split_ifs with hquote hslash hshown hback htab hline hfeed hreturn
  · exact hescape '"' '"' (congrArg Char.toNat hquote) (by decide) (by decide)
  · exact hescape '\\' '\\' (congrArg Char.toNat hslash) (by decide) (by decide)
  · have hcontrol : ¬ c.toNat < 32 := by omega
    simp [scan, hslash, hcontrol]
  · exact hescape 'b' '\x08' hback (by decide) (by decide)
  · exact hescape 't' '\t' htab (by decide) (by decide)
  · exact hescape 'n' '\n' hline (by decide) (by decide)
  · exact hescape 'f' '\x0c' hfeed (by decide) (by decide)
  · exact hescape 'r' '\r' hreturn (by decide) (by decide)
  · have hunit := unit?_hexDigit (n := c.toNat) (by omega)
    simp only [List.cons_append, List.nil_append, scan, hunit]
    rw [unit_toNat p (by omega)]

/-- **`scan` gives back a written string, up to its closing quote.** -/
theorem scan_flatMap_escapeChar (s : String) (rest : List Char) :
    scan .start (s.toList.flatMap Json.escapeChar ++ '"' :: rest)
      = .complete (some s.toList) rest := by
  -- on the characters, with those that were scanned before in reverse
  have hscan : ∀ cs done : List Char,
      scan ⟨done, none, false⟩ (cs.flatMap Json.escapeChar ++ '"' :: rest)
        = .complete (some (done.reverse ++ cs)) rest := by
    intro cs
    induction cs with
    | nil =>
      intro done
      rw [List.append_nil]
      rfl
    | cons c cs ih =>
      intro done
      rw [List.flatMap_cons, List.append_assoc, scan_escapeChar]
      show scan ⟨c :: done, none, false⟩ _ = _
      rw [ih, List.reverse_cons, List.append_assoc, List.singleton_append]
  exact hscan s.toList []

end TextScan

/-! ## Pieces of text -/

namespace Token

variable {cs rest : List Char}

/-- A blank is scanned as nothing. -/
theorem scan_blank {c : Char} (h : isBlank c) : scan (c :: cs) = scan cs := by
  rw [scan, if_pos h]

/-- A mark is scanned as its token. -/
theorem scan_mark {c : Char} {token : Token} (hblank : ¬ isBlank c) (h : mark? c = some token) :
    scan (c :: cs) = token :: scan cs := by
  rw [scan, if_neg hblank, h]

/-- A word is scanned as its token. -/
theorem scan_word {c : Char} {letters : List Char} {token : Token} (hblank : ¬ isBlank c)
    (hmark : mark? c = none) (hword : word? c = some (letters, token))
    (h : afterWord letters cs = .ok rest) : scan (c :: cs) = token :: scan rest := by
  rw [scan, if_neg hblank, hmark, hword]
  dsimp only
  split <;> simp_all

/-- What starts neither a mark nor a word starts a string or a number, if it starts anything. -/
theorem scan_eq {c : Char} (hblank : ¬ isBlank c) (hmark : mark? c = none)
    (hword : word? c = none) : scan (c :: cs) =
      if c = '"' then
        match TextScan.scan .start cs with
        | .complete value rest => .text value :: scan rest
        | .broken cut => [.brokenText cut]
      else if c = '-' then
        match NumberScan.scan true cs with
        | .complete value rest => .number value :: scan rest
        | .broken cut => [.broken cut]
      else if c.isDigit then
        match NumberScan.scan false (c :: cs) with
        | .complete value rest => .number value :: scan rest
        | .broken cut => [.broken cut]
      else [.broken .malformed] := by
  rw [scan, if_neg hblank, hmark, hword]
  dsimp only
  split_ifs <;> first | rfl | (split <;> simp_all)

/-- A quote starts a string. -/
theorem scan_text {text : Option (List Char)} (h : TextScan.scan .start cs = .complete text rest) :
    scan ('"' :: cs) = .text text :: scan rest := by
  rw [scan_eq (by decide) (by decide) (by decide), if_pos rfl, h]

/-- A minus sign starts a number. -/
theorem scan_negative {n : NumberText} (h : NumberScan.scan true cs = .complete n rest) :
    scan ('-' :: cs) = .number n :: scan rest := by
  rw [scan_eq (by decide) (by decide) (by decide), if_neg (by decide), if_pos rfl, h]

/-- A digit starts a number. -/
theorem scan_positive {n : NumberText} (h : NumberScan.scan false cs = .complete n rest) :
    scan cs = .number n :: scan rest := by
  cases cs with
  | nil => cases h
  | cons c cs =>
    have hdigit : c.isDigit := by
      by_contra hc
      rw [NumberScan.scan, List.takeWhile_cons_of_neg hc] at h
      cases h
    -- a digit is no blank, no mark, and starts no word
    have hne : ∀ d : Char, ¬ d.isDigit → c ≠ d := fun d hd hc => hd (hc ▸ hdigit)
    have hblank : ¬ isBlank c := by
      simp [isBlank, hne ' ' (by decide), hne '\n' (by decide), hne '\t' (by decide),
        hne '\r' (by decide)]
    have hmark : mark? c = none := by
      simp [mark?, hne '[' (by decide), hne ']' (by decide), hne '\x7b' (by decide),
        hne '\x7d' (by decide), hne ',' (by decide), hne ':' (by decide)]
    have hword : word? c = none := by
      simp [word?, hne 'n' (by decide), hne 't' (by decide), hne 'f' (by decide)]
    rw [scan_eq hblank hmark hword, if_neg (hne '"' (by decide)), if_neg (hne '-' (by decide)),
      if_pos hdigit, h]

/-- `scan` of `intChars n` is the number. -/
theorem scan_intChars (n : Int) (hrest : EndsNumber rest) :
    scan (Json.intChars n ++ rest) = .number (.ofInt n) :: scan rest := by
  rw [Json.intChars, NumberText.ofInt]
  split
  case isTrue hneg =>
    rw [decide_eq_true hneg]
    exact scan_negative (NumberScan.scan_digitChars _ hrest)
  case isFalse hneg =>
    rw [decide_eq_false hneg]
    exact scan_positive (NumberScan.scan_digitChars _ hrest)

/-- `scan` of `null`. -/
theorem scan_null (rest : List Char) :
    scan (['n', 'u', 'l', 'l'] ++ rest) = .null :: scan rest :=
  scan_word (by decide) (by decide) rfl rfl

/-- `scan` of `boolChars b` is the truth value. -/
theorem scan_boolChars (b : Bool) (rest : List Char) :
    scan (Json.boolChars b ++ rest) = .bool b :: scan rest := by
  cases b
  · exact scan_word (by decide) (by decide) rfl rfl
  · exact scan_word (by decide) (by decide) rfl rfl

/-- `scan` of `textChars s` is the string. -/
theorem scan_textChars (s : String) (rest : List Char) :
    scan (Json.textChars s ++ rest) = .text (some s.toList) :: scan rest := by
  simp only [Json.textChars, List.cons_append, List.append_assoc, List.nil_append]
  exact scan_text (TextScan.scan_flatMap_escapeChar s rest)

/-- The token of a word: a number, or no value if the word is not finite. -/
def ofWord (x : Binary64) : Token :=
  if x.isFinite then .number (.ofWord x) else .null

/-- `scan` of `floatChars x` is the word, or `null` for what has no number. -/
theorem scan_floatChars (x : Binary64) (hrest : EndsNumber rest) :
    scan (Json.floatChars x ++ rest) = ofWord x :: scan rest := by
  rw [Json.floatChars, NumberStyle.text, ofWord]
  split
  case isTrue =>
    have hscan := NumberScan.scan_shortest x hrest
    rw [String.toList_ofList, NumberStyle.finiteChars]
    cases hneg : x.isNegative with
    | true =>
      rw [hneg] at hscan
      exact scan_negative hscan
    | false =>
      rw [hneg] at hscan
      exact scan_positive hscan
  case isFalse =>
    split_ifs <;> exact scan_null rest

/-- `lineBreak` is scanned as nothing. -/
theorem scan_lineBreak (depth : Nat) (rest : List Char) :
    scan (Json.lineBreak depth ++ rest) = scan rest := by
  have hblanks : ∀ n, scan (List.replicate n ' ' ++ rest) = scan rest := by
    intro n
    induction n with
    | zero => rfl
    | succ n ih =>
      rw [List.replicate_succ, List.cons_append, scan_blank (by decide)]
      exact ih
  rw [Json.lineBreak, List.cons_append, scan_blank (by decide)]
  exact hblanks _

end Token

/-! ## Values -/

namespace Json

mutual

/-- The tokens of a value. -/
def tokens : Json → List Token
  | .null => [.null]
  | .bool b => [.bool b]
  | .int n => [.number (.ofInt n)]
  | .float x => [.ofWord x]
  | .text s => [.text (some s.toList)]
  | .list items => .openList :: itemTokens items ++ [.closeList]
  | .object members => .openObject :: memberTokens members ++ [.closeObject]

/-- The tokens of items with commas between them. -/
def itemTokens : List Json → List Token
  | [] => []
  | [item] => item.tokens
  | item :: rest => item.tokens ++ .comma :: itemTokens rest

/-- The tokens of members with commas between them. -/
def memberTokens : List (String × Json) → List Token
  | [] => []
  | [(name, value)] => .text (some name.toList) :: .colon :: value.tokens
  | (name, value) :: rest =>
    .text (some name.toList) :: .colon :: value.tokens ++ .comma :: memberTokens rest

end

end Json

namespace Token

/-- Nothing is scanned as no tokens. -/
theorem scan_nil : scan [] = [] := by
  rw [scan]

/-- A number ends at the end of the text. -/
theorem endsNumber_nil : EndsNumber [] := by
  intro c hc
  cases hc

/-- A number ends before what is no part of one. -/
theorem endsNumber_cons {c : Char} (h : ¬ c.isDigit ∧ c ≠ '.' ∧ c ≠ 'e' ∧ c ≠ 'E')
    (rest : List Char) : EndsNumber (c :: rest) := by
  intro d hd
  rwa [← Option.some.inj hd]

/-- `scan` of a list in brackets. -/
theorem scan_list {items rest : List Char} {tokens : List Token}
    (h : scan (items ++ ']' :: rest) = tokens ++ scan (']' :: rest)) :
    scan ('[' :: items ++ [']'] ++ rest) = .openList :: tokens ++ [.closeList] ++ scan rest := by
  simp only [List.cons_append, List.append_assoc, List.nil_append]
  rw [scan_mark (by decide) (rfl : mark? '[' = some .openList), h,
    scan_mark (by decide) (rfl : mark? ']' = some .closeList)]

/-- `scan` of an object in braces. -/
theorem scan_object {members rest : List Char} {tokens : List Token}
    (h : scan (members ++ '\x7d' :: rest) = tokens ++ scan ('\x7d' :: rest)) :
    scan ('\x7b' :: members ++ ['\x7d'] ++ rest)
      = .openObject :: tokens ++ [.closeObject] ++ scan rest := by
  simp only [List.cons_append, List.append_assoc, List.nil_append]
  rw [scan_mark (by decide) (rfl : mark? '\x7b' = some .openObject), h,
    scan_mark (by decide) (rfl : mark? '\x7d' = some .closeObject)]

/-- `scan` of two pieces with a comma between them. -/
theorem scan_comma {first second rest : List Char} {tokens more : List Token}
    (hfirst : scan (first ++ ',' :: (second ++ rest)) = tokens ++ scan (',' :: (second ++ rest)))
    (hsecond : scan (second ++ rest) = more ++ scan rest) :
    scan (first ++ ',' :: second ++ rest) = tokens ++ .comma :: more ++ scan rest := by
  simp only [List.cons_append, List.append_assoc]
  rw [hfirst, scan_mark (by decide) (rfl : mark? ',' = some .comma), hsecond]

/-- `scan` of a name before a value. -/
theorem scan_member {name : String} {value rest : List Char} {tokens : List Token}
    (h : scan (value ++ rest) = tokens ++ scan rest) :
    scan (Json.textChars name ++ ':' :: value ++ rest)
      = .text (some name.toList) :: .colon :: tokens ++ scan rest := by
  simp only [List.cons_append, List.append_assoc]
  rw [scan_textChars, scan_mark (by decide) (rfl : mark? ':' = some .colon), h]

mutual

/-- **`scan` of `j.compactChars` is `j.tokens`.** -/
theorem scan_compactChars {rest : List Char} (hrest : EndsNumber rest) :
    ∀ j : Json, scan (j.compactChars ++ rest) = j.tokens ++ scan rest
  | .null => scan_null rest
  | .bool b => scan_boolChars b rest
  | .int n => scan_intChars n hrest
  | .float x => scan_floatChars x hrest
  | .text s => scan_textChars s rest
  | .list items => scan_list (scan_compactItems (endsNumber_cons (by decide) rest) items)
  | .object members => scan_object (scan_compactMembers (endsNumber_cons (by decide) rest) members)

/-- `scan` of `compactItems` is the tokens of the items. -/
theorem scan_compactItems {rest : List Char} (hrest : EndsNumber rest) :
    ∀ items : List Json, scan (Json.compactItems items ++ rest) = Json.itemTokens items ++ scan rest
  | [] => rfl
  | [item] => scan_compactChars hrest item
  | item :: next :: items =>
    scan_comma (scan_compactChars (endsNumber_cons (by decide) _) item)
      (scan_compactItems hrest (next :: items))

/-- `scan` of `compactMembers` is the tokens of the members. -/
theorem scan_compactMembers {rest : List Char} (hrest : EndsNumber rest) :
    ∀ members : List (String × Json),
      scan (Json.compactMembers members ++ rest) = Json.memberTokens members ++ scan rest
  | [] => rfl
  | [(name, value)] => scan_member (scan_compactChars hrest value)
  | (name, value) :: next :: members => by
    have hvalue : scan (value.compactChars
        ++ ',' :: (Json.compactMembers (next :: members) ++ rest)) = _ :=
      scan_compactChars (endsNumber_cons (by decide) _) value
    exact scan_comma (scan_member hvalue) (scan_compactMembers hrest (next :: members))

end

/-- A number ends before a `lineBreak`. -/
theorem endsNumber_lineBreak (depth : Nat) (rest : List Char) :
    EndsNumber (Json.lineBreak depth ++ rest) :=
  endsNumber_cons (by decide) _

/-- `scan` of a piece behind a `lineBreak`. -/
theorem scan_line {depth : Nat} {piece rest : List Char} {tokens : List Token}
    (h : scan (piece ++ rest) = tokens ++ scan rest) :
    scan (Json.lineBreak depth ++ piece ++ rest) = tokens ++ scan rest := by
  rw [List.append_assoc, scan_lineBreak, h]

/-- `scan` of a value behind a blank. -/
theorem scan_space {value rest : List Char} {tokens : List Token}
    (h : scan (value ++ rest) = tokens ++ scan rest) :
    scan (' ' :: value ++ rest) = tokens ++ scan rest := by
  rw [List.cons_append, scan_blank (by decide), h]

/-- `scan` of a `lineBreak` before what closes a list or an object. -/
theorem scan_lastLine {depth : Nat} {pieces rest : List Char} {tokens : List Token}
    (h : scan (pieces ++ (Json.lineBreak depth ++ rest))
      = tokens ++ scan (Json.lineBreak depth ++ rest)) :
    scan (pieces ++ Json.lineBreak depth ++ rest) = tokens ++ scan rest := by
  rw [List.append_assoc, h, scan_lineBreak]

mutual

/-- **`scan` of `j.prettyChars depth` is `j.tokens`.** -/
theorem scan_prettyChars {rest : List Char} (hrest : EndsNumber rest) (depth : Nat) :
    ∀ j : Json, scan (j.prettyChars depth ++ rest) = j.tokens ++ scan rest
  | .null => scan_null rest
  | .bool b => scan_boolChars b rest
  | .int n => scan_intChars n hrest
  | .float x => scan_floatChars x hrest
  | .text s => scan_textChars s rest
  | .list [] => by
    have hnone : scan ([] ++ ']' :: rest) = [] ++ scan (']' :: rest) := rfl
    exact scan_list hnone
  | .list (item :: items) =>
    scan_list (scan_lastLine
      (scan_prettyItems (endsNumber_lineBreak depth _) (depth + 1) (item :: items)))
  | .object [] => by
    have hnone : scan ([] ++ '\x7d' :: rest) = [] ++ scan ('\x7d' :: rest) := rfl
    exact scan_object hnone
  | .object (member :: members) =>
    scan_object (scan_lastLine
      (scan_prettyMembers (endsNumber_lineBreak depth _) (depth + 1) (member :: members)))

/-- `scan` of `prettyItems` is the tokens of the items. -/
theorem scan_prettyItems {rest : List Char} (hrest : EndsNumber rest) (depth : Nat) :
    ∀ items : List Json,
      scan (Json.prettyItems depth items ++ rest) = Json.itemTokens items ++ scan rest
  | [] => rfl
  | [item] => scan_line (scan_prettyChars hrest depth item)
  | item :: next :: items =>
    scan_comma (scan_line (scan_prettyChars (endsNumber_cons (by decide) _) depth item))
      (scan_prettyItems hrest depth (next :: items))

/-- `scan` of `prettyMembers` is the tokens of the members. -/
theorem scan_prettyMembers {rest : List Char} (hrest : EndsNumber rest) (depth : Nat) :
    ∀ members : List (String × Json),
      scan (Json.prettyMembers depth members ++ rest) = Json.memberTokens members ++ scan rest
  | [] => rfl
  | [(name, value)] => by
    rw [Json.prettyMembers, List.append_assoc (Json.lineBreak depth)]
    exact scan_line (scan_member (scan_space (scan_prettyChars hrest depth value)))
  | (name, value) :: next :: members => by
    have hvalue : scan (value.prettyChars depth
        ++ ',' :: (Json.prettyMembers depth (next :: members) ++ rest)) = _ :=
      scan_prettyChars (endsNumber_cons (by decide) _) depth value
    show scan (Json.lineBreak depth ++ Json.textChars name ++ ':' :: ' ' :: value.prettyChars depth
      ++ ',' :: Json.prettyMembers depth (next :: members) ++ rest) = _
    rw [List.append_assoc (Json.lineBreak depth)]
    exact scan_comma (scan_line (scan_member (scan_space hvalue)))
      (scan_prettyMembers hrest depth (next :: members))

end

end Token

end SankeyDiagram
