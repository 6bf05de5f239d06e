import SankeyDiagram.Json.Reader
import SankeyDiagram.Proofs.Scanning

/-! # Drafts of written values

What is read of the text of a value: the draft that says what the value says, with nothing behind
it.

* **`Draft.ofJson`** the draft of a value.
* **`Draft.run_tokens`** the tokens of a value make its draft, whatever is around it and behind it.
* **`readText_compact`**, **`readText_pretty`** reading either text of a value is reading its
  draft. -/

namespace SankeyDiagram

namespace Draft

mutual

/-- The draft of a value; a word that is not finite is written as no value. -/
def ofJson : Json → Draft
  | .null => .null
  | .bool b => .bool b
  | .int n => .number (.ofInt n)
  | .float x => if x.isFinite then .number (.ofWord x) else .null
  | .text s => .text (some s)
  | .list items => .list (ofItems items) none
  | .object members => .object (ofMembers members) none

/-- The drafts of items. -/
def ofItems : List Json → List Draft
  | [] => []
  | item :: rest => ofJson item :: ofItems rest

/-- The drafts of members. -/
def ofMembers : List (String × Json) → List (Option String × Draft)
  | [] => []
  | (name, value) :: rest => (some name, ofJson value) :: ofMembers rest

end

/-- `ofItems` drafts item by item. -/
theorem ofItems_eq_map (items : List Json) : ofItems items = items.map ofJson := by
  induction items with
  | nil => rfl
  | cons item rest ih => rw [ofItems, ih, List.map_cons]

/-! ## Tokens of values -/

variable {up : List Frame} {rest : List Token}

/-- In `firstItem`, where a list may end at once, a value is read as the first item. -/
theorem run_firstItem (item : Json) (items : List Json) :
    run .firstItem up (Json.itemTokens (item :: items) ++ rest)
      = run .value (.list [] :: up) (Json.itemTokens (item :: items) ++ rest) := by
  have hfirst : ∀ more, run .firstItem up (item.tokens ++ more)
      = run .value (.list [] :: up) (item.tokens ++ more) := by
    intro more
    cases item with
    | float x =>
      rw [Json.tokens, Token.ofWord]
      split <;> rfl
    | null | bool | int | text | list | object => rfl
  cases items with
  | nil => exact hfirst rest
  | cons next items =>
    show run .firstItem up (item.tokens ++ .comma :: Json.itemTokens (next :: items) ++ rest) = _
    rw [List.append_assoc, hfirst, ← List.append_assoc]
    rfl

/-- In `firstMember`, where an object may end at once, a name is read as that of the first
member. -/
theorem run_firstMember (member : String × Json) (members : List (String × Json)) :
    run .firstMember up (Json.memberTokens (member :: members) ++ rest)
      = run (.name []) up (Json.memberTokens (member :: members) ++ rest) := by
  cases members <;> rfl

/-- In `name`, a name and a colon are read before a value. -/
theorem run_member (done : List (Option String × Draft)) (name : String) :
    run (.name done) up (.text (some name.toList) :: .colon :: rest)
      = run .value (.object done (some name) :: up) rest := by
  show run .value (.object done (some (String.ofList name.toList)) :: up) rest = _
  rw [String.ofList_toList]

mutual

/-- **`run` over `j.tokens` makes the draft `ofJson j`**, whatever is open around it. -/
theorem run_tokens (up : List Frame) (rest : List Token) :
    ∀ j : Json, run .value up (j.tokens ++ rest) = run (.more (ofJson j)) up rest
  | .null => rfl
  | .bool b => rfl
  | .int n => rfl
  | .float x => by
    rw [Json.tokens, Token.ofWord, ofJson]
    split <;> rfl
  | .text s => by
    show run (.more (.text (some (String.ofList s.toList)))) up rest = _
    rw [String.ofList_toList, ofJson]
  | .list [] => rfl
  | .list (item :: items) => by
    rw [Json.tokens, List.cons_append, List.cons_append, List.append_assoc]
    show run .firstItem up _ = _
    rw [run_firstItem]
    exact run_items [] up rest (item :: items) (List.cons_ne_nil _ _)
  | .object [] => rfl
  | .object (member :: members) => by
    rw [Json.tokens, List.cons_append, List.cons_append, List.append_assoc]
    show run .firstMember up _ = _
    rw [run_firstMember]
    exact run_members [] up rest (member :: members) (List.cons_ne_nil _ _)

/-- `run` over the tokens of items makes their drafts, up to the end of the list. -/
theorem run_items (done : List Draft) (up : List Frame) (rest : List Token) :
    ∀ items : List Json, items ≠ [] →
      run .value (.list done :: up) (Json.itemTokens items ++ .closeList :: rest)
        = run (.more (.list (done.reverse ++ ofItems items) none)) up rest
  | [], h => absurd rfl h
  | [item], _ => by
    rw [Json.itemTokens, run_tokens, ofItems, ofItems, ← List.reverse_cons]
    rfl
  | item :: next :: items, _ => by
    show run .value (.list done :: up)
      (item.tokens ++ .comma :: Json.itemTokens (next :: items) ++ .closeList :: rest) = _
    rw [List.append_assoc, run_tokens]
    show run .value (.list (ofJson item :: done) :: up)
      (Json.itemTokens (next :: items) ++ .closeList :: rest) = _
    rw [run_items (ofJson item :: done) up rest (next :: items) (List.cons_ne_nil _ _),
      List.reverse_cons, List.append_assoc]
    rfl

/-- `run` over the tokens of members makes their drafts, up to the end of the object. -/
theorem run_members (done : List (Option String × Draft)) (up : List Frame) (rest : List Token) :
    ∀ members : List (String × Json), members ≠ [] →
      run (.name done) up (Json.memberTokens members ++ .closeObject :: rest)
        = run (.more (.object (done.reverse ++ ofMembers members) none)) up rest
  | [], h => absurd rfl h
  | [(name, value)], _ => by
    rw [Json.memberTokens, List.cons_append, List.cons_append, run_member, run_tokens, ofMembers,
      ofMembers, ← List.reverse_cons]
    rfl
  | (name, value) :: next :: members, _ => by
    show run (.name done) up (.text (some name.toList) :: .colon :: (value.tokens
      ++ .comma :: Json.memberTokens (next :: members) ++ .closeObject :: rest)) = _
    rw [run_member, List.append_assoc, run_tokens]
    show run (.name ((some name, ofJson value) :: done)) up
      (Json.memberTokens (next :: members) ++ .closeObject :: rest) = _
    rw [run_members ((some name, ofJson value) :: done) up rest (next :: members)
      (List.cons_ne_nil _ _), List.reverse_cons, List.append_assoc]
    rfl

end

/-- **`ofText` of a text with the tokens of `j` is `ofJson j`, with nothing after it.** -/
theorem ofText_of_scan {text : String} {j : Json} (h : Token.scan text.toList = j.tokens) :
    ofText text = ⟨ofJson j, false⟩ := by
  have hrun := run_tokens [] [] j
  rw [List.append_nil] at hrun
  rw [ofText, h, hrun]
  rfl

end Draft

variable {α : Type} (read : Draft → Except Fault α) (j : Json)

/-- `readText read` of a text with the tokens of `j` is `read (Draft.ofJson j)`. -/
theorem readText_of_scan {text : String} (h : Token.scan text.toList = j.tokens) :
    readText read text = read (Draft.ofJson j) := by
  rw [readText, Draft.ofText_of_scan h]
  exact bind_pure _

/-- **`readText read j.compact = read (Draft.ofJson j)`.** -/
theorem readText_compact : readText read j.compact = read (Draft.ofJson j) := by
  have hscan := Token.scan_compactChars Token.endsNumber_nil j
  rw [List.append_nil, Token.scan_nil, List.append_nil] at hscan
  refine readText_of_scan read j ?_
  rw [Json.compact, String.toList_ofList, hscan]

/-- **`readText read j.pretty = read (Draft.ofJson j)`.** -/
theorem readText_pretty : readText read j.pretty = read (Draft.ofJson j) := by
  have hscan := Token.scan_prettyChars Token.endsNumber_nil 0 j
  rw [List.append_nil, Token.scan_nil, List.append_nil] at hscan
  refine readText_of_scan read j ?_
  rw [Json.pretty, String.toList_ofList, hscan]

end SankeyDiagram
