import SankeyDiagram.Json.Token

/-! # Drafts of documents

A draft is what a text says up to the point where it breaks off, if it does. Reading a draft in
document order meets the faults of the text and the faults of its content in the order in which
they stand.

## Main definitions

* **`Draft`** a value that may break off in places.
* **`Draft.Reading`** the draft of a whole text.
* **`Draft.ofText`** reads a text.
* **`Draft.readBreak?`**, **`Draft.skippedBreak?`** the first fault for a reader that needs all of a
  draft, and for one that passes over it.
-/

namespace SankeyDiagram

/-- A value that may break off in places. -/
inductive Draft where
  /-- No value. -/
  | null
  /-- A truth value. -/
  | bool (value : Bool)
  /-- A number as written. -/
  | number (value : NumberText)
  /-- A string, none if half of a surrogate pair is left alone in it. -/
  | text (value : Option String)
  /-- The items of a list, and how the text breaks off behind them, if it does. -/
  | list (items : List Draft) (cut : Option Cut)
  /-- The named values of an object, and how the text breaks off behind them, if it does. -/
  | object (members : List (Option String × Draft)) (cut : Option Cut)
  /-- A value that breaks off, or that is not there. -/
  | broken (cut : Cut)

namespace Draft

/-! ## From tokens -/

/-- A list or an object around the value that is being read; items and members come latest
first. -/
inductive Frame where
  /-- A list with the items before the value. -/
  | list (done : List Draft)
  /-- An object with the members before the value, and the name of the value. -/
  | object (done : List (Option String × Draft)) (name : Option String)

/-- What may come next. -/
inductive Expected where
  /-- A value. -/
  | value
  /-- A value or the end of a list. -/
  | firstItem
  /-- A name or the end of an object. -/
  | firstMember
  /-- A name, behind the members of an object so far. -/
  | name (done : List (Option String × Draft))
  /-- A colon, behind a name. -/
  | colon (done : List (Option String × Draft)) (name : Option String)
  /-- A comma or the end of what is around a value. -/
  | more (value : Draft)

/-- The draft of a whole text. -/
structure Reading where
  /-- The draft of the document. -/
  draft : Draft
  /-- Whether anything follows the document. -/
  trailing : Bool

/-- Puts a value into what is around it, and ends all that. -/
def close (value : Draft) : List Frame → Draft
  | [] => value
  | .list done :: up => close (.list (value :: done).reverse none) up
  | .object done name :: up => close (.object ((name, value) :: done).reverse none) up

/-- Ends a text that breaks off where something was expected. -/
def breakOff (cut : Cut) : Expected → List Frame → Draft
  | .value, up => close (.broken cut) up
  | .firstItem, up => close (.list [] (some cut)) up
  | .firstMember, up => close (.object [] (some cut)) up
  | .name done, up => close (.object done.reverse (some cut)) up
  | .colon done name, up => close (.object ((name, .broken cut) :: done).reverse none) up
  | .more value, [] => value
  | .more value, .list done :: up => close (.list (value :: done).reverse (some cut)) up
  | .more value, .object done name :: up =>
    close (.object ((name, value) :: done).reverse (some cut)) up

/-- What a token leads to where a value may start: what to expect next and what is around it. -/
def startValue (up : List Frame) : Token → Expected × List Frame ⊕ Cut
  | .null => .inl (.more .null, up)
  | .bool b => .inl (.more (.bool b), up)
  | .number n => .inl (.more (.number n), up)
  | .text s => .inl (.more (.text (s.map String.ofList)), up)
  | .openList => .inl (.firstItem, up)
  | .openObject => .inl (.firstMember, up)
  | .brokenText cut => .inr cut
  | .broken cut => .inr cut
  | .closeList => .inr .malformed
  | .closeObject => .inr .malformed
  | .comma => .inr .malformed
  | .colon => .inr .malformed

/-- What a token leads to where a name may stand. -/
def startName (done : List (Option String × Draft)) (up : List Frame) :
    Token → Expected × List Frame ⊕ Cut
  | .text s => .inl (.colon done (s.map String.ofList), up)
  | .brokenText cut => .inr cut
  | _ => .inr .malformed

/-- What a token leads to: what to expect next and what is around it, or how the text breaks
off. -/
def step : Expected → List Frame → Token → Expected × List Frame ⊕ Cut
  | .value, up, token => startValue up token
  | .firstItem, up, .closeList => .inl (.more (.list [] none), up)
  | .firstItem, up, token => startValue (.list [] :: up) token
  | .firstMember, up, .closeObject => .inl (.more (.object [] none), up)
  | .firstMember, up, token => startName [] up token
  | .name done, up, token => startName done up token
  | .colon done name, up, .colon => .inl (.value, .object done name :: up)
  | .colon _ _, _, _ => .inr .malformed
  | .more value, .list done :: up, .comma => .inl (.value, .list (value :: done) :: up)
  | .more value, .list done :: up, .closeList =>
    .inl (.more (.list (value :: done).reverse none), up)
  | .more value, .object done name :: up, .comma => .inl (.name ((name, value) :: done), up)
  | .more value, .object done name :: up, .closeObject =>
    .inl (.more (.object ((name, value) :: done).reverse none), up)
  | .more _, _, _ => .inr .malformed

/-- Reads tokens one by one. -/
def run : Expected → List Frame → List Token → Reading
  | expected, up, [] => ⟨breakOff .ended expected up, false⟩
  | .more value, [], _ :: _ => ⟨value, true⟩
  | expected, up, token :: tokens =>
    match step expected up token with
    | .inl (next, around) => run next around tokens
    | .inr cut => ⟨breakOff cut expected up, false⟩

/-- The draft of a text. -/
def ofText (text : String) : Reading :=
  run .value [] (Token.scan text.toList)

/-! ## Passing over drafts -/

/-- How many lists and objects may be open around a value that is read without knowing its kind. -/
def maxDepth : Nat := 127

mutual

/-- The first fault for a reader that needs all of a draft, inside of `depth` lists and objects. -/
def readBreak? (depth : Nat) : Draft → Option Break
  | .null => none
  | .bool _ => none
  | .number n => if n.numeral?.isNone then some .malformed else none
  | .text s => if s.isNone then some .malformed else none
  | .list items cut =>
    if maxDepth ≤ depth then some .malformed
    else (readBreakItems? (depth + 1) items).or (cut.map Cut.read)
  | .object members cut =>
    if maxDepth ≤ depth then some .malformed
    else (readBreakMembers? (depth + 1) members).or (cut.map Cut.read)
  | .broken cut => some cut.read

/-- The first fault among items that are all needed. -/
def readBreakItems? (depth : Nat) : List Draft → Option Break
  | [] => none
  | item :: rest => (readBreak? depth item).or (readBreakItems? depth rest)

/-- The first fault among members that are all needed. -/
def readBreakMembers? (depth : Nat) : List (Option String × Draft) → Option Break
  | [] => none
  | (none, _) :: _ => some .malformed
  | (some _, value) :: rest => (readBreak? depth value).or (readBreakMembers? depth rest)

end

mutual

/-- The first fault for a reader that passes over a draft. -/
def skippedBreak? : Draft → Option Break
  | .null => none
  | .bool _ => none
  | .number _ => none
  | .text _ => none
  | .list items cut => (skippedBreakItems? items).or (cut.map Cut.skipped)
  | .object members cut => (skippedBreakMembers? members).or (cut.map Cut.skipped)
  | .broken cut => some cut.skipped

/-- The first fault among items that are passed over. -/
def skippedBreakItems? : List Draft → Option Break
  | [] => none
  | item :: rest => (skippedBreak? item).or (skippedBreakItems? rest)

/-- The first fault among members that are passed over. -/
def skippedBreakMembers? : List (Option String × Draft) → Option Break
  | [] => none
  | (_, value) :: rest => (skippedBreak? value).or (skippedBreakMembers? rest)

end

end Draft

end SankeyDiagram
