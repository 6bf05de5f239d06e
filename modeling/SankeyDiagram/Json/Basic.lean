import SankeyDiagram.Decimal.Style

/-! # JSON values

Values of the document format and their text.

## Main definitions

* **`Json`** a value; whole numbers and floating-point numbers are told apart, and the members of
  an object keep their order.
* **`Json.compact`** the text without blanks.
* **`Json.pretty`** the text with one item or member a line, two blanks deeper at each level.
* **`Json.sorted`** the value with the members of every object in the order of their names, the
  last of several with one name.
-/

namespace SankeyDiagram

/-- A value of the document format. -/
inductive Json where
  /-- No value. -/
  | null
  /-- A truth value. -/
  | bool (value : Bool)
  /-- A whole number. -/
  | int (value : Int)
  /-- A floating-point number. -/
  | float (value : Binary64)
  /-- A string. -/
  | text (value : String)
  /-- A list of values. -/
  | list (items : List Json)
  /-- Named values in their order. -/
  | object (members : List (String × Json))

namespace Json

/-- A count or an index. -/
def nat (n : Nat) : Json :=
  .int n

/-- A value that may be missing. -/
def option {α : Type} (write : α → Json) : Option α → Json
  | none => .null
  | some a => write a

/-- A list of values of one kind. -/
def listOf {α : Type} (write : α → Json) (items : List α) : Json :=
  .list (items.map write)

/-! ## Text of the leaves -/

/-- A hexadecimal digit in lower case. -/
def hexDigit (n : Nat) : Char :=
  (Nat.toDigits 16 (n % 16)).headD '0'

/-- A character inside a string: the quote, the backslash and the controls are escaped. -/
def escapeChar (c : Char) : List Char :=
  if c = '"' then ['\\', '"']
  else if c = '\\' then ['\\', '\\']
  else if c.toNat ≥ 32 then [c]
  else if c.toNat = 8 then ['\\', 'b']
  else if c.toNat = 9 then ['\\', 't']
  else if c.toNat = 10 then ['\\', 'n']
  else if c.toNat = 12 then ['\\', 'f']
  else if c.toNat = 13 then ['\\', 'r']
  else ['\\', 'u', '0', '0', hexDigit (c.toNat / 16), hexDigit c.toNat]

/-- A string in quotes. -/
def textChars (s : String) : List Char :=
  '"' :: s.toList.flatMap escapeChar ++ ['"']

/-- A whole number. -/
def intChars (n : Int) : List Char :=
  if n < 0 then '-' :: Decimal.digitChars n.natAbs else Decimal.digitChars n.natAbs

/-- A floating-point number; one that is not finite has no text but that of no value. -/
def floatChars (x : Binary64) : List Char :=
  (NumberStyle.document.text x).toList

/-- A truth value. -/
def boolChars (b : Bool) : List Char :=
  if b then ['t', 'r', 'u', 'e'] else ['f', 'a', 'l', 's', 'e']

/-! ## Compact text -/

mutual

/-- The characters of a value without blanks. -/
def compactChars : Json → List Char
  | .null => ['n', 'u', 'l', 'l']
  | .bool b => boolChars b
  | .int n => intChars n
  | .float x => floatChars x
  | .text s => textChars s
  | .list items => '[' :: compactItems items ++ [']']
  | .object members => '\x7b' :: compactMembers members ++ ['\x7d']

/-- The items of a list with commas between them. -/
def compactItems : List Json → List Char
  | [] => []
  | [item] => item.compactChars
  | item :: rest => item.compactChars ++ ',' :: compactItems rest

/-- The members of an object with commas between them. -/
def compactMembers : List (String × Json) → List Char
  | [] => []
  | [(name, value)] => textChars name ++ ':' :: value.compactChars
  | (name, value) :: rest =>
    textChars name ++ ':' :: value.compactChars ++ ',' :: compactMembers rest

end

/-- The text of a value without blanks. -/
def compact (value : Json) : String :=
  String.ofList value.compactChars

/-! ## Text by lines -/

/-- A new line at a depth. -/
def lineBreak (depth : Nat) : List Char :=
  '\n' :: List.replicate (2 * depth) ' '

mutual

/-- The characters of a value at a depth, with items and members on lines of their own. -/
def prettyChars (depth : Nat) : Json → List Char
  | .null => ['n', 'u', 'l', 'l']
  | .bool b => boolChars b
  | .int n => intChars n
  | .float x => floatChars x
  | .text s => textChars s
  | .list [] => ['[', ']']
  | .list items => '[' :: prettyItems (depth + 1) items ++ lineBreak depth ++ [']']
  | .object [] => ['\x7b', '\x7d']
  | .object members => '\x7b' :: prettyMembers (depth + 1) members ++ lineBreak depth ++ ['\x7d']

/-- The items of a list, each on a new line. -/
def prettyItems (depth : Nat) : List Json → List Char
  | [] => []
  | [item] => lineBreak depth ++ item.prettyChars depth
  | item :: rest => lineBreak depth ++ item.prettyChars depth ++ ',' :: prettyItems depth rest

/-- The members of an object, each on a new line. -/
def prettyMembers (depth : Nat) : List (String × Json) → List Char
  | [] => []
  | [(name, value)] => lineBreak depth ++ textChars name ++ ':' :: ' ' :: value.prettyChars depth
  | (name, value) :: rest =>
    lineBreak depth ++ textChars name ++ ':' :: ' ' :: value.prettyChars depth
      ++ ',' :: prettyMembers depth rest

end

/-- The text of a value by lines. -/
def pretty (value : Json) : String :=
  String.ofList (value.prettyChars 0)

/-! ## Order of members -/

/-- Puts a member among members in the order of their names, in place of one of the same name. -/
def insertMember {β : Type} (name : String) (value : β) : List (String × β) → List (String × β)
  | [] => [(name, value)]
  | (other, old) :: rest =>
    if name < other then (name, value) :: (other, old) :: rest
    else if name = other then (name, value) :: rest
    else (other, old) :: insertMember name value rest

mutual

/-- The value with the members of every object in the order of their names. -/
def sorted : Json → Json
  | .list items => .list (sortedItems items)
  | .object members => .object (sortedMembers [] members)
  | .null => .null
  | .bool b => .bool b
  | .int n => .int n
  | .float x => .float x
  | .text s => .text s

/-- The items of a list, each sorted. -/
def sortedItems : List Json → List Json
  | [] => []
  | item :: rest => item.sorted :: sortedItems rest

/-- The members of an object, put one by one among those before. -/
def sortedMembers (done : List (String × Json)) : List (String × Json) → List (String × Json)
  | [] => done
  | (name, value) :: rest => sortedMembers (insertMember name value.sorted done) rest

end

end Json

end SankeyDiagram
