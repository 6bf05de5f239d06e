import SankeyDiagram.Json.Basic
import SankeyDiagram.Json.Draft
import SankeyDiagram.Text.Quoted

/-! # Reading typed values

Readers from drafts to values of a type. A reader goes through a draft in document order and
reports the first fault that it meets.

## Main definitions

* **`Mismatch`** how well-formed text can fail to fit a type, and **`Mismatch.message`**.
* **`Fault`** how reading can fail.
* **`Draft.float`**, **`Draft.count`**, **`Draft.string`** readers of single values.
* **`Draft.json?`** the value of a whole draft.
* **`Draft.listOf`**, **`Draft.optional`**, **`Draft.pairOf`** readers made of readers.
* **`Field`**, **`Record`** a type with named parts, read from an object or from a list of the
  parts in their order.
* **`Record.read`** the reader of such a type.
-/

namespace SankeyDiagram

/-! ## Faults -/

/-- What a draft holds, as far as messages tell. -/
inductive Found where
  /-- No value. -/
  | null
  /-- A truth value. -/
  | bool (value : Bool)
  /-- A whole number. -/
  | int (value : Int)
  /-- A floating-point number. -/
  | float (value : Binary64)
  /-- A string. -/
  | text (value : String)
  /-- A list. -/
  | list
  /-- An object. -/
  | object
deriving DecidableEq, Repr

namespace Found

/-- What a draft holds, in words. -/
def description : Found → String
  | .null => "null"
  | .bool b => if b then "boolean `true`" else "boolean `false`"
  | .int n => "integer `" ++ toString n ++ "`"
  | .float x => "floating point `" ++ NumberStyle.document.text x ++ "`"
  | .text s => "string " ++ quoted s
  | .list => "sequence"
  | .object => "map"

end Found

/-- How well-formed text can fail to fit a type. -/
inductive Mismatch where
  /-- A value of another kind than expected. -/
  | wrongKind (found : Found) (expected : String)
  /-- A whole number that the type does not hold. -/
  | wrongNumber (found : Int) (expected : String)
  /-- A list of another length than expected. -/
  | wrongLength (found : Nat) (expected : String)
  /-- No value for a part. -/
  | missingField (name : String)
  /-- Two values for a part. -/
  | duplicateField (name : String)
  /-- A name that no alternative has. -/
  | unknownVariant (found : String) (expected : String)
  /-- A value that fits no alternative of a type. -/
  | noVariant (typeName : String)
deriving DecidableEq, Repr

namespace Mismatch

/-- The text of a mismatch. -/
def message : Mismatch → String
  | .wrongKind found expected => "invalid type: " ++ found.description ++ ", expected " ++ expected
  | .wrongNumber found expected =>
    "invalid value: integer `" ++ toString found ++ "`, expected " ++ expected
  | .wrongLength found expected =>
    "invalid length " ++ toString found ++ ", expected " ++ expected
  | .missingField name => "missing field `" ++ name ++ "`"
  | .duplicateField name => "duplicate field `" ++ name ++ "`"
  | .unknownVariant found expected =>
    "unknown variant `" ++ found ++ "`, expected `" ++ expected ++ "`"
  | .noVariant typeName => "data did not match any variant of untagged enum " ++ typeName

end Mismatch

/-- How reading can fail. -/
inductive Fault where
  /-- The text is no document. -/
  | broken (reason : Break)
  /-- More items than a list with a fixed number of them may have. -/
  | surplus (found : Nat)
  /-- The document does not fit the type. -/
  | mismatch (reason : Mismatch)
deriving DecidableEq, Repr

/-! ## Single values -/

namespace Draft

variable {α β : Type}

/-- Reports that a draft is not of the expected kind, or what is broken in it before that. -/
def refuse (expected : String) (d : Draft) : Except Fault α :=
  let found (f : Found) : Except Fault α := .error (.mismatch (.wrongKind f expected))
  match d with
  | .null => found .null
  | .bool b => found (.bool b)
  | .number n =>
    match n.numeral? with
    | some (.int i) => found (.int i)
    | some (.float x) => found (.float x)
    | none => .error (.broken .malformed)
  | .text (some s) => found (.text s)
  | .text none => .error (.broken .malformed)
  | .list _ _ => found .list
  | .object _ _ => found .object
  | .broken cut => .error (.broken cut.read)

/-- Reads a floating-point number; whole numbers are also taken. -/
def float (d : Draft) : Except Fault Binary64 :=
  match d with
  | .number n =>
    match n.float? with
    | some x => .ok x
    | none => .error (.broken .malformed)
  | other => other.refuse "f64"

/-- Reads a count or an index of 64 bits. -/
def count (d : Draft) : Except Fault Nat :=
  match d with
  | .number n =>
    match n.numeral? with
    | some (.int i) =>
      if i < 0 then .error (.mismatch (.wrongNumber i "usize")) else .ok i.toNat
    | _ => d.refuse "usize"
  | other => other.refuse "usize"

/-- Reads a string. -/
def string (d : Draft) : Except Fault String :=
  match d with
  | .text (some s) => .ok s
  | other => other.refuse "a string"

/-- Passes over a draft. -/
def skip (d : Draft) : Except Fault Unit :=
  match d.skippedBreak? with
  | some b => .error (.broken b)
  | none => .ok ()

/-- Makes sure that no fault comes inside of a draft. -/
def needAll (depth : Nat) (d : Draft) : Except Fault Unit :=
  match d.readBreak? depth with
  | some b => .error (.broken b)
  | none => .ok ()

/-- Makes sure that the text goes on behind items or members. -/
def needEnd (cut : Option Cut) : Except Fault Unit :=
  match cut with
  | some c => .error (.broken c.read)
  | none => .ok ()

/-! ## Whole values -/

mutual

/-- The value of a draft without faults. -/
def json? : Draft → Option Json
  | .null => some .null
  | .bool b => some (.bool b)
  | .number n =>
    n.numeral?.map fun
      | .int i => .int i
      | .float x => .float x
  | .text s => s.map .text
  | .list items none => (jsonItems? items).map .list
  | .object members none => (jsonMembers? members).map .object
  | .list _ (some _) => none
  | .object _ (some _) => none
  | .broken _ => none

/-- The values of items without faults. -/
def jsonItems? : List Draft → Option (List Json)
  | [] => some []
  | item :: rest =>
    match item.json?, jsonItems? rest with
    | some value, some values => some (value :: values)
    | _, _ => none

/-- The values of members without faults. -/
def jsonMembers? : List (Option String × Draft) → Option (List (String × Json))
  | [] => some []
  | (name, d) :: rest =>
    match name, d.json?, jsonMembers? rest with
    | some name, some value, some values => some ((name, value) :: values)
    | _, _, _ => none

end

/-! ## Lists and alternatives -/

/-- Reads a list of any length. -/
def listOf (read : Draft → Except Fault α) (d : Draft) : Except Fault (List α) :=
  match d with
  | .list items cut => do
    let values ← items.mapM read
    needEnd cut
    return values
  | other => other.refuse "a sequence"

/-- Reads a value that may be missing. -/
def optional (read : Draft → Except Fault α) (d : Draft) : Except Fault (Option α) :=
  match d with
  | .null => .ok none
  | other => some <$> read other

/-- The next of the items that a list of fixed length needs. -/
def nextItem (expected : String) (taken : Nat) (items : List Draft) (cut : Option Cut) :
    Except Fault (Draft × List Draft) :=
  match items with
  | item :: rest => .ok (item, rest)
  | [] => do
    needEnd cut
    .error (.mismatch (.wrongLength taken expected))

/-- The end of a list of fixed length, which has nothing more. -/
def endItems (taken : Nat) (items : List Draft) (cut : Option Cut) : Except Fault Unit :=
  if items.isEmpty then needEnd cut else .error (.surplus (taken + items.length))

/-- Reads a list of two values. -/
def pairOf (read : Draft → Except Fault α) (d : Draft) : Except Fault (α × α) :=
  match d with
  | .list items cut => do
    let (first, items) ← nextItem "an array of length 2" 0 items cut
    let a ← read first
    let (second, items) ← nextItem "an array of length 2" 1 items cut
    let b ← read second
    endItems 2 items cut
    return (a, b)
  | other => other.refuse "an array of length 2"

end Draft

/-! ## Types with named parts -/

/-- A part of a type, read into a value of the type. -/
structure Field (α : Type) where
  /-- The name of the part. -/
  name : String
  /-- Whether a document has to give the part. -/
  required : Bool
  /-- Puts what a draft says into the part. -/
  read : Draft → α → Except Fault α

/-- A type with named parts. -/
structure Record (α : Type) where
  /-- What messages call the type. -/
  title : String
  /-- The value whose parts are filled in. -/
  blank : α
  /-- The parts in their order. -/
  fields : List (Field α)

namespace Field

variable {α β : Type}

/-- A part that a document has to give. -/
def needed (name : String) (read : Draft → Except Fault β) (set : α → β → α) : Field α :=
  ⟨name, true, fun d a => set a <$> read d⟩

/-- A part that a document may leave out. -/
def spare (name : String) (read : Draft → Except Fault β) (set : α → β → α) : Field α :=
  ⟨name, false, fun d a => set a <$> read d⟩

end Field

namespace Record

variable {α : Type}

/-- What messages call the type when the number of its parts matters. -/
def sizedTitle (r : Record α) : String :=
  r.title ++ " with " ++ toString r.fields.length
    ++ (if r.fields.length = 1 then " element" else " elements")

/-- Reads members in document order; members of other names are passed over. Also gives the names
that were met. -/
def readMembers (r : Record α) (seen : List String) (a : α) :
    List (Option String × Draft) → Except Fault (List String × α)
  | [] => .ok (seen, a)
  | (none, _) :: _ => .error (.broken .malformed)
  | (some name, d) :: rest =>
    match r.fields.find? (·.name = name) with
    | none => do
      d.skip
      readMembers r seen a rest
    | some field =>
      if name ∈ seen then .error (.mismatch (.duplicateField name))
      else do
        let a ← field.read d a
        readMembers r (name :: seen) a rest

/-- The first needed part whose name was not met. -/
def missing? (r : Record α) (seen : List String) : Option String :=
  (r.fields.find? fun field => field.required && !seen.contains field.name).map (·.name)

/-- Reads the parts from the members of an object. -/
def readObject (r : Record α) (members : List (Option String × Draft)) (cut : Option Cut) :
    Except Fault α := do
  let (seen, a) ← r.readMembers [] r.blank members
  Draft.needEnd cut
  match r.missing? seen with
  | some name => .error (.mismatch (.missingField name))
  | none => return a

/-- Reads parts from items in order; the items left over come back. -/
def readItems (expected : String) (cut : Option Cut) (taken : Nat) (a : α) :
    List (Field α) → List Draft → Except Fault (α × List Draft)
  | [], items => .ok (a, items)
  | field :: fields, item :: items => do
    let a ← field.read item a
    readItems expected cut (taken + 1) a fields items
  | field :: fields, [] =>
    if field.required then do
      Draft.needEnd cut
      .error (.mismatch (.wrongLength taken expected))
    else readItems expected cut (taken + 1) a fields []

/-- Reads the parts from the items of a list. -/
def readList (r : Record α) (items : List Draft) (cut : Option Cut) : Except Fault α := do
  let (a, rest) ← readItems r.sizedTitle cut 0 r.blank r.fields items
  Draft.endItems r.fields.length rest cut
  return a

/-- Reads a value of the type. -/
def read (r : Record α) (d : Draft) : Except Fault α :=
  match d with
  | .object members cut => r.readObject members cut
  | .list items cut => r.readList items cut
  | other => other.refuse r.title

end Record

/-- Reads a whole text: nothing but blanks may follow the document. -/
def readText {α : Type} (read : Draft → Except Fault α) (text : String) : Except Fault α := do
  let reading := Draft.ofText text
  let a ← read reading.draft
  if reading.trailing then .error (.broken .malformed) else return a

end SankeyDiagram
