/-! # Command-line arguments

What the words of a command line ask for.

## Main definitions

* **`Arguments`** where the request comes from and what is laid out and printed.
* **`Command`** a layout, or a question about the program.
* **`UsageError`** how words can fail to ask for anything.
* **`isStandardInput`** whether the name of an input stands for standard input.
* **`Command.ofWords`** what words ask for; the first fault among them decides.
-/

namespace SankeyDiagram

/-- Where the request comes from and what is laid out and printed. -/
structure Arguments where
  /-- The input that was named. -/
  input : Option String
  /-- Whether the curves of links are printed. -/
  paths : Bool
  /-- The number of rounds, if it is not that of the settings. -/
  iterations : Option Nat
deriving DecidableEq, Repr

/-- What is asked for. -/
inductive Command where
  /-- A layout. -/
  | layout (arguments : Arguments)
  /-- How the program is used. -/
  | help
  /-- Which version the program has. -/
  | version
deriving DecidableEq, Repr

/-- How words can fail to ask for anything. -/
inductive UsageError where
  /-- A word looks like an option but is none. -/
  | unknownOption (word : String)
  /-- An option that takes no value has one. -/
  | unexpectedValue (word : String)
  /-- An option is given a second time. -/
  | repeatedOption (name : String)
  /-- The number of rounds is not given. -/
  | missingCount
  /-- The number of rounds is no count. -/
  | invalidCount (text : String)
  /-- The name of the input is empty. -/
  | emptyInput
  /-- An input is named a second time. -/
  | secondInput (word : String)
deriving DecidableEq, Repr

/-! ## Words -/

/-- The kinds of words. -/
inductive Word where
  /-- Two dashes: only names of inputs follow. -/
  | separator
  /-- Two dashes with a name, and the value behind an equals sign. -/
  | long (name : List Char) (value : Option String)
  /-- A dash with letters. -/
  | short (first : Char) (others : List Char)
  /-- Anything else, a single dash included. -/
  | plain
deriving DecidableEq, Repr

namespace Word

/-- The kind of a word. -/
def ofChars : List Char → Word
  | ['-', '-'] => .separator
  | '-' :: '-' :: cs =>
    .long (cs.takeWhile (· != '='))
      (match cs.dropWhile (· != '=') with
        | [] => none
        | _ :: value => some (String.ofList value))
  | '-' :: c :: cs => .short c cs
  | _ => .plain

end Word

/-- The count that a text stands for: digits, behind a plus sign if there is one, of 64 bits. -/
def readCount? (text : String) : Option Nat :=
  let digits :=
    match text.toList with
    | '+' :: cs => cs
    | cs => cs
  if digits ≠ [] ∧ digits.all Char.isDigit then
    let n := Nat.ofDigitChars 10 digits 0
    if n < Nat.pow 2 64 then some n else none
  else none

/-! ## Names of inputs -/

/-- Whether what stands behind the first segment of a name leads nowhere else: slashes, each with
or without a single dot behind it. -/
def staysInPlace : List Char → Bool
  | [] => true
  | '/' :: '.' :: rest => staysInPlace rest
  | '/' :: rest => staysInPlace rest
  | _ => false

/-- Whether a name stands for standard input: a single dash is its only segment. -/
def isStandardInput (name : String) : Bool :=
  match name.toList with
  | '-' :: rest => staysInPlace rest
  | _ => false

/-! ## Arguments -/

namespace Arguments

/-- The arguments of no words. -/
def none : Arguments := ⟨.none, false, .none⟩

/-- The arguments with curves asked for. -/
def withPaths (a : Arguments) : Except UsageError Arguments :=
  if a.paths then .error (.repeatedOption "paths") else .ok { a with paths := true }

/-- The arguments with a number of rounds. -/
def withIterations (a : Arguments) (text : String) : Except UsageError Arguments :=
  if a.iterations.isSome then .error (.repeatedOption "iterations")
  else
    match readCount? text with
    | some n => .ok { a with iterations := some n }
    | .none => .error (.invalidCount text)

/-- The arguments with the name of an input. -/
def withInput (a : Arguments) (word : String) : Except UsageError Arguments :=
  if a.input.isSome then .error (.secondInput word)
  else if word = "" then .error .emptyInput
  else .ok { a with input := some word }

/-- The file to be read; without one the request comes from standard input. -/
def file? (a : Arguments) : Option String :=
  a.input.filter fun name => !isStandardInput name

end Arguments

/-! ## Commands -/

namespace Command

/-- How the next word is taken. -/
inductive Mode where
  /-- A word is taken as an option or the name of an input. -/
  | any
  /-- A word is taken as the number of rounds. -/
  | count
  /-- A word is taken as the name of an input, whatever it looks like. -/
  | input
deriving DecidableEq, Repr

/-- What a word leads to: what is asked for at once, or the arguments so far and how the next word
is taken. -/
abbrev Step := Command ⊕ Arguments × Mode

/-- What an option with a long name leads to. -/
def takeLong (a : Arguments) (word name : String) (value : Option String) :
    Except UsageError Step :=
  if name = "iterations" then
    match value with
    | some text => (a.withIterations text).map fun next => .inr (next, .any)
    | none => .ok (.inr (a, .count))
  else if name ∉ ["paths", "version", "help"] then .error (.unknownOption word)
  else if value.isSome then .error (.unexpectedValue word)
  else if name = "paths" then a.withPaths.map fun next => .inr (next, .any)
  else .ok (.inl (if name = "version" then .version else .help))

/-- What a dash with letters leads to; the first letter decides. -/
def takeShort (word : String) (first : Char) : Except UsageError Step :=
  if first = 'V' then .ok (.inl .version)
  else if first = 'h' then .ok (.inl .help)
  else .error (.unknownOption word)

/-- What a word leads to. -/
def take (a : Arguments) (mode : Mode) (word : String) : Except UsageError Step :=
  match mode, Word.ofChars word.toList with
  | .input, _ => (a.withInput word).map fun next => .inr (next, .input)
  | .count, .plain => (a.withIterations word).map fun next => .inr (next, .any)
  | .count, _ => .error .missingCount
  | .any, .plain => (a.withInput word).map fun next => .inr (next, .any)
  | .any, .separator => .ok (.inr (a, .input))
  | .any, .long name value => takeLong a word (String.ofList name) value
  | .any, .short first _ => takeShort word first

/-- What is asked for where the words end. -/
def finish (a : Arguments) (mode : Mode) : Except UsageError Command :=
  if mode = .count then .error .missingCount else .ok (.layout a)

/-- Takes words one by one. -/
def ofWordsFrom (a : Arguments) (mode : Mode) : List String → Except UsageError Command
  | [] => finish a mode
  | word :: rest =>
    match take a mode word with
    | .error e => .error e
    | .ok (.inl command) => .ok command
    | .ok (.inr (next, mode)) => ofWordsFrom next mode rest

/-- What words ask for. -/
def ofWords (words : List String) : Except UsageError Command :=
  ofWordsFrom .none .any words

end Command

end SankeyDiagram
