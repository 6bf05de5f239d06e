import SankeyDiagram.Text.Unicode

/-! # Quoted names

Names as they stand in messages: in double quotes, with every character visible.

## Main definitions

* **`quotedChar`** the form of one character.
* **`quoted`** the form of a name.
-/

namespace SankeyDiagram

/-- The number of a character in lower-case hexadecimal digits between braces. -/
def codePointEscape (c : Char) : List Char :=
  ['\\', 'u', '\x7b'] ++ Nat.toDigits 16 c.toNat ++ ['\x7d']

/-- Whether a character would not show by itself: it has no visible form, it is a mark that joins
the character before it, or it may show nothing. -/
def isHidden (c : Char) : Bool :=
  if c.toNat < 0x7F then c.toNat < 0x20
  else
    Unicode.inRanges Unicode.extendingMarks c.toNat
      || Unicode.inRanges Unicode.unprintable c.toNat
      || Unicode.inRanges Unicode.defaultIgnorable c.toNat

/-- The form of one character inside quotes. -/
def quotedChar (c : Char) : List Char :=
  if c = '"' then ['\\', '"']
  else if c = '\\' then ['\\', '\\']
  else if c.toNat = 0 then ['\\', '0']
  else if c = '\t' then ['\\', 't']
  else if c = '\n' then ['\\', 'n']
  else if c = '\r' then ['\\', 'r']
  else if isHidden c then codePointEscape c
  else [c]

/-- A name in quotes. -/
def quoted (name : String) : String :=
  String.ofList ('"' :: name.toList.flatMap quotedChar ++ ['"'])

end SankeyDiagram
