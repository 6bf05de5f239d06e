import SankeyDiagram.Command.Outcome

/-! # The program

Reads a request from a file or from standard input and prints its report.

## Main definitions

* **`main`** the program.
-/

open SankeyDiagram

/-- The text of the input, if it can be read. -/
def readInput (a : Arguments) : IO (Option String) := do
  try
    match a.file? with
    | some path => some <$> IO.FS.readFile path
    | none => some <$> (← IO.getStdin).readToEnd
  catch _ => return none

/-- The program. -/
def main (words : List String) : IO UInt32 := do
  let outcome ← Outcome.ofWords readInput words
  if let some text := outcome.printout.text? then IO.println text
  if let some complaint := outcome.complaint then IO.eprintln ("Error: " ++ complaint)
  return UInt32.ofNat outcome.exitCode
