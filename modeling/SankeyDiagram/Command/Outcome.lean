import SankeyDiagram.Command.Report

/-! # Outcomes

What the program prints and how it ends.

## Main definitions

* **`Outcome`** an exit code with what goes to standard output and to standard error.
* **`Outcome.ofWords`** the outcome for the words of a command line, given a way to read the input.
-/

namespace SankeyDiagram

/-- What goes to standard output. -/
inductive Printout where
  /-- Nothing is printed. -/
  | nothing
  /-- A text is printed as it stands. -/
  | text (value : String)
  /-- A document is printed by lines. -/
  | document (value : Json)

namespace Printout

/-- The text that goes to standard output, if there is one. -/
def text? : Printout → Option String
  | .nothing => none
  | .text value => some value
  | .document value => some value.pretty

end Printout

/-- What the program prints and how it ends. -/
structure Outcome where
  /-- Zero if something was printed, one if there can be no report, two if the words ask for
  nothing. -/
  exitCode : Nat
  /-- What goes to standard output. -/
  printout : Printout
  /-- What goes to standard error. -/
  complaint : Option String

/-! ## Complaints -/

/-- What is told about words that ask for nothing. -/
def UsageError.message : UsageError → String
  | .unknownOption word => "there is no option " ++ word
  | .unexpectedValue word => "the option takes no value: " ++ word
  | .repeatedOption name => "the option --" ++ name ++ " is given twice"
  | .missingCount => "the option --iterations needs a number"
  | .invalidCount text => "no number of rounds: " ++ quoted text
  | .emptyInput => "the name of the input is empty"
  | .secondInput word => "there is one input already, before " ++ word

/-- What is told about text that does not fit a type. -/
def Fault.message : Fault → String
  | .broken .malformed => "malformed document"
  | .broken .ended => "the document ends too early"
  | .surplus _ => "too many items in a list"
  | .mismatch reason => reason.message

/-- What is told where there can be no report. -/
def ReportError.message : ReportError → String
  | .document reason => reason.message
  | .layout reason => reason.message

namespace Outcome

/-- What is printed about the use of the program. -/
def helpText : String :=
  "Lays out the flow diagram of a request and prints it.\n\n"
    ++ "Usage: sankey_layout [OPTIONS] [INPUT]\n\n"
    ++ "Arguments:\n"
    ++ "  [INPUT]               file of the request; standard input without one, and for \"-\"\n\n"
    ++ "Options:\n"
    ++ "      --paths           print the curves of all links\n"
    ++ "      --iterations <N>  number of relaxation rounds\n"
    ++ "  -h, --help            print this text\n"
    ++ "  -V, --version         print the version"

/-- What is printed about the version of the program. -/
def versionText : String := "sankey_layout 0.1.0"

/-- A text was asked for. -/
def told (text : String) : Outcome := ⟨0, .text text, none⟩

/-- The words ask for nothing. -/
def misused (e : UsageError) : Outcome := ⟨2, .nothing, some e.message⟩

/-- The input cannot be read. -/
def unreadable : Outcome := ⟨1, .nothing, some "the input cannot be read"⟩

/-- The outcome for a report, or for what prevents it. -/
def ofReport : Except ReportError Report → Outcome
  | .ok report => ⟨0, .document report.write, none⟩
  | .error e => ⟨1, .nothing, some e.message⟩

/-- The outcome for the words of a command line, given a way to read the input of a request. -/
def ofWords {m : Type → Type} [Monad m] (readInput : Arguments → m (Option String))
    (words : List String) : m Outcome :=
  match Command.ofWords words with
  | .error e => return misused e
  | .ok .help => return told helpText
  | .ok .version => return told versionText
  | .ok (.layout a) => do
    match ← readInput a with
    | none => return unreadable
    | some text => return ofReport (Report.ofText text a)

end Outcome

end SankeyDiagram
