import SankeyDiagram.Command.Arguments
import SankeyDiagram.Diagram.Curve
import SankeyDiagram.Document.Diagram
import SankeyDiagram.Document.Request
import SankeyDiagram.Fingerprint
import SankeyDiagram.Message
import SankeyDiagram.Session

/-! # Reports

What is printed for a request: its settings, its diagram, and digests of both.

## Main definitions

* **`Report`** what is printed, and **`Report.write`** its document.
* **`Report.ofRequest`** the report for a request.
* **`Report.ofText`** the report for the text of a request.
* **`ReportError`** why there can be no report.
-/

namespace SankeyDiagram

/-- What is printed for a request. -/
structure Report where
  /-- The settings. -/
  config : Config Binary64
  /-- The diagram. -/
  diagram : Diagram Binary64
  /-- The path data of the curves of all links, if they are asked for. -/
  paths : Option (List String)
deriving DecidableEq, Repr

/-- Why there can be no report. -/
inductive ReportError where
  /-- The text is no request. -/
  | document (reason : Fault)
  /-- The layout fails. -/
  | layout (reason : LayoutError Binary64)
deriving DecidableEq, Repr

namespace Report

/-- The document of a report. -/
def write (r : Report) : Json :=
  .object <|
    [("schema_version", .text schemaVersion), ("params_hash", .text r.config.fingerprint),
      ("fingerprint", .text r.diagram.fingerprint), ("config", r.config.write),
      ("graph", r.diagram.write)]
    ++ (r.paths.map fun paths => ("paths", Json.listOf .text paths)).toList

/-- The path data of the curves of all links. -/
def pathsOf (config : Config Binary64) (d : Diagram Binary64) : List String :=
  ((Bend.ofCurvature config.curvature).curves d).map Curve.svg

/-- The report of a session, for a number of rounds if one is given. -/
def ofSession (s : Session Binary64) (a : Arguments) : Except (LayoutError Binary64) Report :=
  match (s.layout (a.iterations.getD s.config.iterations)).2 with
  | .error e => .error e
  | .ok d => .ok ⟨s.config, d, if a.paths then some (pathsOf s.config d) else none⟩

/-- The report for a request. -/
def ofRequest (r : Request) (a : Arguments) : Except (LayoutError Binary64) Report :=
  match Session.continued (Session.standard.configure r.overrides) with
  | .error e => .error e
  | .ok s => ofSession (s.setFlows r.names r.flows) a

/-- The report for the text of a request. -/
def ofText (text : String) (a : Arguments) : Except ReportError Report :=
  match readText Request.read text with
  | .error fault => .error (.document fault)
  | .ok request => (ofRequest request a).mapError .layout

end Report

end SankeyDiagram
