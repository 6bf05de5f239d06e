import SankeyDiagram.Decimal.Style
import SankeyDiagram.Layout

/-! # Messages

What is told about failures.

## Main definitions

* **`FlowError.message`**, **`ConfigError.message`**, **`LayoutError.message`** the texts.
-/

namespace SankeyDiagram

/-- The text of a failure to make a diagram. -/
def FlowError.message : FlowError Binary64 → String
  | .indexOutOfRange link index nodeCount =>
    "link " ++ toString link ++ " references node index " ++ toString index ++ ", but only "
      ++ toString nodeCount ++ " nodes exist"
  | .unknownNode link name => "link " ++ toString link ++ " references unknown node " ++ quoted name
  | .duplicateNode name first second =>
    "duplicate node name " ++ quoted name ++ " at positions " ++ toString first ++ " and "
      ++ toString second
  | .invalidValue link value => "link " ++ toString link ++ " has invalid value " ++ value.plainText
  | .linkFlowOverflow link =>
    "link " ++ toString link ++ " overflows the flow of the link it merges into"
  | .nodeFlowOverflow name => "flow through node " ++ quoted name ++ " overflows"

/-- The text of what is wrong with settings. -/
def ConfigError.message : ConfigError Binary64 → String
  | .nonFinite field value => field.label ++ " must be finite, got " ++ value.plainText
  | .negative field value => field.label ++ " must not be negative, got " ++ value.plainText
  | .nodeWiderThanLayout nodeWidth width =>
    "node width " ++ nodeWidth.plainText ++ " must be less than layout width " ++ width.plainText
  | .curvatureOutOfRange value => "curvature must lie in [0, 1], got " ++ value.plainText

/-- The text of a failure of a layout. -/
def LayoutError.message : LayoutError Binary64 → String
  | .flows reason => "invalid graph: " ++ reason.message
  | .config reason => "invalid configuration: " ++ reason.message
  | .notLaidOut => "no layout has been computed yet"
  | .nodeNotFound id => "node " ++ id.label ++ " does not exist"

end SankeyDiagram
