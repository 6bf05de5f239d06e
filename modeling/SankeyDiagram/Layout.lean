import SankeyDiagram.Diagram.Columns
import SankeyDiagram.Diagram.Layering
import SankeyDiagram.Diagram.Slots

/-! # Layout

From names and flows to a diagram with all of its places.

## Main definitions

* **`Diagram.placed`** a diagram with everything that is computed put in.
* **`Diagram.ofFlowsPlaced`** the placed diagram of names and flows.
* **`layout`** the same, once the settings have been examined.
* **`LayoutError`** how a layout can fail.
-/

namespace SankeyDiagram

/-- How a layout can fail. -/
inductive LayoutError (α : Type) where
  /-- Names and flows make no diagram. -/
  | flows (reason : FlowError α)
  /-- Something is wrong with the settings. -/
  | config (reason : ConfigError α)
  /-- The session has no diagram to work on. -/
  | notLaidOut
  /-- A position has no node in the diagram. -/
  | nodeNotFound (id : NodeId)
deriving DecidableEq, Repr

variable {α : Type} [Scalar α]

namespace Diagram

/-- The diagram with everything that is computed put in: values, layers, columns with a number of
relaxation rounds, and slots. -/
def placed (d : Diagram α) (config : Config α) (rounds : Nat) : Diagram α :=
  ((d.withValues.withLayers config).withColumns config rounds).withSlots

/-- The placed diagram of names and flows. -/
def ofFlowsPlaced (names : List String) (flows : List (Flow α)) (config : Config α)
    (rounds : Nat) : Except (FlowError α) (Diagram α) :=
  (Diagram.ofFlows names flows).map (·.placed config rounds)

end Diagram

/-- The placed diagram of names and flows, with as many rounds as the settings say; the settings
are examined first. -/
def layout (names : List String) (flows : List (Flow α)) (config : Config α) :
    Except (LayoutError α) (Diagram α) :=
  match config.error? with
  | some e => .error (.config e)
  | none => (Diagram.ofFlowsPlaced names flows config config.iterations).mapError .flows

end SankeyDiagram
