import SankeyDiagram.Diagram.Basic
import SankeyDiagram.Text.Quoted

/-! # Flows

What a caller gives: the names of the nodes, and the flows between them.

## Main definitions

* **`Endpoint`** a node, given by its position or by its name.
* **`Flow`** an amount that goes from one endpoint to another.
* **`FlowError`** how names and flows can fail to make a diagram.
* **`firstRepeat?`** the first name that stands in a list for the second time.
* **`Flow.resolve`** a flow between positions.
-/

namespace SankeyDiagram

/-- A node, given by its position or by its name. -/
inductive Endpoint where
  /-- The position of the node. -/
  | position (index : Nat)
  /-- The name of the node. -/
  | named (name : String)
deriving DecidableEq, Repr

/-- An endpoint in messages. -/
def Endpoint.label : Endpoint → String
  | .position index => "#" ++ toString index
  | .named name => quoted name

/-- An amount that goes from one endpoint to another. -/
structure Flow (α : Type) where
  /-- The node that the flow leaves. -/
  source : Endpoint
  /-- The node that the flow enters. -/
  target : Endpoint
  /-- The amount of the flow. -/
  value : α
deriving DecidableEq, Repr

/-- A flow between positions. -/
structure ResolvedFlow (α : Type) where
  /-- The node that the flow leaves. -/
  source : NodeId
  /-- The node that the flow enters. -/
  target : NodeId
  /-- The amount of the flow. -/
  value : α
deriving DecidableEq, Repr

/-- How names and flows can fail to make a diagram. -/
inductive FlowError (α : Type) where
  /-- A position has no node. -/
  | indexOutOfRange (link index nodeCount : Nat)
  /-- A name has no node. -/
  | unknownNode (link : Nat) (name : String)
  /-- Two nodes have one name. -/
  | duplicateNode (name : String) (first second : Nat)
  /-- An amount is below zero or no ordinary number. -/
  | invalidValue (link : Nat) (value : α)
  /-- The flows of a link add up beyond the ordinary numbers. -/
  | linkFlowOverflow (link : Nat)
  /-- The flows on one side of a node add up beyond the ordinary numbers. -/
  | nodeFlowOverflow (name : String)
deriving DecidableEq, Repr

/-- The first name that stands in a list for the second time, with the places of both. -/
def firstRepeat? (names : List String) : Option (String × Nat × Nat) :=
  names.zipIdx.findSome? fun (name, second) =>
    ((names.take second).idxOf? name).map fun first => (name, first, second)

/-- The position of an endpoint. -/
def Endpoint.resolve {α : Type} (names : List String) (link : Nat) :
    Endpoint → Except (FlowError α) NodeId
  | .position index =>
    if index < names.length then .ok ⟨index⟩
    else .error (.indexOutOfRange link index names.length)
  | .named name =>
    match names.idxOf? name with
    | some index => .ok ⟨index⟩
    | none => .error (.unknownNode link name)

/-- A flow between positions: the amount is examined first, then the source, then the target. -/
def Flow.resolve {α : Type} [Scalar α] (names : List String) (link : Nat) (flow : Flow α) :
    Except (FlowError α) (ResolvedFlow α) :=
  if !Scalar.isFinite flow.value ∨ flow.value < 0 then .error (.invalidValue link flow.value)
  else do
    let source ← flow.source.resolve names link
    let target ← flow.target.resolve names link
    return ⟨source, target, flow.value⟩

/-- Flows between positions; the first that is not one is reported. -/
def resolveAll {α : Type} [Scalar α] (names : List String) (flows : List (Flow α)) :
    Except (FlowError α) (List (ResolvedFlow α)) :=
  flows.zipIdx.mapM fun (flow, link) => flow.resolve names link

end SankeyDiagram
