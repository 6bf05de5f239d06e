import SankeyDiagram.Diagram.Side
import SankeyDiagram.Flow
import SankeyDiagram.Reach

/-! # Assembly

The diagram that names and flows make. Flows are taken in their order. Flows between the same two
nodes share a link, and a flow that would close a cycle of links is left out.

## Main definitions

* **`Intake`** the links and the flows left out so far.
* **`Intake.take`** takes one more flow.
* **`Diagram.ofFlows`** the diagram of names and flows, not placed yet.
-/

namespace SankeyDiagram

variable {α : Type} [Scalar α]

/-- The links and the flows left out so far. -/
structure Intake (α : Type) where
  /-- The links in the order of their first flows. -/
  links : List (Link α)
  /-- The flows left out, in order. -/
  circularLinks : List (CircularLink α)

namespace Intake

/-- No flows yet. -/
def empty : Intake α := ⟨[], []⟩

/-- The nodes that each of `n` nodes leads to by a link, in the order of the links. -/
def successors (n : Nat) (links : List (Link α)) : Successors :=
  links.foldl (fun table link => table.modify link.source.index (· ++ [link.target]))
    (Array.replicate n [])

/-- Takes the flow at a position: a link between its nodes absorbs it, a flow back to where links
come from is left out, and any other flow gets a link. -/
def take (n : Nat) (intake : Intake α) (flow : ResolvedFlow α) (position : Nat) :
    Except (FlowError α) (Intake α) :=
  match intake.links.find? (·.joins flow.source flow.target) with
  | some link =>
    if Scalar.isFinite (link.absorb flow.value).value then
      .ok { intake with
        links := intake.links.map fun l =>
          if l.joins flow.source flow.target then l.absorb flow.value else l }
    else .error (.linkFlowOverflow position)
  | none =>
    if (successors n intake.links).reaches flow.target flow.source then
      .ok { intake with
        circularLinks := intake.circularLinks ++
          [⟨flow.source, flow.target, flow.value, position⟩] }
    else
      .ok { intake with
        links := intake.links ++ [.unplaced flow.source flow.target flow.value position] }

/-- Takes flows one after another, from a position on. -/
def takeAll (n : Nat) (intake : Intake α) :
    List (ResolvedFlow α) → Nat → Except (FlowError α) (Intake α)
  | [], _ => .ok intake
  | flow :: flows, position =>
    match intake.take n flow position with
    | .error e => .error e
    | .ok next => next.takeAll n flows (position + 1)

/-- The positions of the links that pass a test. -/
def linkIds (links : List (Link α)) (test : Link α → Bool) : List LinkId :=
  (links.zipIdx.filter fun (link, _) => test link).map fun (_, i) => ⟨i⟩

/-- The node of a name at a position, with the links on both of its sides. -/
def node (links : List (Link α)) (position : Nat) (name : String) : Node α :=
  { Node.unplaced name with
    outgoing := linkIds links fun link => link.source = ⟨position⟩
    incoming := linkIds links fun link => link.target = ⟨position⟩ }

/-- The diagram of the links. -/
def diagram (names : List String) (intake : Intake α) : Diagram α :=
  let nodes := names.mapIdx (node intake.links)
  { nodes := nodes.toArray
    links := intake.links.toArray
    circularLinks := intake.circularLinks
    roots := (nodes.zipIdx.filter fun (n, _) => n.isSource).map fun (_, i) => ⟨i⟩
    layerCount := 0
    warnings := [] }

end Intake

namespace Diagram

/-- The name of the first node with a side on which the flows add up beyond the ordinary
numbers. -/
def overflowingFlow? (d : Diagram α) : Option String :=
  (d.nodes.toList.find? fun n =>
    !Scalar.isFinite (d.flow n.outgoing) || !Scalar.isFinite (d.flow n.incoming)).map (·.name)

/-- The diagram of names and flows. Names are examined first, then all flows, and sums last. -/
def ofFlows (names : List String) (flows : List (Flow α)) : Except (FlowError α) (Diagram α) :=
  match firstRepeat? names with
  | some (name, first, second) => .error (.duplicateNode name first second)
  | none => do
    let resolved ← resolveAll names flows
    let intake ← Intake.empty.takeAll names.length resolved 0
    let d := intake.diagram names
    match d.overflowingFlow? with
    | some name => .error (.nodeFlowOverflow name)
    | none => return d

end Diagram

end SankeyDiagram
