import SankeyDiagram.Diagram.Basic

/-! # Sides of a node

Links leave a node on one side and enter it on the other. What the layout does on one side it does
on the other as well, with the ends of the links exchanged.

## Main definitions

* **`Side`** one of the two sides.
* **`Node.linksAt`** the links on a side.
* **`Link.nearEnd`**, **`Link.farEnd`** the ends of a link, seen from a side.
* **`Link.slotAt`** how far below the upper edge of a node a link starts on a side.
* **`Diagram.flow`** the sum of the values of some links.
-/

namespace SankeyDiagram

/-- One of the two sides of a node. -/
inductive Side where
  /-- Where links leave the node. -/
  | outgoing
  /-- Where links enter the node. -/
  | incoming
deriving DecidableEq, Repr

variable {α : Type}

/-- The links on a side of a node. -/
def Node.linksAt (n : Node α) : Side → List LinkId
  | .outgoing => n.outgoing
  | .incoming => n.incoming

namespace Link

/-- The node on a side of which a link stands. -/
def nearEnd (l : Link α) : Side → NodeId
  | .outgoing => l.source
  | .incoming => l.target

/-- The node to which a link leads from a side of another. -/
def farEnd (l : Link α) : Side → NodeId
  | .outgoing => l.target
  | .incoming => l.source

/-- How far below the upper edge of its node a link starts on a side. -/
def slotAt (l : Link α) : Side → α
  | .outgoing => l.sy
  | .incoming => l.ty

/-- A link that starts elsewhere on a side. -/
def withSlotAt (l : Link α) (offset : α) : Side → Link α
  | .outgoing => { l with sy := offset }
  | .incoming => { l with ty := offset }

end Link

namespace Diagram

variable [Scalar α]

/-- The sum of the values of some links, in their order. -/
def flow (d : Diagram α) (ids : List LinkId) : α :=
  Scalar.sum (ids.map fun id => (d.link id).value)

/-- Whether all links of a list exist, and the nodes that they lead to from a side. -/
def hasFarEnds (d : Diagram α) (side : Side) (ids : List LinkId) : Bool :=
  ids.all fun id => d.hasLink id && d.hasNode ((d.link id).farEnd side)

end Diagram

end SankeyDiagram
