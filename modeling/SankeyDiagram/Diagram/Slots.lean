import SankeyDiagram.Diagram.Side

/-! # Slots

The order of the links on the sides of every node, and where each link starts and ends. Links
stand in the order of the heights of the nodes that they lead to, so that they do not cross near
the node, and one directly below the other.

## Main definitions

* **`Diagram.fromTopEnd`** links in the order of the nodes that they lead to.
* **`Diagram.withLinkOrder`** the diagram with the links of every node in that order.
* **`Diagram.stacked`** the diagram with links one below the other on a side.
* **`Diagram.withSlots`** the diagram with links in order and stacked on both sides of every node.
* **`Diagram.hasSlots`** whether all nodes and links exist that this has to look up.
-/

namespace SankeyDiagram

namespace Diagram

variable {α : Type} [Scalar α]

/-- The center of the node that a link leads to from a side. -/
def farCenter (d : Diagram α) (side : Side) (id : LinkId) : α :=
  (d.node ((d.link id).farEnd side)).center

/-- Some links from the top down by the nodes that they lead to; those to one height keep their
order. -/
def fromTopEnd (d : Diagram α) (side : Side) (ids : List LinkId) : List LinkId :=
  ids.mergeSort fun a b => Scalar.precedes (d.farCenter side a) (d.farCenter side b)

/-- The diagram with the links on both sides of every node in the order of the nodes that they
lead to. -/
def withLinkOrder (d : Diagram α) : Diagram α :=
  { d with nodes := d.nodes.map fun n =>
      { n with
        outgoing := d.fromTopEnd .outgoing n.outgoing
        incoming := d.fromTopEnd .incoming n.incoming } }

/-- The diagram with a link that starts elsewhere on a side. -/
def setSlot (d : Diagram α) (side : Side) (id : LinkId) (offset : α) : Diagram α :=
  { d with links := d.links.modify id.index fun l => l.withSlotAt offset side }

/-- The diagram with some links one directly below the other on a side, from an offset on. -/
def stacked (d : Diagram α) (side : Side) (offset : α) : List LinkId → Diagram α
  | [] => d
  | id :: below =>
    stacked (d.setSlot side id offset) side (offset + (d.link id).dy) below

/-- The diagram with the links on both sides of a node stacked from its upper edge down. -/
def withStacks (d : Diagram α) (n : Node α) : Diagram α :=
  (d.stacked .outgoing 0 n.outgoing).stacked .incoming 0 n.incoming

/-- The diagram with links in order and stacked on both sides of every node. -/
def withSlots (d : Diagram α) : Diagram α :=
  let ordered := d.withLinkOrder
  ordered.nodes.toList.foldl withStacks ordered

/-- Whether all links of a list exist, and the nodes that they lead to if there is something to
compare. -/
def hasOrder (d : Diagram α) (side : Side) (ids : List LinkId) : Bool :=
  ids.all d.hasLink && (ids.length < 2 || d.hasFarEnds side ids)

/-- Whether stacking only meets nodes and links that exist. -/
def hasSlots (d : Diagram α) : Bool :=
  d.nodes.all fun n => d.hasOrder .outgoing n.outgoing && d.hasOrder .incoming n.incoming

end Diagram

end SankeyDiagram
