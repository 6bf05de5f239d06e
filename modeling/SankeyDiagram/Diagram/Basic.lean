import SankeyDiagram.Scalar

/-! # Diagrams

A diagram: nodes, the links between them, and where all of them are drawn. Nodes and links are
named by their positions.

## Main definitions

* **`NodeId`**, **`LinkId`** the position of a node and of a link.
* **`Node`**, **`Link`**, **`CircularLink`** what a diagram holds.
* **`Warning`** what a layout could not keep.
* **`Diagram`** nodes, links, and what the layout found about them.
* **`Diagram.node`**, **`Diagram.link`** look-up; a position without an entry reads as a blank.
* **`Diagram.layers`** the nodes by layer.
* **`Diagram.overflowingNodes`** the nodes outside of a vertical extent.
-/

namespace SankeyDiagram

/-- The position of a node. -/
structure NodeId where
  /-- Counted from zero. -/
  index : Nat
deriving DecidableEq, Repr

/-- The position of a link. -/
structure LinkId where
  /-- Counted from zero. -/
  index : Nat
deriving DecidableEq, Repr

/-- The name of a node by its position. -/
def NodeId.label (id : NodeId) : String := "n" ++ toString id.index

/-- The name of a link by its position. -/
def LinkId.label (id : LinkId) : String := "l" ++ toString id.index

/-! ## Nodes -/

/-- A node: a rectangle in a layer, with the links on both of its sides. -/
structure Node (α : Type) where
  /-- The name that the caller gave. -/
  name : String
  /-- The layer, counted from the left. -/
  layer : Nat
  /-- The left edge. -/
  x : α
  /-- The width. -/
  dx : α
  /-- The upper edge. -/
  y : α
  /-- The height. -/
  dy : α
  /-- The flow through the node. -/
  value : α
  /-- The links that leave the node, from the top down. -/
  outgoing : List LinkId
  /-- The links that enter the node, from the top down. -/
  incoming : List LinkId
deriving DecidableEq, Repr

namespace Node

variable {α : Type} [Scalar α]

/-- A node without links that is not placed yet. -/
def unplaced (name : String) : Node α :=
  ⟨name, 0, 0, 0, 0, 0, 0, [], []⟩

/-- The height of the middle of a node. -/
def center (n : Node α) : α := n.y + n.dy / ((2 : Nat) : α)

/-- The lower edge. -/
def bottom (n : Node α) : α := n.y + n.dy

/-- The right edge. -/
def right (n : Node α) : α := n.x + n.dx

/-- Whether no link enters the node. -/
def isSource (n : Node α) : Bool := n.incoming.isEmpty

/-- Whether no link leaves the node. -/
def isSink (n : Node α) : Bool := n.outgoing.isEmpty

end Node

/-! ## Links -/

/-- A link: a band from one node to another, for all flows between the two. -/
structure Link (α : Type) where
  /-- Where the band starts. -/
  source : NodeId
  /-- Where the band ends. -/
  target : NodeId
  /-- The sum of the flows. -/
  value : α
  /-- The thickness. -/
  dy : α
  /-- How far below the upper edge of its source the band starts. -/
  sy : α
  /-- How far below the upper edge of its target the band ends. -/
  ty : α
  /-- The number of flows, a word of sixty-four bits that starts over at zero. -/
  merged : UInt64
  /-- The position of the first of the flows. -/
  inputIndex : Nat
deriving DecidableEq, Repr

namespace Link

variable {α : Type} [Scalar α]

/-- A link for one flow that is not placed yet. -/
def unplaced (source target : NodeId) (value : α) (inputIndex : Nat) : Link α :=
  ⟨source, target, value, 0, 0, 0, 1, inputIndex⟩

/-- A link for one more flow. -/
def absorb (l : Link α) (value : α) : Link α :=
  { l with value := l.value + value, merged := l.merged + 1 }

/-- Whether a link runs from one node to another. -/
def joins (l : Link α) (source target : NodeId) : Bool :=
  l.source = source && l.target = target

end Link

/-- A flow that is left out of the drawing because it would close a cycle of links. -/
structure CircularLink (α : Type) where
  /-- Where the flow comes from. -/
  source : NodeId
  /-- Where the flow goes. -/
  target : NodeId
  /-- The size of the flow. -/
  value : α
  /-- The position of the flow. -/
  inputIndex : Nat
deriving DecidableEq, Repr

/-- Whether a flow returns to the node that it comes from. -/
def CircularLink.isSelfLoop {α : Type} (c : CircularLink α) : Bool :=
  c.source = c.target

/-! ## Diagrams -/

/-- What a layout could not keep. -/
inductive Warning (α : Type) where
  /-- The nodes of a layer with their gaps need more height than there is. -/
  | layerOverflow (layer : Nat) (required available : α)
deriving DecidableEq, Repr

/-- Nodes, links, and what the layout found about them. -/
structure Diagram (α : Type) where
  /-- The nodes in the order in which the caller gave them. -/
  nodes : Array (Node α)
  /-- The links in the order of their first flows. -/
  links : Array (Link α)
  /-- The flows that are left out. -/
  circularLinks : List (CircularLink α)
  /-- The nodes that no link enters. -/
  roots : List NodeId
  /-- The number of layers, zero before there are any. -/
  layerCount : Nat
  /-- What the layout could not keep. -/
  warnings : List (Warning α)
deriving DecidableEq, Repr

namespace Diagram

variable {α : Type}

/-- The diagram without nodes. -/
def empty : Diagram α :=
  ⟨#[], #[], [], [], 0, []⟩

/-- The positions of the nodes in order. -/
def nodeIds (d : Diagram α) : List NodeId :=
  (List.range d.nodes.size).map NodeId.mk

/-- Whether there is a node at a position. -/
def hasNode (d : Diagram α) (id : NodeId) : Bool :=
  id.index < d.nodes.size

/-- Whether there is a link at a position. -/
def hasLink (d : Diagram α) (id : LinkId) : Bool :=
  id.index < d.links.size

/-- `d.hasNode id` compares the position with the number of nodes. -/
@[simp] theorem hasNode_iff (d : Diagram α) (id : NodeId) :
    d.hasNode id ↔ id.index < d.nodes.size := by
  simp [hasNode]

/-- `d.hasLink id` compares the position with the number of links. -/
@[simp] theorem hasLink_iff (d : Diagram α) (id : LinkId) :
    d.hasLink id ↔ id.index < d.links.size := by
  simp [hasLink]

variable [Scalar α]

/-- The node at a position. -/
def node (d : Diagram α) (id : NodeId) : Node α :=
  d.nodes.getD id.index (.unplaced "")

/-- The link at a position. -/
def link (d : Diagram α) (id : LinkId) : Link α :=
  d.links.getD id.index (.unplaced ⟨0⟩ ⟨0⟩ 0 0)

/-- Where there is a node, `d.node id` is the entry `d.nodes[id.index]`. -/
theorem node_of_lt (d : Diagram α) {id : NodeId} (h : id.index < d.nodes.size) :
    d.node id = d.nodes[id.index] := by
  simp [node, Array.getD, h]

/-- Where there is a link, `d.link id` is the entry `d.links[id.index]`. -/
theorem link_of_lt (d : Diagram α) {id : LinkId} (h : id.index < d.links.size) :
    d.link id = d.links[id.index] := by
  simp [link, Array.getD, h]

/-- The diagram with the upper edge of a node moved. -/
def setTop (d : Diagram α) (id : NodeId) (y : α) : Diagram α :=
  { d with nodes := d.nodes.modify id.index fun n => { n with y } }

/-- The first node of a name. -/
def nodeId? (d : Diagram α) (name : String) : Option NodeId :=
  d.nodeIds.find? fun id => (d.node id).name = name

/-- The first of some links that ends at a node; no answer if a link before it does not exist. -/
def firstLinkTo? (d : Diagram α) (target : NodeId) : List LinkId → Option (Option (Link α))
  | [] => some none
  | id :: rest =>
    if d.hasLink id then
      if (d.link id).target = target then some (some (d.link id)) else firstLinkTo? d target rest
    else none

/-- The link between two nodes, if there is one; no answer if a node or link that has to be looked
up does not exist. -/
def linkBetween? (d : Diagram α) (source target : NodeId) : Option (Option (Link α)) :=
  if d.hasNode source then d.firstLinkTo? target (d.node source).outgoing else none

/-! ### Layers -/

/-- One more than the greatest layer of a node. -/
def layerBound (d : Diagram α) : Nat :=
  d.nodes.foldl (fun bound n => max bound (n.layer + 1)) 0

/-- The nodes of a layer in order. -/
def layer (d : Diagram α) (k : Nat) : List NodeId :=
  d.nodeIds.filter fun id => (d.node id).layer = k

/-- The nodes by layer, from the left. -/
def layers (d : Diagram α) : List (List NodeId) :=
  (List.range d.layerBound).map d.layer

/-- How many layers can be told apart. -/
def maxLayers : Nat := (Nat.pow 2 63 - 1) / 24

/-- Whether no node is in a layer beyond those that can be told apart. -/
def hasLayers (d : Diagram α) : Bool :=
  d.layerBound ≤ maxLayers

/-! ### Fitting the extent -/

/-- By how much a layer may be too high without being reported. -/
def tolerance : α := 1e-9

/-- The nodes that reach beyond a vertical extent from zero. -/
def overflowingNodes (d : Diagram α) (height : α) : List NodeId :=
  d.nodeIds.filter fun id => (d.node id).y < 0 || height + tolerance < (d.node id).bottom

/-- Whether a layer was found to be too high. -/
def isDegenerate (d : Diagram α) : Bool :=
  d.warnings.any fun | .layerOverflow .. => true

end Diagram

end SankeyDiagram
