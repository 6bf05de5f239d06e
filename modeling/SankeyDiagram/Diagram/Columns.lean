import SankeyDiagram.Diagram.Sizing
import SankeyDiagram.Packing

/-! # Columns

The vertical placement of a diagram. Nodes are pulled toward the nodes that their links lead to,
layer by layer, first from the right and then from the left, and the nodes of every layer are kept
apart after each pass. The pull gets weaker from round to round.

## Main definitions

* **`Columns`** a diagram with the nodes of each layer in their order from the top down.
* **`Columns.settled`** the nodes of every layer sorted and packed.
* **`Diagram.weightedCenter?`** the mean height of the nodes that some links lead to.
* **`Diagram.relaxed`** one pass of pulls.
* **`Columns.relaxed`** a number of rounds.
* **`Diagram.withColumns`** the diagram with heights and upper edges.
* **`Diagram.hasColumns`** whether all nodes and links exist that this has to look up.
-/

namespace SankeyDiagram

variable {α : Type} [Scalar α]

/-! ## Packing layers -/

namespace Diagram

/-- A node as a box in its column. -/
def box (d : Diagram α) (id : NodeId) : Box α :=
  ⟨(d.node id).y, (d.node id).dy⟩

/-- Some nodes from the top down; those at one height keep their order. -/
def fromTop (d : Diagram α) (layer : List NodeId) : List NodeId :=
  layer.mergeSort fun a b => Scalar.precedes (d.node a).y (d.node b).y

/-- The diagram with some nodes moved, one after another. -/
def setTops (d : Diagram α) (moves : List (NodeId × α)) : Diagram α :=
  moves.foldl (fun d (id, y) => d.setTop id y) d

/-- The upper edges of some nodes, once they are packed in their order. -/
def packedTops (d : Diagram α) (config : Config α) (layer : List NodeId) : List α :=
  (Box.pack config.nodePadding config.height (layer.map d.box)).map Box.top

/-- The diagram with some nodes packed in their order. -/
def packed (config : Config α) (d : Diagram α) (layer : List NodeId) : Diagram α :=
  d.setTops (layer.zip (d.packedTops config layer))

end Diagram

/-- A diagram with the nodes of each layer in an order. -/
structure Columns (α : Type) where
  /-- The diagram. -/
  diagram : Diagram α
  /-- The nodes of each layer. -/
  layers : List (List NodeId)

/-- The layers sorted from the top down and packed. -/
def Columns.settled (config : Config α) (c : Columns α) : Columns α :=
  let layers := c.layers.map c.diagram.fromTop
  ⟨layers.foldl (Diagram.packed config) c.diagram, layers⟩

/-! ## Pulling nodes -/

namespace Diagram

/-- The mean of the centers of the nodes that some links lead to, weighted by the values of the
links; none if there is no flow. -/
def weightedCenter? (d : Diagram α) (side : Side) (ids : List LinkId) : Option α :=
  let total := d.flow ids
  if ids.isEmpty ∨ total ≤ 0 then none
  else
    some (Scalar.sum (ids.map fun id =>
      (d.node ((d.link id).farEnd side)).center * ((d.link id).value / total)))

/-- The diagram with a node moved a part of the way to where the links on a side pull its
center. -/
def pulled (side : Side) (strength : α) (d : Diagram α) (id : NodeId) : Diagram α :=
  let n := d.node id
  match d.weightedCenter? side (n.linksAt side) with
  | some goal => d.setTop id (n.y + (goal - n.center) * strength)
  | none => d

/-- The diagram with the nodes of some layers pulled, layer by layer. -/
def relaxed (side : Side) (strength : α) (layers : List (List NodeId)) (d : Diagram α) :
    Diagram α :=
  layers.foldl (fun d layer => layer.foldl (pulled side strength) d) d

end Diagram

namespace Columns

/-- What is left of the strength of a pull in the next round. -/
def decay : α := 0.99

/-- A pass of pulls from the right to the left: nodes go toward where their links lead. -/
def relaxedLeftward (strength : α) (c : Columns α) : Columns α :=
  { c with diagram := c.diagram.relaxed .outgoing strength c.layers.reverse }

/-- A pass of pulls from the left to the right: nodes go toward where their links come from. -/
def relaxedRightward (strength : α) (c : Columns α) : Columns α :=
  { c with diagram := c.diagram.relaxed .incoming strength c.layers }

/-- A round: both passes, with the layers settled after each. -/
def round (config : Config α) (strength : α) (c : Columns α) : Columns α :=
  (((c.relaxedLeftward strength).settled config).relaxedRightward strength).settled config

/-- A number of rounds; the strength given is that of the round before them. -/
def relaxed (config : Config α) : Nat → α → Columns α → Columns α
  | 0, _, c => c
  | rounds + 1, strength, c =>
    let weaker := strength * decay
    relaxed config rounds weaker (c.round config weaker)

end Columns

namespace Diagram

/-- The nodes of each layer in their order. -/
def columns (d : Diagram α) : Columns α :=
  ⟨d, d.layers⟩

/-- The diagram with heights and upper edges, after a number of rounds. -/
def withColumns (d : Diagram α) (config : Config α) (rounds : Nat) : Diagram α :=
  (((d.withSizes config).columns.settled config).relaxed config rounds 1).diagram

/-! ## Look-up -/

/-- Whether all links on a side of a node exist, and the nodes that they lead to if flow passes. -/
def hasPull (d : Diagram α) (side : Side) (n : Node α) : Bool :=
  let ids := n.linksAt side
  ids.all d.hasLink && (decide (ids.isEmpty ∨ d.flow ids ≤ 0) || d.hasFarEnds side ids)

/-- Whether a number of rounds only meets nodes and links that exist. -/
def hasColumns (d : Diagram α) (rounds : Nat) : Bool :=
  d.hasLayers &&
    (rounds == 0 || d.nodes.all fun n => d.hasPull .outgoing n && d.hasPull .incoming n)

end Diagram

end SankeyDiagram
