import SankeyDiagram.Config
import SankeyDiagram.Diagram.Assembly

/-! # Layering

The horizontal placement of a diagram. A sweep passes from the roots along the links; the last
frontier that holds a node gives the layer of the node. Nodes that no link leaves are moved to the
last layer.

## Main definitions

* **`Diagram.withValues`** every node gets the larger of the flows on its two sides as its value.
* **`Diagram.frontiers`** the frontiers of a sweep.
* **`Diagram.withLayers`** the diagram with layers, left edges and widths.
* **`Diagram.hasFlows`**, **`Diagram.hasSweep`** whether all nodes and links exist that the two
  have to look up.
-/

namespace SankeyDiagram

namespace Diagram

variable {α : Type} [Scalar α]

/-! ## Values -/

/-- The diagram with the larger of the flows that enter and that leave it as the value of every
node. -/
def withValues (d : Diagram α) : Diagram α :=
  { d with nodes := d.nodes.map fun n =>
      { n with value := Scalar.larger (d.flow n.outgoing) (d.flow n.incoming) } }

/-- Whether all links at the sides of nodes exist. -/
def hasFlows (d : Diagram α) : Bool :=
  d.nodes.all fun n => n.outgoing.all d.hasLink && n.incoming.all d.hasLink

/-! ## The sweep -/

/-- The nodes that the links of a node lead to. -/
def targets (d : Diagram α) (id : NodeId) : List NodeId :=
  (d.node id).outgoing.map fun l => (d.link l).target

/-- The nodes that the links of a frontier lead to, each where it comes first. -/
def nextFrontier (d : Diagram α) (frontier : List NodeId) : List NodeId :=
  (frontier.flatMap d.targets).eraseDups

/-- The frontiers of a sweep from a first one on, up to the last that holds a node, and at most
`limit` of them. -/
def frontiers (d : Diagram α) : Nat → List NodeId → List (List NodeId)
  | 0, _ => []
  | limit + 1, frontier =>
    if frontier.isEmpty then [] else frontier :: frontiers d limit (d.nextFrontier frontier)

/-- The frontiers of the sweep from the roots. Without cycles there are no more of them than
nodes. -/
def sweep (d : Diagram α) : List (List NodeId) :=
  d.frontiers (d.nodes.size + 1) d.roots

/-- The position of the last frontier that holds a node. -/
def lastFrontier? (frontiers : List (List NodeId)) (id : NodeId) : Option Nat :=
  (frontiers.zipIdx.filter fun (frontier, _) => frontier.contains id).getLast?.map Prod.snd

/-- Whether the sweep only meets nodes and links that exist. -/
def hasSweep (d : Diagram α) : Bool :=
  d.sweep.all fun frontier => frontier.all fun id =>
    d.hasNode id && (d.node id).outgoing.all fun l => d.hasLink l && d.hasNode (d.link l).target

/-! ## Placement -/

/-- The layer of a node: the last layer if no link leaves it, otherwise the last frontier that
holds it; a node that no frontier holds stays where it is. -/
def placedLayer (frontiers : List (List NodeId)) (id : NodeId) (n : Node α) : Nat :=
  if n.isSink then frontiers.length - 1 else (lastFrontier? frontiers id).getD n.layer

/-- The distance between the left edges of two layers next to each other. -/
def layerStep (config : Config α) (layerCount : Nat) : α :=
  if 1 < layerCount then (config.width - config.nodeWidth) / ((layerCount - 1 : Nat) : α)
  else config.width

/-- A node in a layer. -/
def placeNode (config : Config α) (layerCount layer : Nat) (n : Node α) : Node α :=
  { n with layer, x := (layer : α) * layerStep config layerCount, dx := config.nodeWidth }

/-- The diagram with layers, left edges and widths. -/
def withLayers (d : Diagram α) (config : Config α) : Diagram α :=
  let frontiers := d.sweep
  { d with
    layerCount := frontiers.length
    nodes := d.nodes.mapIdx fun i n =>
      placeNode config frontiers.length (placedLayer frontiers ⟨i⟩ n) n }

end Diagram

end SankeyDiagram
