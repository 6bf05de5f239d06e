import SankeyDiagram.Config
import SankeyDiagram.Diagram.Side

/-! # Sizing

The heights of nodes and links. One scale turns flow into height everywhere, so chosen that the
fullest layer leaves a little of its free height empty.

## Main definitions

* **`Diagram.layerScale?`** the scale that a layer allows.
* **`Diagram.scale`** the scale that all layers allow.
* **`Diagram.requiredHeight`** the height that the nodes of a layer take up with their gaps.
* **`Diagram.withSizes`** the diagram with heights, and with a warning for each layer that is too
  high.
-/

namespace SankeyDiagram

namespace Diagram

variable {α : Type} [Scalar α]

/-! ## The scale -/

/-- The part of the free height that the fullest layer takes up. -/
def fullness : α := 0.95

/-- The greatest value of a node in a layer, and at least zero. -/
def peak (d : Diagram α) (layer : List NodeId) : α :=
  (layer.map fun id => (d.node id).value).foldl Scalar.larger 0

/-- The height that the gaps between the nodes of a layer take up. -/
def gaps (config : Config α) (layer : List NodeId) : α :=
  ((layer.length - 1 : Nat) : α) * config.nodePadding

/-- The scale that a layer allows, if flow passes through it. Its total is taken relative to its
greatest value, so that it stays in the range of ordinary numbers. -/
def layerScale? (d : Diagram α) (config : Config α) (layer : List NodeId) : Option α :=
  let peak := d.peak layer
  if peak ≤ 0 then none
  else
    let relative := Scalar.sum (layer.map fun id => (d.node id).value / peak)
    some ((config.height - gaps config layer) / peak / relative * fullness)

/-- The smallest of some scalars. -/
def smallest? : List α → Option α
  | [] => none
  | x :: xs => some (xs.foldl Scalar.smaller x)

/-- The scale that all layers with flow allow, and at least zero. -/
def scale (d : Diagram α) (config : Config α) : α :=
  Scalar.larger ((smallest? (d.layers.filterMap (d.layerScale? config))).getD 0) 0

/-! ## Heights -/

/-- How many nodes of its layer come before a node. -/
def rank (d : Diagram α) (id : NodeId) : Nat :=
  (d.layer (d.node id).layer).idxOf id

/-- The diagram with heights by a scale; the nodes of each layer stand one unit apart, in order. -/
def scaled (d : Diagram α) (scale : α) : Diagram α :=
  { d with
    nodes := d.nodes.mapIdx fun i n =>
      { n with y := (d.rank ⟨i⟩ : α), dy := n.value * scale }
    links := d.links.map fun l => { l with dy := l.value * scale } }

/-- The height that the nodes of a layer take up with their gaps. -/
def requiredHeight (d : Diagram α) (config : Config α) (layer : List NodeId) : α :=
  Scalar.sum (layer.map fun id => (d.node id).dy) + gaps config layer

/-- The warning for a layer at a position, if it is too high. -/
def layerWarning? (d : Diagram α) (config : Config α) (layer : List NodeId) (position : Nat) :
    Option (Warning α) :=
  let required := d.requiredHeight config layer
  if config.height + tolerance < required then
    some (.layerOverflow position required config.height)
  else none

/-- The warnings for all layers, from the left. -/
def layerWarnings (d : Diagram α) (config : Config α) : List (Warning α) :=
  d.layers.zipIdx.filterMap fun (layer, position) => d.layerWarning? config layer position

/-- The diagram with heights, and with a warning for each layer that is too high. -/
def withSizes (d : Diagram α) (config : Config α) : Diagram α :=
  let sized := d.scaled (d.scale config)
  { sized with warnings := sized.layerWarnings config }

end Diagram

end SankeyDiagram
