import SankeyDiagram.Scalar

/-! # Configuration

The settings of a layout.

## Main definitions

* **`Config`** the settings.
* **`ConfigError`** what can be wrong with them, and **`Config.error?`** the first thing that is.
* **`Overrides`** new values for some of the settings.
* **`Config.overridden`** the settings with overrides put in, and **`Config.apply`** the same if
  nothing is wrong with the result.
-/

namespace SankeyDiagram

/-- The settings of a layout. -/
structure Config (α : Type) where
  /-- The width that the layers are spread over. -/
  width : α
  /-- The height that the nodes have to fit in. -/
  height : α
  /-- The width of every node. -/
  nodeWidth : α
  /-- The least gap between two nodes of a layer. -/
  nodePadding : α
  /-- The number of relaxation rounds. -/
  iterations : Nat
  /-- How far along their way bands bend, as a fraction of it. -/
  curvature : α
deriving DecidableEq, Repr

/-- The lengths among the settings, in the order in which they are examined. -/
inductive Dimension where
  /-- The width of the layout. -/
  | width
  /-- The height of the layout. -/
  | height
  /-- The width of nodes. -/
  | nodeWidth
  /-- The gap between nodes. -/
  | nodePadding
deriving DecidableEq, Repr

namespace Dimension

/-- All lengths in order. -/
def all : List Dimension := [.width, .height, .nodeWidth, .nodePadding]

/-- What messages call a length. -/
def label : Dimension → String
  | .width => "width"
  | .height => "height"
  | .nodeWidth => "node_width"
  | .nodePadding => "node_padding"

end Dimension

/-- What can be wrong with settings. -/
inductive ConfigError (α : Type) where
  /-- A length is not an ordinary number. -/
  | nonFinite (field : Dimension) (value : α)
  /-- A length is below zero. -/
  | negative (field : Dimension) (value : α)
  /-- Nodes leave no room between the layers. -/
  | nodeWiderThanLayout (nodeWidth width : α)
  /-- The curvature is no fraction. -/
  | curvatureOutOfRange (value : α)
deriving DecidableEq, Repr

/-- New values for some of the settings. -/
structure Overrides (α : Type) where
  /-- The width of the layout. -/
  width : Option α
  /-- The width of nodes. -/
  nodeWidth : Option α
  /-- The gap between nodes. -/
  nodePadding : Option α
  /-- Width and height of the layout. -/
  size : Option (α × α)
  /-- The number of relaxation rounds. -/
  iterations : Option Nat
  /-- The curvature of bands. -/
  curvature : Option α
deriving DecidableEq, Repr

namespace Overrides

variable {α : Type}

/-- No new values. -/
def none : Overrides α := ⟨.none, .none, .none, .none, .none, .none⟩

/-- Whether there are no new values. -/
def isEmpty (o : Overrides α) : Bool :=
  o.width.isNone && o.nodeWidth.isNone && o.nodePadding.isNone && o.size.isNone
    && o.iterations.isNone && o.curvature.isNone

/-- `Overrides.none` gives no value. -/
@[simp] theorem isEmpty_none : (none : Overrides α).isEmpty := rfl

end Overrides

namespace Config

variable {α : Type}

/-- Width and height of the layout. -/
def size (c : Config α) : α × α := (c.width, c.height)

/-- The value of a length. -/
def dimension (c : Config α) : Dimension → α
  | .width => c.width
  | .height => c.height
  | .nodeWidth => c.nodeWidth
  | .nodePadding => c.nodePadding

/-- The settings with another width and height of the layout. -/
def withSize (c : Config α) (size : α × α) : Config α :=
  { c with width := size.1, height := size.2 }

/-- The settings with another width of nodes. -/
def withNodeWidth (c : Config α) (nodeWidth : α) : Config α := { c with nodeWidth }

/-- The settings with another gap between nodes. -/
def withNodePadding (c : Config α) (nodePadding : α) : Config α := { c with nodePadding }

/-- The settings with another number of relaxation rounds. -/
def withIterations (c : Config α) (iterations : Nat) : Config α := { c with iterations }

/-- The settings with new values put in; a width of its own goes before that of a size. -/
def overridden (c : Config α) (o : Overrides α) : Config α where
  width := o.width.getD ((o.size.map Prod.fst).getD c.width)
  height := (o.size.map Prod.snd).getD c.height
  nodeWidth := o.nodeWidth.getD c.nodeWidth
  nodePadding := o.nodePadding.getD c.nodePadding
  iterations := o.iterations.getD c.iterations
  curvature := o.curvature.getD c.curvature

/-- `c.overridden .none = c`: without new values the settings stay as they are. -/
@[simp] theorem overridden_none (c : Config α) : c.overridden .none = c := rfl

variable [Scalar α]

/-- The settings of a layout for which none are given. -/
def standard : Config α where
  width := ((500 : Nat) : α)
  height := ((500 : Nat) : α)
  nodeWidth := ((24 : Nat) : α)
  nodePadding := ((12 : Nat) : α)
  iterations := 32
  curvature := 0.5

/-- What is wrong with one of the lengths. -/
def dimensionError? (c : Config α) (field : Dimension) : Option (ConfigError α) :=
  if !Scalar.isFinite (c.dimension field) then some (.nonFinite field (c.dimension field))
  else if c.dimension field < 0 then some (.negative field (c.dimension field))
  else none

/-- The first thing that is wrong with the settings: the lengths are examined one by one, then
the width of nodes against that of the layout, then the curvature. -/
def error? (c : Config α) : Option (ConfigError α) :=
  match Dimension.all.findSome? c.dimensionError? with
  | some e => some e
  | none =>
    if c.width ≤ c.nodeWidth then some (.nodeWiderThanLayout c.nodeWidth c.width)
    else if 0 ≤ c.curvature ∧ c.curvature ≤ 1 then none
    else some (.curvatureOutOfRange c.curvature)

/-- The settings with new values put in, if nothing is wrong with them then. -/
def apply (c : Config α) (o : Overrides α) : Except (ConfigError α) (Config α) :=
  match (c.overridden o).error? with
  | some e => .error e
  | none => .ok (c.overridden o)

end Config

end SankeyDiagram
