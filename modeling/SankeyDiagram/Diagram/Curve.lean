import SankeyDiagram.Decimal.Style
import SankeyDiagram.Diagram.Basic

/-! # Curves

The lines that links are drawn along: cubic curves from the right edge of the source to the left
edge of the target, in the middle of the slots of the link, which leave and arrive horizontally.

## Main definitions

* **`Curve`** a cubic curve, and **`Curve.svg`** its path data.
* **`Bend`** how far along their way curves bend.
* **`Bend.curve`** the curve of a link.
-/

namespace SankeyDiagram

/-- A point of the drawing. -/
structure Point (α : Type) where
  /-- To the right. -/
  x : α
  /-- Downward. -/
  y : α
deriving DecidableEq, Repr

/-- A cubic curve. -/
structure Curve (α : Type) where
  /-- The point where the curve starts. -/
  start : Point α
  /-- The point toward which the curve leaves `start`. -/
  control1 : Point α
  /-- The point from which the curve arrives at `finish`. -/
  control2 : Point α
  /-- The point where the curve ends. -/
  finish : Point α
deriving DecidableEq, Repr

/-- A point in path data. -/
def Point.svg (p : Point Binary64) : String :=
  p.x.plainText ++ "," ++ p.y.plainText

/-- The path data of a curve. -/
def Curve.svg (c : Curve Binary64) : String :=
  "M" ++ c.start.svg ++ "C" ++ c.control1.svg ++ " " ++ c.control2.svg ++ " " ++ c.finish.svg

/-- How far along their way curves bend, as a fraction of it. -/
structure Bend (α : Type) where
  /-- The fraction. -/
  curvature : α
deriving DecidableEq, Repr

namespace Bend

variable {α : Type} [Scalar α]

/-- The fraction nearest to a curvature; one half for a curvature that is not even `≤` itself. -/
def ofCurvature (curvature : α) : Bend α :=
  ⟨if curvature < 0 then 0
    else if 1 < curvature then 1
    else if curvature ≤ curvature then curvature
    else 0.5⟩

/-- The scalar a part of the way from one to another. -/
def between (a b part : α) : α :=
  a + (b - a) * part

/-- The curve of a link. -/
def curve (bend : Bend α) (d : Diagram α) (l : Link α) : Curve α :=
  let left := (d.node l.source).right
  let right := (d.node l.target).x
  let top := (d.node l.source).y + l.sy + l.dy / ((2 : Nat) : α)
  let bottom := (d.node l.target).y + l.ty + l.dy / ((2 : Nat) : α)
  { start := ⟨left, top⟩
    control1 := ⟨between left right bend.curvature, top⟩
    control2 := ⟨between left right (1 - bend.curvature), bottom⟩
    finish := ⟨right, bottom⟩ }

/-- The curves of all links in their order. -/
def curves (bend : Bend α) (d : Diagram α) : List (Curve α) :=
  d.links.toList.map (bend.curve d)

end Bend

namespace Diagram

variable {α : Type}

/-- Whether the nodes exist that a link joins. -/
def hasEnds (d : Diagram α) (l : Link α) : Bool :=
  d.hasNode l.source && d.hasNode l.target

/-- Whether the nodes exist that all links join. -/
def hasAllEnds (d : Diagram α) : Bool :=
  d.links.all d.hasEnds

end Diagram

end SankeyDiagram
