import SankeyDiagram.Diagram.Curve
import SankeyDiagram.Json.Basic
import SankeyDiagram.Json.Reader

/-! # Documents of drawings

The written forms of points, curves and bends, and how they are read.

## Main definitions

* **`Point.write`**, **`Point.read`**, **`Curve.write`**, **`Curve.read`**, **`Bend.write`**,
  **`Bend.read`** the forms of the three.
-/

namespace SankeyDiagram

namespace Point

/-- The document of a point. -/
def write (p : Point Binary64) : Json :=
  .object [("x", .float p.x), ("y", .float p.y)]

/-- The parts of a point in a document. -/
def record : Record (Point Binary64) where
  title := "struct Point"
  blank := ⟨0, 0⟩
  fields :=
    [.needed "x" Draft.float fun p x => { p with x },
      .needed "y" Draft.float fun p y => { p with y }]

/-- Reads a point. -/
def read (d : Draft) : Except Fault (Point Binary64) :=
  record.read d

end Point

namespace Curve

/-- The document of a curve. -/
def write (c : Curve Binary64) : Json :=
  .object [("start", c.start.write), ("control1", c.control1.write),
    ("control2", c.control2.write), ("end", c.finish.write)]

/-- The parts of a curve in a document. -/
def record : Record (Curve Binary64) where
  title := "struct PathDescriptor"
  blank := ⟨⟨0, 0⟩, ⟨0, 0⟩, ⟨0, 0⟩, ⟨0, 0⟩⟩
  fields :=
    [.needed "start" Point.read fun c start => { c with start },
      .needed "control1" Point.read fun c control1 => { c with control1 },
      .needed "control2" Point.read fun c control2 => { c with control2 },
      .needed "end" Point.read fun c finish => { c with finish }]

/-- Reads a curve. -/
def read (d : Draft) : Except Fault (Curve Binary64) :=
  record.read d

end Curve

namespace Bend

/-- The document of a bend. -/
def write (b : Bend Binary64) : Json :=
  .object [("curvature", .float b.curvature)]

/-- The parts of a bend in a document. -/
def record : Record (Bend Binary64) where
  title := "struct LinkPath"
  blank := ⟨0⟩
  fields := [.needed "curvature" Draft.float fun b curvature => { b with curvature }]

/-- Reads a bend; its curvature may be any number. -/
def read (d : Draft) : Except Fault (Bend Binary64) :=
  record.read d

end Bend

end SankeyDiagram
