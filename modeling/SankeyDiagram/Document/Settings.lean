import SankeyDiagram.Config
import SankeyDiagram.Json.Basic
import SankeyDiagram.Json.Reader

/-! # Documents of settings

The written form of settings and of overrides, and how they are read.

## Main definitions

* **`Config.write`**, **`Config.read`** settings; nothing is examined when they are read.
* **`Overrides.write`**, **`Overrides.read`** overrides; those that are not set are written as no
  value, and may be left out.
-/

namespace SankeyDiagram

namespace Config

/-- The document of settings. -/
def write (c : Config Binary64) : Json :=
  .object [("width", .float c.width), ("height", .float c.height),
    ("node_width", .float c.nodeWidth), ("node_padding", .float c.nodePadding),
    ("iterations", .nat c.iterations), ("curvature", .float c.curvature)]

/-- The parts of settings in a document. -/
def record : Record (Config Binary64) where
  title := "struct LayoutConfig"
  blank := .standard
  fields :=
    [.needed "width" Draft.float fun c width => { c with width },
      .needed "height" Draft.float fun c height => { c with height },
      .needed "node_width" Draft.float fun c nodeWidth => { c with nodeWidth },
      .needed "node_padding" Draft.float fun c nodePadding => { c with nodePadding },
      .needed "iterations" Draft.count fun c iterations => { c with iterations },
      .needed "curvature" Draft.float fun c curvature => { c with curvature }]

/-- Reads settings. -/
def read (d : Draft) : Except Fault (Config Binary64) :=
  record.read d

end Config

namespace Overrides

/-- The document of a width and a height. -/
def writeSize (size : Binary64 × Binary64) : Json :=
  .list [.float size.1, .float size.2]

/-- The document of overrides. -/
def write (o : Overrides Binary64) : Json :=
  .object [("width", .option .float o.width), ("nodeWidth", .option .float o.nodeWidth),
    ("nodePadding", .option .float o.nodePadding), ("size", .option writeSize o.size),
    ("iterations", .option .nat o.iterations), ("curvature", .option .float o.curvature)]

/-- The parts of overrides in a document. -/
def record : Record (Overrides Binary64) where
  title := "struct LayoutOptions"
  blank := .none
  fields :=
    [.spare "width" (Draft.optional Draft.float) fun o width => { o with width },
      .spare "nodeWidth" (Draft.optional Draft.float) fun o nodeWidth => { o with nodeWidth },
      .spare "nodePadding" (Draft.optional Draft.float) fun o nodePadding => { o with nodePadding },
      .spare "size" (Draft.optional (Draft.pairOf Draft.float)) fun o size => { o with size },
      .spare "iterations" (Draft.optional Draft.count) fun o iterations => { o with iterations },
      .spare "curvature" (Draft.optional Draft.float) fun o curvature => { o with curvature }]

/-- Reads overrides. -/
def read (d : Draft) : Except Fault (Overrides Binary64) :=
  record.read d

end Overrides

end SankeyDiagram
