import SankeyDiagram.Config
import SankeyDiagram.Diagram.Basic
import SankeyDiagram.Digest.Xxh64
import SankeyDiagram.Json.Basic
import SankeyDiagram.Quantum

/-! # Fingerprints

Digests of documents, diagrams and settings. What is digested is the compact text of a document in
which all coordinates are numbers of quanta.

## Main definitions

* **`Json.digest`** the digest of a document.
* **`Diagram.outline`**, **`Diagram.fingerprint`** what identifies the drawing of a diagram, and
  its digest.
* **`Config.outline`**, **`Config.fingerprint`** the same for settings.
-/

namespace SankeyDiagram

/-- The version of the written form of diagrams and settings. -/
def schemaVersion : String := "sankey_layout_v1"

/-- The digest of a text. -/
def textDigest (text : String) : UInt64 :=
  Xxh64.digest 0 text.toUTF8.toList

namespace Json

/-- The digest of a document. -/
def digest (value : Json) : UInt64 :=
  textDigest value.compact

/-- The digest of a document in hexadecimal digits. -/
def hexDigest (value : Json) : String :=
  Xxh64.hexText value.digest

/-- The document of a table whose keys are lists; only an empty one can be written. -/
def ofTable? (table : List (List Int × Int)) : Option Json :=
  if table.isEmpty then some (.object []) else none

/-- The compact text of a document, and no text for one that cannot be written. -/
def compactOrNone (value : Option Json) : String :=
  value.elim "" compact

end Json

variable {α : Type}

namespace Node

/-- The place and the value of a node in quanta. -/
def outline (quantize : α → Int) (n : Node α) : Json :=
  .object [("x", .int (quantize n.x)), ("dx", .int (quantize n.dx)), ("y", .int (quantize n.y)),
    ("dy", .int (quantize n.dy)), ("value", .int (quantize n.value))]

end Node

namespace Link

/-- The ends and the slots of a link in quanta. -/
def outline (quantize : α → Int) (l : Link α) : Json :=
  .object [("source", .nat l.source.index), ("target", .nat l.target.index),
    ("dy", .int (quantize l.dy)), ("sy", .int (quantize l.sy)), ("ty", .int (quantize l.ty))]

end Link

namespace Diagram

/-- What identifies the drawing of a diagram. -/
def outline (quantize : α → Int) (d : Diagram α) : Json :=
  .list [.text schemaVersion, .listOf (Node.outline quantize) d.nodes.toList,
    .listOf (Link.outline quantize) d.links.toList]

/-- The digest of what identifies the drawing of a diagram. -/
def fingerprint (d : Diagram Binary64) : String :=
  (d.outline Quantum.ofBinary64).hexDigest

end Diagram

namespace Config

/-- What identifies settings. -/
def outline (quantize : α → Int) (c : Config α) : Json :=
  .object [("version", .text schemaVersion), ("width", .int (quantize c.width)),
    ("height", .int (quantize c.height)), ("node_width", .int (quantize c.nodeWidth)),
    ("node_padding", .int (quantize c.nodePadding)), ("iterations", .nat c.iterations),
    ("curvature", .int (quantize c.curvature))]

/-- The digest of what identifies settings. -/
def fingerprint (c : Config Binary64) : String :=
  (c.outline Quantum.ofBinary64).hexDigest

end Config

end SankeyDiagram
