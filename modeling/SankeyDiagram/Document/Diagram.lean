import SankeyDiagram.Diagram.Basic
import SankeyDiagram.Json.Basic
import SankeyDiagram.Json.Reader

/-! # Documents of diagrams

The written form of diagrams and all that they hold, and how it is read.

## Main definitions

* **`Diagram.write`**, **`Diagram.read`** diagrams.
* **`Node.write`**, **`Link.write`**, **`CircularLink.write`**, **`Warning.write`** and the readers
  beside them, for what diagrams hold.
-/

namespace SankeyDiagram

/-! ## Positions -/

namespace NodeId

/-- The document of the position of a node. -/
def write (id : NodeId) : Json :=
  .nat id.index

/-- Reads the position of a node. -/
def read (d : Draft) : Except Fault NodeId :=
  NodeId.mk <$> d.count

end NodeId

namespace LinkId

/-- The document of the position of a link. -/
def write (id : LinkId) : Json :=
  .nat id.index

/-- Reads the position of a link. -/
def read (d : Draft) : Except Fault LinkId :=
  LinkId.mk <$> d.count

end LinkId

/-! ## Nodes and links -/

namespace Node

/-- The document of a node. -/
def write (n : Node Binary64) : Json :=
  .object [("name", .text n.name), ("layer", .nat n.layer), ("x", .float n.x), ("dx", .float n.dx),
    ("y", .float n.y), ("dy", .float n.dy), ("value", .float n.value),
    ("source_links", .listOf LinkId.write n.outgoing),
    ("target_links", .listOf LinkId.write n.incoming)]

/-- The parts of a node in a document. -/
def record : Record (Node Binary64) where
  title := "struct Node"
  blank := .unplaced ""
  fields :=
    [.needed "name" Draft.string fun n name => { n with name },
      .needed "layer" Draft.count fun n layer => { n with layer },
      .needed "x" Draft.float fun n x => { n with x },
      .needed "dx" Draft.float fun n dx => { n with dx },
      .needed "y" Draft.float fun n y => { n with y },
      .needed "dy" Draft.float fun n dy => { n with dy },
      .needed "value" Draft.float fun n value => { n with value },
      .needed "source_links" (Draft.listOf LinkId.read) fun n outgoing => { n with outgoing },
      .needed "target_links" (Draft.listOf LinkId.read) fun n incoming => { n with incoming }]

/-- Reads a node. -/
def read (d : Draft) : Except Fault (Node Binary64) :=
  record.read d

end Node

namespace Link

/-- The document of a link. -/
def write (l : Link Binary64) : Json :=
  .object [("source", l.source.write), ("target", l.target.write), ("value", .float l.value),
    ("dy", .float l.dy), ("sy", .float l.sy), ("ty", .float l.ty), ("merged", .nat l.merged.toNat),
    ("input_index", .nat l.inputIndex)]

/-- The parts of a link in a document. -/
def record : Record (Link Binary64) where
  title := "struct Link"
  blank := .unplaced ⟨0⟩ ⟨0⟩ 0 0
  fields :=
    [.needed "source" NodeId.read fun l source => { l with source },
      .needed "target" NodeId.read fun l target => { l with target },
      .needed "value" Draft.float fun l value => { l with value },
      .needed "dy" Draft.float fun l dy => { l with dy },
      .needed "sy" Draft.float fun l sy => { l with sy },
      .needed "ty" Draft.float fun l ty => { l with ty },
      .needed "merged" Draft.count fun l merged => { l with merged := .ofNat merged },
      .needed "input_index" Draft.count fun l inputIndex => { l with inputIndex }]

/-- Reads a link. -/
def read (d : Draft) : Except Fault (Link Binary64) :=
  record.read d

end Link

namespace CircularLink

/-- The document of a flow that is left out. -/
def write (c : CircularLink Binary64) : Json :=
  .object [("source", c.source.write), ("target", c.target.write), ("value", .float c.value),
    ("input_index", .nat c.inputIndex)]

/-- The parts of a flow that is left out in a document. -/
def record : Record (CircularLink Binary64) where
  title := "struct CircularLink"
  blank := ⟨⟨0⟩, ⟨0⟩, 0, 0⟩
  fields :=
    [.needed "source" NodeId.read fun c source => { c with source },
      .needed "target" NodeId.read fun c target => { c with target },
      .needed "value" Draft.float fun c value => { c with value },
      .needed "input_index" Draft.count fun c inputIndex => { c with inputIndex }]

/-- Reads a flow that is left out. -/
def read (d : Draft) : Except Fault (CircularLink Binary64) :=
  record.read d

end CircularLink

/-! ## Warnings -/

namespace Warning

/-- The document of a warning. -/
def write : Warning Binary64 → Json
  | .layerOverflow layer required available =>
    .object [("kind", .text "layer_overflow"), ("layer", .nat layer),
      ("required", .float required), ("available", .float available)]

/-- The parts of a layer that is too high, besides the kind. -/
structure Overflow where
  /-- The position of the layer. -/
  layer : Nat
  /-- The height that it needs. -/
  required : Binary64
  /-- The height that there is. -/
  available : Binary64

/-- The parts of a layer that is too high in a document. -/
def record : Record Overflow where
  title := "struct variant LayoutWarning::LayerOverflow"
  blank := ⟨0, 0, 0⟩
  fields :=
    [.needed "layer" Draft.count fun o layer => { o with layer },
      .needed "required" Draft.float fun o required => { o with required },
      .needed "available" Draft.float fun o available => { o with available }]

/-- The warning of a layer that is too high. -/
def ofOverflow (o : Overflow) : Warning Binary64 :=
  .layerOverflow o.layer o.required o.available

/-- Reads the kind of a warning. -/
def readKind (d : Draft) : Except Fault Unit :=
  match d with
  | .text (some kind) =>
    if kind = "layer_overflow" then .ok ()
    else .error (.mismatch (.unknownVariant kind "layer_overflow"))
  | other => other.refuse "variant identifier"

/-- Reads the kind among members and needs all of the others, inside of `depth` lists and objects.
Gives the others back, and whether there was a kind. -/
def readTagged (depth : Nat) (hasKind : Bool) :
    List (Option String × Draft) → Except Fault (Bool × List (Option String × Draft))
  | [] => .ok (hasKind, [])
  | (none, _) :: _ => .error (.broken .malformed)
  | (some name, d) :: rest =>
    if name = "kind" then
      if hasKind then .error (.mismatch (.duplicateField "kind"))
      else do
        readKind d
        readTagged depth true rest
    else do
      d.needAll depth
      let (hasKind, others) ← readTagged depth hasKind rest
      return (hasKind, (some name, d) :: others)

/-- Reads a warning from the members of an object: the kind comes before all other parts, wherever
it stands. -/
def readObject (depth : Nat) (members : List (Option String × Draft)) (cut : Option Cut) :
    Except Fault (Warning Binary64) := do
  let (hasKind, others) ← readTagged depth false members
  Draft.needEnd cut
  if hasKind then ofOverflow <$> record.readObject others none
  else .error (.mismatch (.missingField "kind"))

/-- Reads a warning from the items of a list: the kind, then the other parts. -/
def readList (depth : Nat) (items : List Draft) (cut : Option Cut) :
    Except Fault (Warning Binary64) :=
  match items with
  | [] => do
    Draft.needEnd cut
    .error (.mismatch (.missingField "kind"))
  | kind :: others => do
    readKind kind
    others.forM (Draft.needAll depth)
    Draft.needEnd cut
    let (o, rest) ← Record.readItems record.sizedTitle none 0 record.blank record.fields others
    if rest.isEmpty then return ofOverflow o
    else .error (.mismatch (.wrongLength others.length "3 elements in sequence"))

/-- Reads a warning inside of `depth` lists and objects. -/
def read (depth : Nat) (d : Draft) : Except Fault (Warning Binary64) :=
  match d with
  | .object members cut => readObject (depth + 1) members cut
  | .list items cut => readList (depth + 1) items cut
  | other => other.refuse "internally tagged enum LayoutWarning"

end Warning

/-! ## Diagrams -/

namespace Diagram

/-- The document of a diagram. -/
def write (d : Diagram Binary64) : Json :=
  .object [("nodes", .listOf Node.write d.nodes.toList),
    ("links", .listOf Link.write d.links.toList),
    ("circular_links", .listOf CircularLink.write d.circularLinks),
    ("roots", .listOf NodeId.write d.roots), ("layer_count", .nat d.layerCount),
    ("warnings", .listOf Warning.write d.warnings)]

/-- The parts of a diagram in a document. -/
def record : Record (Diagram Binary64) where
  title := "struct SankeyGraph"
  blank := .empty
  fields :=
    [.needed "nodes" (Draft.listOf Node.read)
        fun d (nodes : List (Node Binary64)) => { d with nodes := nodes.toArray },
      .needed "links" (Draft.listOf Link.read)
        fun d (links : List (Link Binary64)) => { d with links := links.toArray },
      .needed "circular_links" (Draft.listOf CircularLink.read)
        fun d circularLinks => { d with circularLinks },
      .needed "roots" (Draft.listOf NodeId.read) fun d roots => { d with roots },
      .needed "layer_count" Draft.count fun d layerCount => { d with layerCount },
      .needed "warnings" (Draft.listOf (Warning.read 2)) fun d warnings => { d with warnings }]

/-- Reads a diagram. The positions that it holds may be any. -/
def read (d : Draft) : Except Fault (Diagram Binary64) :=
  record.read d

end Diagram

end SankeyDiagram
