import SankeyDiagram.Document.Settings
import SankeyDiagram.Flow

/-! # Documents of requests

What is asked for in a document: names, flows and overrides.

## Main definitions

* **`Request`** a whole request, with **`Request.write`** and **`Request.read`**.
* **`Endpoint.write`**, **`Endpoint.read`** endpoints: numbers are positions and strings are names.
* **`Flow.write`**, **`Flow.read`** flows.
* **`NodeName.write`**, **`NodeName.read`** names of nodes.
-/

namespace SankeyDiagram

/-- What is asked for. -/
structure Request where
  /-- The names of the nodes. -/
  names : List String
  /-- The flows between them. -/
  flows : List (Flow Binary64)
  /-- New values for some settings. -/
  overrides : Overrides Binary64
deriving DecidableEq, Repr

/-! ## Names -/

namespace NodeName

/-- The document of the name of a node. -/
def write (name : String) : Json :=
  .object [("name", .text name)]

/-- The parts of a node in a request. -/
def record : Record String where
  title := "struct NodeInput"
  blank := ""
  fields := [.needed "name" Draft.string fun _ name => name]

/-- Reads the name of a node. -/
def read (d : Draft) : Except Fault String :=
  record.read d

end NodeName

/-! ## Flows -/

namespace Endpoint

/-- The document of an endpoint. -/
def write : Endpoint → Json
  | .position index => .nat index
  | .named name => .text name

/-- The endpoint that a draft without faults stands for. -/
def ofDraft? : Draft → Option Endpoint
  | .number n =>
    match n.numeral? with
    | some (.int i) => if i < 0 then none else some (.position i.toNat)
    | _ => none
  | .text (some s) => some (.named s)
  | _ => none

/-- Reads an endpoint inside of `depth` lists and objects. Its alternatives are tried on the whole
value, so that a fault inside of it comes first. -/
def read (depth : Nat) (d : Draft) : Except Fault Endpoint := do
  d.needAll depth
  match ofDraft? d with
  | some endpoint => return endpoint
  | none => .error (.mismatch (.noVariant "Endpoint"))

end Endpoint

namespace Flow

/-- The document of a flow. -/
def write (flow : Flow Binary64) : Json :=
  .object [("source", flow.source.write), ("target", flow.target.write),
    ("value", .float flow.value)]

/-- The parts of a flow in a document, inside of `depth` lists and objects. -/
def record (depth : Nat) : Record (Flow Binary64) where
  title := "struct LinkInput"
  blank := ⟨.position 0, .position 0, 0⟩
  fields :=
    [.needed "source" (Endpoint.read (depth + 1)) fun flow source => { flow with source },
      .needed "target" (Endpoint.read (depth + 1)) fun flow target => { flow with target },
      .needed "value" Draft.float fun flow value => { flow with value }]

/-- Reads a flow inside of `depth` lists and objects. -/
def read (depth : Nat) (d : Draft) : Except Fault (Flow Binary64) :=
  (record depth).read d

end Flow

/-! ## Requests -/

namespace Request

/-- The document of a request. -/
def write (r : Request) : Json :=
  .object [("nodes", .listOf NodeName.write r.names), ("links", .listOf Flow.write r.flows),
    ("options", r.overrides.write)]

/-- The parts of a request in a document. -/
def record : Record Request where
  title := "struct GraphInput"
  blank := ⟨[], [], .none⟩
  fields :=
    [.needed "nodes" (Draft.listOf NodeName.read) fun r names => { r with names },
      .needed "links" (Draft.listOf (Flow.read 2)) fun r flows => { r with flows },
      .spare "options" Overrides.read fun r overrides => { r with overrides }]

/-- Reads a request. -/
def read (d : Draft) : Except Fault Request :=
  record.read d

end Request

end SankeyDiagram
