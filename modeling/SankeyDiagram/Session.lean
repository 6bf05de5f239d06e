import SankeyDiagram.Layout

/-! # Sessions

A layout that is worked on: settings, names and flows, and the diagram that was laid out last, in
which nodes can be moved.

## Main definitions

* **`Session`** what is kept from one action to the next.
* **`Session.configure`**, **`Session.setFlows`**, **`Session.layout`**, **`Session.relayout`**,
  **`Session.moveNode`** the actions. One that can fail takes a session to the session that it
  leaves and to its answer, which is an error if it fails.
* **`Session.continued`** what a caller who stops at the first failure goes on with.
* **`Action`** an action as a value, and **`Session.perform`** what it does.
-/

namespace SankeyDiagram

/-- What is kept from one action to the next. -/
structure Session (α : Type) where
  /-- The settings. -/
  config : Config α
  /-- The names of the nodes. -/
  names : List String
  /-- The flows between the nodes. -/
  flows : List (Flow α)
  /-- The diagram that was laid out last, if it still belongs to the names and flows. -/
  diagram : Option (Diagram α)
deriving DecidableEq, Repr

variable {α : Type} [Scalar α]

namespace Session

/-- A session with some settings, without nodes. -/
def blank (config : Config α) : Session α :=
  ⟨config, [], [], none⟩

/-- A session with the settings of a layout for which none are given. -/
def standard : Session α :=
  blank .standard

/-- A new session, if nothing is wrong with its settings. -/
def start (config : Config α) : Except (LayoutError α) (Session α) :=
  match config.error? with
  | some e => .error (.config e)
  | none => .ok (blank config)

/-- Takes new values for some settings, if nothing is wrong with the settings then. -/
def configure (s : Session α) (o : Overrides α) : Session α × Except (LayoutError α) Unit :=
  match s.config.apply o with
  | .error e => (s, .error (.config e))
  | .ok config => ({ s with config }, .ok ())

/-- The session with other names and flows, which are not laid out yet. -/
def setFlows (s : Session α) (names : List String) (flows : List (Flow α)) : Session α :=
  { s with names, flows, diagram := none }

/-- Lays out the flows with a number of rounds. A layout that fails leaves no diagram behind. -/
def layout (s : Session α) (rounds : Nat) :
    Session α × Except (LayoutError α) (Diagram α) :=
  match Diagram.ofFlowsPlaced s.names s.flows s.config rounds with
  | .error e => ({ s with diagram := none }, .error (.flows e))
  | .ok d => ({ s with diagram := some d }, .ok d)

/-- Lays out the flows with as many rounds as the settings say. -/
def layoutConfigured (s : Session α) : Session α × Except (LayoutError α) (Diagram α) :=
  s.layout s.config.iterations

/-- Puts the links into order again, as after moves of nodes. The diagram is taken out for this, and
put back in order if there was one. -/
def relayout (s : Session α) : Session α × Except (LayoutError α) (Diagram α) :=
  match s.diagram with
  | none => ({ s with diagram := none }, .error .notLaidOut)
  | some d => ({ s with diagram := some d.withSlots }, .ok d.withSlots)

/-- Moves the upper edge of a node. -/
def moveNode (s : Session α) (id : NodeId) (y : α) :
    Session α × Except (LayoutError α) Unit :=
  match s.diagram with
  | none => (s, .error .notLaidOut)
  | some d =>
    if d.hasNode id then ({ s with diagram := some (d.setTop id y) }, .ok ())
    else (s, .error (.nodeNotFound id))

/-- The session to go on with after an action, for a caller who stops at the first failure. -/
def continued {β : Type} :
    Session α × Except (LayoutError α) β → Except (LayoutError α) (Session α)
  | (next, .ok _) => .ok next
  | (_, .error e) => .error e

/-- An action stands for the session to go on with where one is asked for. -/
instance {β : Type} :
    CoeOut (Session α × Except (LayoutError α) β) (Except (LayoutError α) (Session α)) :=
  ⟨continued⟩

end Session

/-! ## Actions as values -/

/-- An action. -/
inductive Action (α : Type) where
  /-- New values for some settings. -/
  | configure (overrides : Overrides α)
  /-- Other names and flows. -/
  | setFlows (names : List String) (flows : List (Flow α))
  /-- A layout with a number of rounds. -/
  | layout (rounds : Nat)
  /-- A layout with as many rounds as the settings say. -/
  | layoutConfigured
  /-- Links put into order again. -/
  | relayout
  /-- A node moved. -/
  | moveNode (id : NodeId) (y : α)
deriving DecidableEq, Repr

namespace Session

/-- The session that an action leaves, and how the action failed if it did. -/
def toOutcome {β : Type} :
    Session α × Except (LayoutError α) β → Session α × Option (LayoutError α)
  | (next, .ok _) => (next, none)
  | (next, .error e) => (next, some e)

/-- The session after an action, and how that failed if it did. -/
def perform (s : Session α) : Action α → Session α × Option (LayoutError α)
  | .configure overrides => toOutcome (s.configure overrides)
  | .setFlows names flows => (s.setFlows names flows, none)
  | .layout rounds => toOutcome (s.layout rounds)
  | .layoutConfigured => toOutcome s.layoutConfigured
  | .relayout => toOutcome s.relayout
  | .moveNode id y => toOutcome (s.moveNode id y)

/-- The session after some actions, failures included. -/
def performAll (s : Session α) (actions : List (Action α)) : Session α :=
  actions.foldl (fun s action => (s.perform action).1) s

/-- `s.performAll [] = s`: no actions leave the session as it is. -/
@[simp] theorem performAll_nil (s : Session α) : s.performAll [] = s := rfl

/-- `performAll` performs the first action, and then the others on what it leaves. -/
@[simp] theorem performAll_cons (s : Session α) (a : Action α) (actions : List (Action α)) :
    s.performAll (a :: actions) = (s.perform a).1.performAll actions := rfl

/-- `performAll` on `first ++ later` performs `later` on what `first` leaves. -/
@[simp] theorem performAll_append (s : Session α) (first later : List (Action α)) :
    s.performAll (first ++ later) = (s.performAll first).performAll later := by
  simp [performAll]

end Session

end SankeyDiagram
