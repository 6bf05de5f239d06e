import Mathlib.Data.List.Induction
import SankeyDiagram.Proofs.Settings
import SankeyDiagram.Session

/-! # Histories of sessions

What a session holds after some actions, failed ones among them.

* **`Session.Effect`** all that an action can do; **`Session.perform_effect`** what it does is one
  of these.
* **`Session.performAll_names_flows`** names and flows are those that were given last;
  **`Session.performAll_config`** settings are those that overrides were put into.
* **`Session.performAll_shows`** what layouts bring about and edits keep is shown by any diagram of
  a session.
* **`Session.LaidOutSince`** a layout succeeded, and the flows are still those that it laid out.
* **`Session.performAll_layout`** a layout in a session is that of a caller who has none.
* **`Session.performAll_lifecycle`** what a failure leaves behind, and when there is a diagram. -/

namespace SankeyDiagram

variable {α : Type}

/-! ## Kinds of actions -/

namespace Action

/-- Whether an action lays out the flows. -/
def isLayout : Action α → Bool
  | .layout _ | .layoutConfigured => true
  | _ => false

/-- Whether an action works on the diagram that there is. -/
def isEdit : Action α → Bool
  | .relayout | .moveNode .. => true
  | _ => false

/-- The names and flows that an action gives. -/
def given? : Action α → Option (List String × List (Flow α))
  | .setFlows names flows => some (names, flows)
  | _ => none

/-- The new values for settings that an action brings. -/
def overrides? : Action α → Option (Overrides α)
  | .configure overrides => some overrides
  | _ => none

variable {a : Action α}

/-- A layout gives no names and flows. -/
theorem given?_of_isLayout (h : a.isLayout) : a.given? = none := by
  cases a with
  | layout | layoutConfigured => rfl
  | configure | setFlows | relayout | moveNode => cases h

/-- A layout brings no new values for settings. -/
theorem overrides?_of_isLayout (h : a.isLayout) : a.overrides? = none := by
  cases a with
  | layout | layoutConfigured => rfl
  | configure | setFlows | relayout | moveNode => cases h

/-- An edit is no layout. -/
theorem not_isLayout_of_isEdit (h : a.isEdit) : ¬ a.isLayout := by
  cases a with
  | relayout | moveNode => exact Bool.false_ne_true
  | configure | setFlows | layout | layoutConfigured => cases h

end Action

/-- The names and flows that some actions gave last, none if they gave none. -/
def lastGiven (actions : List (Action α)) : List String × List (Flow α) :=
  (actions.reverse.findSome? Action.given?).getD ([], [])

variable [Scalar α]

/-- The settings with new values put in, or as they are if something would be wrong with them. -/
def Config.afterOverrides (c : Config α) (o : Overrides α) : Config α :=
  match c.apply o with
  | .ok next => next
  | .error _ => c

/-- The settings after some actions. Only new values for settings change them. -/
def Config.afterActions (c : Config α) (actions : List (Action α)) : Config α :=
  (actions.filterMap Action.overrides?).foldl Config.afterOverrides c

namespace Session

/-! ## What an action does -/

/-- The number of rounds of a layout: its own if it has one, and otherwise that of the settings. -/
def roundsOf (s : Session α) : Action α → Nat
  | .layout rounds => rounds
  | _ => s.config.iterations

/-- An action takes a session to another, and fails or does not. -/
inductive Effect (s : Session α) : Action α → Session α → Option (LayoutError α) → Prop where
  /-- Settings are accepted. -/
  | configured {overrides : Overrides α} {config : Config α}
      (h : s.config.apply overrides = .ok config) :
      Effect s (.configure overrides) { s with config } none
  /-- Settings are refused. -/
  | misconfigured {overrides : Overrides α} {reason : ConfigError α}
      (h : s.config.apply overrides = .error reason) :
      Effect s (.configure overrides) s (some (.config reason))
  /-- Names and flows are replaced, and the diagram of those before is dropped. -/
  | given (names : List String) (flows : List (Flow α)) :
      Effect s (.setFlows names flows) { s with names, flows, diagram := none } none
  /-- The flows are laid out. -/
  | laidOut {a : Action α} {d : Diagram α} (ha : a.isLayout)
      (h : Diagram.ofFlows s.names s.flows = .ok d) :
      Effect s a { s with diagram := some (d.placed s.config (s.roundsOf a)) } none
  /-- The flows make no diagram. -/
  | notLaidOut {a : Action α} {reason : FlowError α} (ha : a.isLayout)
      (h : Diagram.ofFlows s.names s.flows = .error reason) :
      Effect s a { s with diagram := none } (some (.flows reason))
  /-- Links are put into order again. -/
  | restacked {d : Diagram α} (h : s.diagram = some d) :
      Effect s .relayout { s with diagram := some d.withSlots } none
  /-- A node is moved. -/
  | moved {d : Diagram α} {id : NodeId} (y : α) (h : s.diagram = some d) (hid : d.hasNode id) :
      Effect s (.moveNode id y) { s with diagram := some (d.setTop id y) } none
  /-- A move names no node of the diagram. -/
  | noNode {d : Diagram α} {id : NodeId} (y : α) (h : s.diagram = some d) (hid : ¬ d.hasNode id) :
      Effect s (.moveNode id y) s (some (.nodeNotFound id))
  /-- A session without a diagram has no links to put into order. -/
  | noneToRestack (h : s.diagram = none) : Effect s .relayout s (some .notLaidOut)
  /-- A session without a diagram has no nodes to move. -/
  | noneToMove (id : NodeId) (y : α) (h : s.diagram = none) :
      Effect s (.moveNode id y) s (some .notLaidOut)

/-- `s.layout rounds` places the diagram of `ofFlows`, holds it and returns it. -/
theorem layout_of_ofFlows {s : Session α} {first : Diagram α}
    (h : Diagram.ofFlows s.names s.flows = .ok first) (rounds : Nat) :
    s.layout rounds = ({ s with diagram := some (first.placed s.config rounds) },
      .ok (first.placed s.config rounds)) := by
  rw [layout, Diagram.ofFlowsPlaced, h]
  rfl

/-- A layout that succeeds holds the diagram that it returns, which is that of `ofFlows` after
`placed`. -/
theorem exists_of_layout {s laid : Session α} {rounds : Nat} {d : Diagram α}
    (h : s.layout rounds = (laid, .ok d)) :
    ∃ first, Diagram.ofFlows s.names s.flows = .ok first ∧ d = first.placed s.config rounds ∧
      laid.diagram = some d := by
  cases hfirst : Diagram.ofFlows s.names s.flows with
  | error reason =>
    rw [layout, Diagram.ofFlowsPlaced, hfirst] at h
    cases h
  | ok first =>
    rw [layout_of_ofFlows hfirst] at h
    cases h
    exact ⟨first, rfl, rfl, rfl⟩

/-- A layout has one of the effects `laidOut` and `notLaidOut`, as `ofFlows` succeeds or fails. -/
theorem layout_effect (s : Session α) {a : Action α} (ha : a.isLayout) :
    s.Effect a (toOutcome (s.layout (s.roundsOf a))).1
      (toOutcome (s.layout (s.roundsOf a))).2 := by
  rw [layout, Diagram.ofFlowsPlaced]
  cases h : Diagram.ofFlows s.names s.flows with
  | error reason => exact .notLaidOut ha h
  | ok d => exact .laidOut ha h

/-! ## Actions that fail -/

section

variable {s next : Session α} {e : LayoutError α}

/-- Settings that `Config.apply` refuses leave the session as it is. -/
theorem configure_of_error {overrides : Overrides α}
    (h : s.configure overrides = (next, .error e)) : next = s := by
  unfold configure at h
  split at h
  · exact (Prod.mk.inj h).1.symm
  · cases h

/-- `relayout` fails only where `s.diagram = none`, so that taking the diagram out takes nothing. -/
theorem relayout_of_error (h : s.relayout = (next, .error e)) : next = s := by
  unfold relayout at h
  split at h
  case h_1 hd =>
    rw [← (Prod.mk.inj h).1, ← hd]
  case h_2 => cases h

omit [Scalar α] in
/-- `moveNode` changes nothing where there is no diagram or the diagram has no such node. -/
theorem moveNode_of_error {id : NodeId} {y : α}
    (h : s.moveNode id y = (next, .error e)) : next = s := by
  unfold moveNode at h
  split at h
  · exact (Prod.mk.inj h).1.symm
  · split at h
    · cases h
    · exact (Prod.mk.inj h).1.symm

end

/-! ## Effects of actions -/

/-- **What `s.perform a` does is one of the effects of `a` on `s`.** -/
theorem perform_effect (s : Session α) (a : Action α) :
    s.Effect a (s.perform a).1 (s.perform a).2 := by
  cases a with
  | configure overrides =>
    rw [perform, configure]
    cases h : s.config.apply overrides with
    | error reason => exact .misconfigured h
    | ok config => exact .configured h
  | setFlows names flows => exact .given names flows
  | layout rounds => exact s.layout_effect rfl
  | layoutConfigured => exact s.layout_effect rfl
  | relayout =>
    rw [perform, relayout]
    cases h : s.diagram with
    | none =>
      -- the diagram that is taken out is none
      have hself : { s with diagram := none } = s := by rw [← h]
      simp only [toOutcome, hself]
      exact .noneToRestack h
    | some d => exact .restacked h
  | moveNode id y =>
    rw [perform, moveNode]
    cases h : s.diagram with
    | none => exact .noneToMove id y h
    | some d =>
      by_cases hid : d.hasNode id
      · simp only [if_pos hid]
        exact .moved y h hid
      · simp only [if_neg hid]
        exact .noNode y h hid

variable {s next s₀ : Session α} {a : Action α} {actions : List (Action α)}
  {outcome : Option (LayoutError α)} {P : List String → List (Flow α) → Diagram α → Prop}

/-- The diagram of a session, if it has one, has a property in view of its names and flows. -/
def Shows (s : Session α) (P : List String → List (Flow α) → Diagram α → Prop) : Prop :=
  ∀ d, s.diagram = some d → P s.names s.flows d

/-- A property of diagrams that layouts bring about, and that stacking and moving keep. -/
structure Kept (P : List String → List (Flow α) → Diagram α → Prop) : Prop where
  /-- A layout of a diagram of `ofFlows` has `P`. -/
  placed : ∀ names flows d config rounds, Diagram.ofFlows names flows = .ok d →
    P names flows (d.placed config rounds)
  /-- `withSlots` keeps `P`. -/
  withSlots : ∀ names flows d, P names flows d → P names flows d.withSlots
  /-- `setTop` keeps `P`. -/
  setTop : ∀ names flows d id y, P names flows d → P names flows (d.setTop id y)

namespace Effect

/-- The names and flows after an action are those that it gives, or as before. -/
theorem names_flows (h : s.Effect a next outcome) :
    (next.names, next.flows) = a.given?.getD (s.names, s.flows) := by
  cases h with
  | given names flows => rfl
  | configured | misconfigured | restacked | moved | noNode | noneToRestack | noneToMove => rfl
  | laidOut ha | notLaidOut ha =>
    rw [Action.given?_of_isLayout ha]
    rfl

/-- The settings after an action are those with its overrides put in, or as before. -/
theorem config_eq (h : s.Effect a next outcome) :
    next.config = (a.overrides?.map s.config.afterOverrides).getD s.config := by
  cases h with
  | configured h | misconfigured h =>
    simp only [Action.overrides?, Option.map_some, Option.getD_some, Config.afterOverrides, h]
  | given | restacked | moved | noNode | noneToRestack | noneToMove => rfl
  | laidOut ha | notLaidOut ha =>
    rw [Action.overrides?_of_isLayout ha]
    rfl

/-- No action makes settings wrong that nothing was wrong with. -/
theorem error?_config (h : s.Effect a next outcome) (hs : s.config.error? = none) :
    next.config.error? = none := by
  cases h with
  | configured h => exact Config.error?_of_apply h
  | misconfigured | given | laidOut | notLaidOut | restacked | moved | noNode | noneToRestack
  | noneToMove => exact hs

/-- An action that fails leaves the session as it is, but that a layout leaves no diagram. -/
theorem eq_of_failure {e : LayoutError α} (h : s.Effect a next (some e)) :
    next = if a.isLayout then { s with diagram := none } else s := by
  cases h with
  | misconfigured | noNode | noneToRestack | noneToMove => rfl
  | notLaidOut ha => rw [if_pos ha]

/-- `Shows P` is kept by every effect, where layouts bring `P` about and edits keep it. -/
theorem shows (hP : Kept P) (h : s.Effect a next outcome) (hs : s.Shows P) : next.Shows P := by
  intro d hd
  cases h with
  | configured | misconfigured | noNode | noneToRestack | noneToMove => exact hs d hd
  | given | notLaidOut => cases hd
  | laidOut ha h =>
    rw [← Option.some.inj hd]
    exact hP.placed _ _ _ _ _ h
  | restacked h =>
    rw [← Option.some.inj hd]
    exact hP.withSlots _ _ _ (hs _ h)
  | moved y h =>
    rw [← Option.some.inj hd]
    exact hP.setTop _ _ _ _ _ (hs _ h)

/-- An edit keeps that there is a diagram. -/
theorem isSome_of_isEdit (ha : a.isEdit) (h : s.Effect a next outcome)
    (hs : s.diagram.isSome) : next.diagram.isSome := by
  cases h with
  | configured | misconfigured | given => cases ha
  | notLaidOut hlayout => exact absurd hlayout (Action.not_isLayout_of_isEdit ha)
  | laidOut | restacked | moved => rfl
  | noNode | noneToRestack | noneToMove => exact hs

end Effect

/-! ## What some actions do -/

/-- `performAll` performs the last action on what those before it leave. -/
theorem performAll_append_singleton (s : Session α) (actions : List (Action α)) (a : Action α) :
    s.performAll (actions ++ [a]) = ((s.performAll actions).perform a).1 := by
  rw [performAll_append, performAll_cons, performAll_nil]

/-- What the effects of `actions` keep, one by one, `performAll` keeps. -/
theorem performAll_invariant {Inv : Session α → Prop}
    (hstep : ∀ a ∈ actions, ∀ {s next outcome}, Effect s a next outcome → Inv s → Inv next)
    (hs : Inv s) : Inv (s.performAll actions) := by
  induction actions generalizing s with
  | nil => exact hs
  | cons a rest ih =>
    rw [List.forall_mem_cons] at hstep
    rw [performAll_cons]
    exact ih hstep.2 (hstep.1 (s.perform_effect a) hs)

/-- The names and flows after `performAll` are those that were given last. -/
theorem performAll_names_flows (s : Session α) (actions : List (Action α)) :
    ((s.performAll actions).names, (s.performAll actions).flows)
      = (actions.reverse.findSome? Action.given?).getD (s.names, s.flows) := by
  -- on the last action, which goes before all others if it gives names and flows
  induction actions using List.reverseRecOn with
  | nil => rfl
  | append_singleton actions a ih =>
    rw [performAll_append_singleton, (perform_effect _ a).names_flows, ih, List.reverse_append,
      List.reverse_singleton, List.singleton_append, List.findSome?_cons]
    cases a.given? <;> rfl

/-- The settings after `performAll` are `s.config.afterActions actions`. -/
theorem performAll_config (s : Session α) (actions : List (Action α)) :
    (s.performAll actions).config = s.config.afterActions actions := by
  induction actions using List.reverseRecOn with
  | nil => rfl
  | append_singleton actions a ih =>
    rw [performAll_append_singleton, (perform_effect _ a).config_eq, ih, Config.afterActions,
      Config.afterActions, List.filterMap_append, List.foldl_append, List.filterMap_cons,
      List.filterMap_nil]
    cases a.overrides? <;> rfl

/-- `performAll` makes no settings wrong that nothing was wrong with. -/
theorem performAll_error?_config (hs : s.config.error? = none) (actions : List (Action α)) :
    (s.performAll actions).config.error? = none :=
  performAll_invariant (fun _ _ => Effect.error?_config) hs

/-- `Shows P` is kept by `performAll`, where layouts bring `P` about and edits keep it. -/
theorem performAll_shows (hP : Kept P) (hs : s.Shows P) (actions : List (Action α)) :
    (s.performAll actions).Shows P :=
  performAll_invariant (fun _ _ => Effect.shows hP) hs

/-- `performAll` of edits keeps that there is a diagram. -/
theorem isSome_performAll_of_isEdit (hedits : ∀ a ∈ actions, a.isEdit) (hs : s.diagram.isSome) :
    (s.performAll actions).diagram.isSome :=
  performAll_invariant (fun a ha => Effect.isSome_of_isEdit (hedits a ha)) hs

/-! ## Sessions from their start -/

/-- A session in which nothing was done yet: the standard one, or one that was started with
settings of its own. -/
def IsNew (s : Session α) : Prop :=
  s = standard ∨ ∃ config, start config = .ok s

namespace IsNew

/-- A new session is `blank config`, and unless `config` is `.standard` it was examined. -/
theorem exists_blank (h : s.IsNew) :
    ∃ config, s = blank config ∧ (config = .standard ∨ config.error? = none) := by
  rcases h with rfl | ⟨config, h⟩
  · exact ⟨.standard, rfl, Or.inl rfl⟩
  · rw [start] at h
    cases herror : config.error? with
    | some e =>
      rw [herror] at h
      cases h
    | none =>
      rw [herror] at h
      exact ⟨config, (Except.ok.inj h).symm, Or.inr herror⟩

/-- A new session has no diagram, so it has `Shows P` for every `P`. -/
theorem shows (h : s.IsNew) : s.Shows P := by
  obtain ⟨config, rfl, -⟩ := h.exists_blank
  intro d hd
  cases hd

/-- From a new session on, names and flows are those that were given last, none before that. -/
theorem names_flows (h : s.IsNew) (actions : List (Action α)) :
    ((s.performAll actions).names, (s.performAll actions).flows) = lastGiven actions := by
  obtain ⟨config, rfl, -⟩ := h.exists_blank
  exact performAll_names_flows ..

/-- Nothing is wrong with the settings of a new session. -/
theorem error?_config {s : Session Binary64} (h : s.IsNew) : s.config.error? = none := by
  obtain ⟨config, rfl, rfl | hconfig⟩ := h.exists_blank
  · exact Config.error?_standard
  · exact hconfig

end IsNew

/-! ## Layouts in a session and without one -/

/-- Where nothing is wrong with the settings, `s.layout rounds` returns what the function `layout`
returns. -/
theorem layout_snd (hs : s.config.error? = none) (rounds : Nat) :
    (s.layout rounds).2
      = SankeyDiagram.layout s.names s.flows (s.config.withIterations rounds) := by
  -- the settings pass, and their number of rounds is read as the one that the layout was given
  have hplaced := Diagram.ofFlowsPlaced_withIterations rounds s.names s.flows s.config rounds
  rw [SankeyDiagram.layout, Config.error?_withIterations, hs]
  show _ = (Diagram.ofFlowsPlaced _ _ _ rounds).mapError LayoutError.flows
  rw [hplaced, layout]
  cases Diagram.ofFlowsPlaced s.names s.flows s.config rounds <;> rfl

/-- **Whatever was done in a session, a layout is that of a caller who has none: nothing counts
but the names and flows that were given last and the settings that were accepted.** -/
theorem performAll_layout {s₀ : Session Binary64} (h : s₀.IsNew)
    (actions : List (Action Binary64)) :
    (s₀.performAll actions).config = s₀.config.afterActions actions ∧
    (∀ rounds, ((s₀.performAll actions).layout rounds).2
      = SankeyDiagram.layout (lastGiven actions).1 (lastGiven actions).2
          ((s₀.performAll actions).config.withIterations rounds)) ∧
    (s₀.performAll actions).layoutConfigured.2
      = SankeyDiagram.layout (lastGiven actions).1 (lastGiven actions).2
          (s₀.performAll actions).config := by
  have herror := performAll_error?_config h.error?_config actions
  have hlayout : ∀ rounds, ((s₀.performAll actions).layout rounds).2
      = SankeyDiagram.layout (lastGiven actions).1 (lastGiven actions).2
          ((s₀.performAll actions).config.withIterations rounds) := by
    intro rounds
    rw [← h.names_flows actions]
    exact layout_snd herror rounds
  exact ⟨performAll_config s₀ actions, hlayout, hlayout _⟩

/-- Flows are given, laid out and edited. Three actions fail: there is no layout yet, nodes would
be as wide as the layout, and there is no third node. -/
def editing : List (Action α) :=
  [.configure { Overrides.none with iterations := some 5 },
    .setFlows ["a", "b"] [⟨.named "a", .position 1, 1⟩], .relayout, .layout 3,
    .configure { Overrides.none with width := some 1 }, .moveNode ⟨1⟩ 1, .moveNode ⟨2⟩ 1, .relayout]

/-- Neither the moved node nor the failures nor the layout before count for the layout after
`editing`. -/
theorem performAll_layout_editing :
    (standard : Session Binary64).IsNew ∧
      (((standard : Session Binary64).performAll editing).layout 7).2
        = SankeyDiagram.layout ["a", "b"] [⟨.named "a", .position 1, 1⟩]
            (Config.standard.withIterations 7) := by
  have hnew : (standard : Session Binary64).IsNew := Or.inl rfl
  obtain ⟨-, hlayout, -⟩ := performAll_layout hnew editing
  have hconfig : ((standard : Session Binary64).performAll editing).config
      = Config.standard.withIterations 5 := by decide +kernel
  refine ⟨hnew, ?_⟩
  rw [hlayout 7, hconfig]
  rfl

/-! ## Failures and diagrams -/

/-- Where a session has a diagram, `ofFlows` succeeds on its names and flows. -/
theorem kept_ofFlows : Kept fun names flows (_ : Diagram α) =>
    ∃ first, Diagram.ofFlows names flows = .ok first where
  placed _ _ d _ _ h := ⟨d, h⟩
  withSlots _ _ _ h := h
  setTop _ _ _ _ _ h := h

/-- Among some actions is a layout that succeeded, and no flows were given after it. -/
def LaidOutSince (s : Session α) (actions : List (Action α)) : Prop :=
  ∃ before a after, actions = before ++ a :: after ∧ a.isLayout ∧
    ((s.performAll before).perform a).2 = none ∧ ∀ b ∈ after, b.given? = none

/-- `LaidOutSince` holds after one more action iff this is a layout that succeeds, or it held before
and the action gives no flows. -/
theorem laidOutSince_append_singleton :
    s.LaidOutSince (actions ++ [a])
      ↔ (a.isLayout ∧ ((s.performAll actions).perform a).2 = none) ∨
        (s.LaidOutSince actions ∧ a.given? = none) := by
  constructor
  · rintro ⟨before, b, after, heq, hb, hok, hafter⟩
    -- the last action is the layout itself, or it comes after the layout
    cases after using List.reverseRecOn with
    | nil =>
      obtain ⟨rfl, hab⟩ := List.append_inj' heq rfl
      obtain rfl := List.singleton_inj.1 hab
      exact Or.inl ⟨hb, hok⟩
    | append_singleton rest c =>
      rw [← List.cons_append, ← List.append_assoc] at heq
      obtain ⟨rfl, hac⟩ := List.append_inj' heq rfl
      obtain rfl := List.singleton_inj.1 hac
      rw [List.forall_mem_append, List.forall_mem_singleton] at hafter
      exact Or.inr ⟨⟨before, b, rest, rfl, hb, hok, hafter.1⟩, hafter.2⟩
  · rintro (⟨ha, hok⟩ | ⟨⟨before, b, after, rfl, hb, hok, hafter⟩, ha⟩)
    · exact ⟨actions, a, [], rfl, ha, hok, by simp⟩
    · refine ⟨before, b, after ++ [a], by simp, hb, hok, ?_⟩
      rw [List.forall_mem_append, List.forall_mem_singleton]
      exact ⟨hafter, ha⟩

/-- A layout does not fail where there is a diagram. -/
theorem Effect.outcome_eq_none (h : s.Effect a next outcome) (ha : a.isLayout)
    (hs : s.Shows fun names flows _ => ∃ first, Diagram.ofFlows names flows = .ok first)
    (hsome : s.diagram.isSome) : outcome = none := by
  obtain ⟨d, hd⟩ := Option.isSome_iff_exists.1 hsome
  obtain ⟨first, hfirst⟩ := hs d hd
  cases h with
  | laidOut => rfl
  | notLaidOut _ h =>
    rw [hfirst] at h
    cases h
  | configured | misconfigured | given | restacked | moved | noNode | noneToRestack
  | noneToMove => cases ha

/-- There is a diagram after an action iff it is a layout that succeeds, or there was one and the
action gives no flows. -/
theorem Effect.isSome_diagram_iff (h : s.Effect a next outcome)
    (hs : s.Shows fun names flows _ => ∃ first, Diagram.ofFlows names flows = .ok first) :
    next.diagram.isSome
      ↔ (a.isLayout ∧ outcome = none) ∨ (s.diagram.isSome ∧ a.given? = none) := by
  cases h with
  | configured | misconfigured | noNode | noneToRestack | noneToMove | given =>
    simp [Action.isLayout, Action.given?]
  | laidOut ha h => simp [ha]
  | notLaidOut ha h =>
    -- flows that fail now were not laid out before
    have hnone : ¬ s.diagram.isSome := by
      intro hsome
      cases (Effect.notLaidOut ha h).outcome_eq_none ha hs hsome
    simp [hnone]
  | restacked h => simp [Action.isLayout, Action.given?, h]
  | moved y h => simp [Action.isLayout, Action.given?, h]

/-- From a new session on, there is a diagram iff `LaidOutSince` holds. -/
theorem IsNew.isSome_diagram_iff (h : s.IsNew) (actions : List (Action α)) :
    (s.performAll actions).diagram.isSome ↔ s.LaidOutSince actions := by
  induction actions using List.reverseRecOn with
  | nil =>
    obtain ⟨config, rfl, -⟩ := h.exists_blank
    simp [LaidOutSince, blank]
  | append_singleton actions a ih =>
    rw [performAll_append_singleton, laidOutSince_append_singleton, ← ih]
    exact (perform_effect _ a).isSome_diagram_iff (performAll_shows kept_ofFlows h.shows actions)

/-- **A failure changes nothing, but that a layout leaves no diagram. There is a diagram iff a
layout succeeded since flows were given last, and from then on no layout fails.** -/
theorem performAll_lifecycle (h : s₀.IsNew) (actions : List (Action α)) :
    (∀ a next e, (s₀.performAll actions).perform a = (next, some e) →
      next = if a.isLayout then { s₀.performAll actions with diagram := none }
        else s₀.performAll actions) ∧
    ((s₀.performAll actions).diagram.isSome ↔ s₀.LaidOutSince actions) ∧
    (s₀.LaidOutSince actions → ∀ a, a.isLayout → ((s₀.performAll actions).perform a).2 = none) := by
  refine ⟨?_, h.isSome_diagram_iff actions, ?_⟩
  · intro a next e hfail
    have heffect := (s₀.performAll actions).perform_effect a
    rw [hfail] at heffect
    exact heffect.eq_of_failure
  · intro hsince a ha
    exact (perform_effect _ a).outcome_eq_none ha (performAll_shows kept_ofFlows h.shows actions)
      ((h.isSome_diagram_iff actions).2 hsince)

/-- After `editing` the moved diagram is still there, and a further layout does not fail. -/
theorem performAll_lifecycle_editing :
    (standard : Session Binary64).IsNew ∧
      ((standard : Session Binary64).performAll editing).diagram.isSome ∧
      (standard : Session Binary64).LaidOutSince editing ∧
      (((standard : Session Binary64).performAll editing).perform (.layout 9)).2 = none := by
  have hnew : (standard : Session Binary64).IsNew := Or.inl rfl
  obtain ⟨-, hiff, hok⟩ := performAll_lifecycle hnew editing
  have hsome : ((standard : Session Binary64).performAll editing).diagram.isSome := by
    decide +kernel
  exact ⟨hnew, hsome, hiff.1 hsome, hok (hiff.1 hsome) (.layout 9) rfl⟩

end Session

end SankeyDiagram
