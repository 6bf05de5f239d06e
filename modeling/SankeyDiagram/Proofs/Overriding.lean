import SankeyDiagram.Proofs.Comparison
import SankeyDiagram.Proofs.Session

/-! # Settings over a history

What new values for settings leave behind, whichever of them are refused on the way.

* **`Config.isSome_error?_iff`** which settings are refused.
* **`Config.lastSet_append_singleton`** the values that were set last are those that remain when
  overrides are put in one after the other.
* **`Session.perform_configure`** new values are put in together, or none of them is.
* **`Session.performAll_lastSet`** the settings of a session can be used, and hold the values that
  were accepted last. -/

namespace SankeyDiagram

/-! ## Settings that are refused -/

/-- Settings cannot be used if a length is no ordinary number or below zero, if nodes are as wide
as the layout, or if the curvature is no fraction. -/
def Config.Unusable (c : Config Binary64) : Prop :=
  (∃ field, ¬ (c.dimension field).isFinite ∨ c.dimension field < 0) ∨
    c.width ≤ c.nodeWidth ∨ c.curvature.isNaN ∨ c.curvature < 0 ∨ 1 < c.curvature

namespace Config

/-- A length is refused iff it is not finite or below zero. -/
theorem isSome_dimensionError?_iff (c : Config Binary64) (field : Dimension) :
    (c.dimensionError? field).isSome
      ↔ ¬ (c.dimension field).isFinite ∨ c.dimension field < 0 := by
  show (if !(c.dimension field).isFinite then _ else _ : Option _).isSome ↔ _
  cases hfinite : (c.dimension field).isFinite with
  | false => simp
  | true =>
    by_cases hnegative : c.dimension field < 0
    · simp [hnegative]
    · simp [hnegative]

/-- `Dimension.all` examines every length. -/
theorem isSome_findSome?_dimensionError?_iff (c : Config Binary64) :
    (Dimension.all.findSome? c.dimensionError?).isSome
      ↔ ∃ field, ¬ (c.dimension field).isFinite ∨ c.dimension field < 0 := by
  have hall : ∀ field, field ∈ Dimension.all := by
    intro field
    cases field <;> decide
  rw [List.findSome?_isSome_iff]
  constructor
  · rintro ⟨field, -, h⟩
    exact ⟨field, (c.isSome_dimensionError?_iff field).1 h⟩
  · rintro ⟨field, h⟩
    exact ⟨field, hall field, (c.isSome_dimensionError?_iff field).2 h⟩

/-- `¬(0 ≤ x ∧ x ≤ 1)` iff `x` is not a number, below zero or above one. -/
theorem curvature_out_of_range_iff (x : Binary64) :
    ¬ (0 ≤ x ∧ x ≤ 1) ↔ x.isNaN ∨ x < 0 ∨ 1 < x := by
  have hzero : (0 : Binary64).isNaN = false := by decide
  have hone : (1 : Binary64).isNaN = false := by decide
  rw [not_and_or, Binary64.not_le_iff, Binary64.not_le_iff, hzero, hone]
  simp only [Bool.false_eq_true, false_or]
  tauto

/-- **`c.error?` refuses settings iff they are `Unusable`.** -/
theorem isSome_error?_iff (c : Config Binary64) : c.error?.isSome ↔ c.Unusable := by
  rw [Unusable, ← isSome_findSome?_dimensionError?_iff, ← curvature_out_of_range_iff, error?]
  cases Dimension.all.findSome? c.dimensionError? with
  | some e => simp
  | none =>
    by_cases hwide : c.width ≤ c.nodeWidth
    · simp [hwide]
    · by_cases hcurvature : 0 ≤ c.curvature ∧ c.curvature ≤ 1
      · simp [hwide, hcurvature]
      · simp only [hwide, hcurvature, if_false, Option.isSome_some, Option.isSome_none,
          not_false_eq_true, or_true]

end Config

/-! ## Values that are set last -/

variable {α : Type}

/-- The value that some overrides set last, or the one before all of them. -/
def lastSet {β : Type} (set? : Overrides α → Option β) (initial : β) (os : List (Overrides α)) :
    β :=
  (os.reverse.findSome? set?).getD initial

/-- `lastSet` of a field after one more override. -/
theorem lastSet_append_singleton {β : Type} (set? : Overrides α → Option β) (initial : β)
    (os : List (Overrides α)) (o : Overrides α) :
    lastSet set? initial (os ++ [o]) = (set? o).getD (lastSet set? initial os) := by
  rw [lastSet, List.reverse_append, List.reverse_singleton, List.singleton_append,
    List.findSome?_cons]
  cases set? o <;> rfl

namespace Overrides

/-- The width that overrides set: that of their own if they have one, or else that of their
size. -/
def width? (o : Overrides α) : Option α := o.width.or (o.size.map Prod.fst)

/-- The height that overrides set, which has no place but their size. -/
def height? (o : Overrides α) : Option α := o.size.map Prod.snd

end Overrides

namespace Config

/-- The settings in which every field has the value that some overrides set last. -/
def lastSet (c : Config α) (os : List (Overrides α)) : Config α where
  width := SankeyDiagram.lastSet Overrides.width? c.width os
  height := SankeyDiagram.lastSet Overrides.height? c.height os
  nodeWidth := SankeyDiagram.lastSet Overrides.nodeWidth c.nodeWidth os
  nodePadding := SankeyDiagram.lastSet Overrides.nodePadding c.nodePadding os
  iterations := SankeyDiagram.lastSet Overrides.iterations c.iterations os
  curvature := SankeyDiagram.lastSet Overrides.curvature c.curvature os

/-- `overridden` sets the width once, that of `o.width` before that of `o.size`. -/
theorem width_overridden (c : Config α) (o : Overrides α) :
    (c.overridden o).width = o.width?.getD c.width := by
  rw [overridden, Overrides.width?]
  cases o.width <;> rfl

/-- **`Config.lastSet` is what remains when overrides are put in one after the other.** -/
theorem lastSet_append_singleton (c : Config α) (os : List (Overrides α)) (o : Overrides α) :
    c.lastSet (os ++ [o]) = (c.lastSet os).overridden o := by
  have hwidth := width_overridden (c.lastSet os) o
  simp only [lastSet, SankeyDiagram.lastSet_append_singleton, overridden] at hwidth ⊢
  rw [hwidth]
  rfl

/-- `overridden` is idempotent. -/
theorem overridden_overridden (c : Config α) (o : Overrides α) :
    (c.overridden o).overridden o = c.overridden o := by
  obtain ⟨width, nodeWidth, nodePadding, size, iterations, curvature⟩ := o
  cases width <;> cases nodeWidth <;> cases nodePadding <;> cases size <;> cases iterations <;>
    cases curvature <;> rfl

end Config

/-! ## Settings of a session -/

namespace Session

variable [Scalar α]

/-- `configure` puts new values in together, or if `error?` finds something wrong with the settings
then, none of them. -/
theorem perform_configure (s : Session α) (o : Overrides α) :
    s.perform (.configure o) = match (s.config.overridden o).error? with
      | some reason => (s, some (.config reason))
      | none => ({ s with config := s.config.overridden o }, none) := by
  rw [perform, configure, Config.apply]
  cases (s.config.overridden o).error? <;> rfl

/-- The overrides that an action brings, if they are accepted. -/
def accepted? (s : Session α) (a : Action α) : Option (Overrides α) :=
  match (s.perform a).2 with
  | some _ => none
  | none => a.overrides?

/-- The overrides that are accepted while some actions are performed. -/
def accepted (s : Session α) : List (Action α) → List (Overrides α)
  | [] => []
  | a :: rest => (s.accepted? a).toList ++ (s.perform a).1.accepted rest

/-- `accepted` overrides after one more action. -/
theorem accepted_append_singleton (s : Session α) (actions : List (Action α)) (a : Action α) :
    s.accepted (actions ++ [a])
      = s.accepted actions ++ ((s.performAll actions).accepted? a).toList := by
  induction actions generalizing s with
  | nil => rw [List.nil_append, accepted, accepted, accepted, List.append_nil]; rfl
  | cons b rest ih => rw [List.cons_append, accepted, accepted, ih, List.append_assoc]; rfl

/-- Only overrides of `accepted?` change the settings. -/
theorem config_perform (s : Session α) (a : Action α) :
    (s.perform a).1.config = ((s.accepted? a).map s.config.overridden).getD s.config := by
  have heffect := s.perform_effect a
  rw [accepted?]
  cases a with
  | configure o =>
    rw [perform_configure]
    cases (s.config.overridden o).error? <;> rfl
  | setFlows | layout | layoutConfigured | relayout | moveNode =>
    rw [heffect.config_eq]
    cases (s.perform _).2 <;> rfl

/-- The settings of a session are `lastSet` of the overrides that were `accepted`. -/
theorem performAll_config_eq_lastSet (s : Session α) (actions : List (Action α)) :
    (s.performAll actions).config = s.config.lastSet (s.accepted actions) := by
  -- on the last action, whose overrides come after all that were accepted before
  induction actions using List.reverseRecOn with
  | nil => rfl
  | append_singleton actions a ih =>
    rw [performAll_append_singleton, config_perform, accepted_append_singleton]
    cases (s.performAll actions).accepted? a with
    | none =>
      rw [Option.toList_none, List.append_nil]
      exact ih
    | some o =>
      rw [Option.toList_some, Config.lastSet_append_singleton, ← ih]
      rfl

/-- **Whatever was done in a session, its settings are not `Unusable`, and every field holds the
value that was accepted last. New values are refused iff the settings could not be used with all of
them put in, and then nothing changes; nor does it when values that were accepted are given at once
again.** -/
theorem performAll_lastSet {s₀ : Session Binary64} (h : s₀.IsNew)
    (actions : List (Action Binary64)) :
    ((s₀.performAll actions).config.error? = none ∧ ¬ (s₀.performAll actions).config.Unusable) ∧
    (s₀.performAll actions).config = s₀.config.lastSet (s₀.accepted actions) ∧
    ∀ o, let s := s₀.performAll actions
      ((s.perform (.configure o)).2.isSome ↔ (s.config.overridden o).Unusable) ∧
      ((s.perform (.configure o)).2.isSome → (s.perform (.configure o)).1 = s) ∧
      ((s.perform (.configure o)).2 = none →
        (s.perform (.configure o)).1.perform (.configure o)
          = ((s.perform (.configure o)).1, none)) := by
  have herror := performAll_error?_config h.error?_config actions
  refine ⟨⟨herror, ?_⟩, performAll_config_eq_lastSet s₀ actions, fun o => ?_⟩
  · rw [← Config.isSome_error?_iff, herror]
    exact Bool.false_ne_true
  · intro s
    rw [← Config.isSome_error?_iff, perform_configure]
    -- refused values leave the session, and accepted ones are accepted again
    cases hwrong : (s.config.overridden o).error? with
    | some reason => exact ⟨Iff.rfl, fun _ => rfl, fun hnone => by cases hnone⟩
    | none =>
      refine ⟨Iff.rfl, fun hsome => (by cases hsome), fun _ => ?_⟩
      rw [perform_configure, Config.overridden_overridden, hwrong]

/-- The width is set by a size and by itself in turn. Once nodes would be wider than the layout. -/
def resizing : List (Action Binary64) :=
  [.configure { Overrides.none with size := some (600, 300) },
    .configure { Overrides.none with width := some 800 },
    .configure { Overrides.none with nodeWidth := some 900, curvature := some 1 },
    .configure { Overrides.none with width := some 750, size := some (700, 200) },
    .configure { Overrides.none with size := some (650, 200) }]

/-- In `resizing` the size that came last gives the width, and the refused curvature is forgotten.
Nodes of that width are refused again, and a gap is accepted. -/
theorem performAll_lastSet_resizing :
    let s := (standard : Session Binary64).performAll resizing
    let wide : Overrides Binary64 := { Overrides.none with nodeWidth := some 650 }
    let gap : Overrides Binary64 := { Overrides.none with nodePadding := some 3 }
    (standard : Session Binary64).IsNew ∧
      s.config = { Config.standard with width := 650, height := 200 } ∧
      (s.config.overridden wide).Unusable ∧ (s.perform (.configure wide)).1 = s ∧
      (s.perform (.configure gap)).2 = none ∧
      (s.perform (.configure gap)).1.perform (.configure gap)
        = ((s.perform (.configure gap)).1, none) := by
  intro s wide gap
  have hnew : (standard : Session Binary64).IsNew := Or.inl rfl
  obtain ⟨-, hconfig, hconfigure⟩ := performAll_lastSet hnew resizing
  have hrefused : (s.perform (.configure wide)).2.isSome := by decide +kernel
  have haccepted : (s.perform (.configure gap)).2 = none := by decide +kernel
  refine ⟨hnew, hconfig.trans (by decide +kernel), (hconfigure wide).1.1 hrefused,
    (hconfigure wide).2.1 hrefused, haccepted, (hconfigure gap).2.2 haccepted⟩

end Session

end SankeyDiagram
