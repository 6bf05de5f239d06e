import SankeyDiagram.Layout
import SankeyDiagram.Scalar.Binary64

/-! # What settings decide

Which settings are accepted, and which of them the stages read. A layout reads lengths alone: the
number of rounds is given to it apart, and the curvature of bands is left to those who draw them.

* **`Config.error?_of_apply`**, **`Config.error?_standard`** nothing is wrong with settings that
  were accepted, nor with the standard ones.
* **`Diagram.withLayers_congr`** layers are placed by the widths.
* **`Diagram.withColumns_congr`** columns are placed by the height and the gap.
* **`Diagram.placed_congr`** the whole layout is that of the lengths. -/

namespace SankeyDiagram

variable {α : Type} [Scalar α] {c c' : Config α}

/-! ## Settings that are accepted -/

namespace Config

/-- `error?` does not read the number of rounds. -/
@[simp] theorem error?_withIterations (c : Config α) (iterations : Nat) :
    (c.withIterations iterations).error? = c.error? := rfl

/-- `c.apply o` succeeds only if nothing is wrong with the result. -/
theorem error?_of_apply {o : Overrides α} (h : c.apply o = .ok c') : c'.error? = none := by
  rw [apply] at h
  cases herror : (c.overridden o).error? with
  | some e =>
    rw [herror] at h
    cases h
  | none =>
    rw [herror] at h
    rwa [← Except.ok.inj h]

/-- Nothing is wrong with `Config.standard`. -/
theorem error?_standard : (standard : Config Binary64).error? = none := by decide +kernel

end Config

/-! ## Settings that stages read -/

namespace Diagram

variable (d : Diagram α)

/-- `withLayers` reads two of the settings: the width of the layout and that of nodes. -/
theorem withLayers_congr (hwidth : c.width = c'.width) (hnodeWidth : c.nodeWidth = c'.nodeWidth) :
    d.withLayers c = d.withLayers c' := by
  obtain ⟨width, height, nodeWidth, nodePadding, iterations, curvature⟩ := c
  cases hwidth
  cases hnodeWidth
  rfl

/-- `withSizes` reads two of the settings: the height of the layout and the gap between nodes. -/
theorem withSizes_congr (hheight : c.height = c'.height)
    (hnodePadding : c.nodePadding = c'.nodePadding) : d.withSizes c = d.withSizes c' := by
  obtain ⟨width, height, nodeWidth, nodePadding, iterations, curvature⟩ := c
  cases hheight
  cases hnodePadding
  rfl

end Diagram

namespace Columns

variable (hheight : c.height = c'.height) (hnodePadding : c.nodePadding = c'.nodePadding)
include hheight hnodePadding

/-- `settled` reads two of the settings: the height of the layout and the gap between nodes. -/
theorem settled_congr (columns : Columns α) : columns.settled c = columns.settled c' := by
  have hpacked : Diagram.packed c = Diagram.packed c' := by
    funext d layer
    rw [Diagram.packed, Diagram.packedTops, hheight, hnodePadding, ← Diagram.packedTops,
      ← Diagram.packed]
  rw [settled, hpacked, ← settled]

/-- `Columns.relaxed` reads two of the settings: the height of the layout and the gap between
nodes. -/
theorem relaxed_congr (rounds : Nat) (strength : α) (columns : Columns α) :
    columns.relaxed c rounds strength = columns.relaxed c' rounds strength := by
  -- on the rounds; each starts from another strength and other columns
  induction rounds generalizing strength columns with
  | zero => rfl
  | succ rounds ih => simp only [relaxed, round, settled_congr hheight hnodePadding, ih]

end Columns

namespace Diagram

variable (d : Diagram α) (rounds : Nat)

/-- `withColumns` reads two of the settings: the height of the layout and the gap between nodes. -/
theorem withColumns_congr (hheight : c.height = c'.height)
    (hnodePadding : c.nodePadding = c'.nodePadding) :
    d.withColumns c rounds = d.withColumns c' rounds := by
  rw [withColumns, withSizes_congr d hheight hnodePadding,
    Columns.settled_congr hheight hnodePadding, Columns.relaxed_congr hheight hnodePadding,
    ← withColumns]

/-- `placed` reads the four lengths of the settings, and nothing else. -/
theorem placed_congr (h : ∀ field, c.dimension field = c'.dimension field) :
    d.placed c rounds = d.placed c' rounds := by
  rw [placed, withLayers_congr _ (h .width) (h .nodeWidth),
    withColumns_congr _ _ (h .height) (h .nodePadding), ← placed]

/-- `ofFlowsPlaced` is given a number of rounds, and does not read that of the settings. -/
theorem ofFlowsPlaced_withIterations (names : List String) (flows : List (Flow α))
    (config : Config α) (iterations : Nat) :
    ofFlowsPlaced names flows (config.withIterations iterations) rounds
      = ofFlowsPlaced names flows config rounds := by
  -- other numbers of rounds leave the lengths as they are
  have hplaced : ∀ d : Diagram α,
      d.placed (config.withIterations iterations) rounds = d.placed config rounds :=
    fun d => placed_congr d rounds fun field => by cases field <;> rfl
  rw [ofFlowsPlaced, ofFlowsPlaced, funext hplaced]

end Diagram

end SankeyDiagram
