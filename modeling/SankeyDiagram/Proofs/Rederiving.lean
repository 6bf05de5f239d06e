import SankeyDiagram.Proofs.Agreement

/-! # Deriving a layout again

In exact numbers a layout is a fixed point of all the stages that led to it. The last stage puts
links into another order, and the first ones read them in that order the next time; but sums do
not depend on it, and neither do layers.

* **`Diagram.columns_again`** all stages but the last one change nothing in a diagram that came out
  of the last one.
* **`Diagram.ofFlowsPlaced_placed`** nor does the last one. -/

namespace SankeyDiagram

namespace Diagram

variable {d first : Diagram Rat} {names : List String} {flows : List (Flow Rat)}

/-- `d.placed config rounds` gets from the first three stages the values, layers and columns that it
has. -/
theorem columns_again (hwf : first.WellFormed) (hac : Acyclic first.arcs) (config : Config Rat)
    (rounds : Nat) :
    (((first.placed config rounds).withValues.withLayers config).withColumns config rounds)
      = first.placed config rounds := by
  generalize hcolumns : (first.withValues.withLayers config).withColumns config rounds = columns
  generalize hplaced : first.placed config rounds = placed
  have hstacked : columns.withSlots = placed := by
    rw [← hcolumns, ← hplaced]
    rfl
  have hdraw : placed.Redraws first := hplaced ▸ first.redraws_placed config rounds
  generalize hagain : (placed.withValues.withLayers config).withColumns config rounds = again
  have hredraw : again.Redraws placed := by
    rw [← hagain]
    exact ((redraws_withColumns _ config rounds).trans (redraws_withLayers _ config)).trans
      placed.redraws_withValues
  -- exact sums do not show that the links are in another order now
  have hflows : placed.SameFlows first :=
    hdraw.sameFlows fun side id => .of_perm (hdraw.linksAt_perm side id)
  have hplaces : again.SamePlaces columns := by
    rw [← hagain, ← hcolumns]
    exact hflows.samePlaces hwf hac config rounds
  have hunstacked : again.unstacked = placed.unstacked := by
    rw [← hstacked, unstacked_withSlots]
    rw [← hstacked] at hredraw
    exact hplaces.unstacked_eq (hredraw.trans columns.redraws_withSlots)
  refine eq_of_unstacked hunstacked (fun side id => ?_) fun side l => ?_
  · rw [← hagain, linksAt_withColumns, linksAt_withLayers, linksAt_withValues]
  · rw [← hagain, slotAt_withColumns]
    rfl

/-- **In exact numbers `d.placed config rounds = d` for a diagram that was laid out, its warnings
and the order of its links included, and all that this looks up exists.** -/
theorem ofFlowsPlaced_placed {config : Config Rat} {rounds : Nat}
    (h : ofFlowsPlaced names flows config rounds = .ok d) :
    (∀ e ∈ d.stages config rounds, e.HasLookups) ∧ d.placed config rounds = d := by
  obtain ⟨first, hfirst, rfl⟩ := ofFlowsPlaced_eq_ok_iff.1 h
  obtain ⟨-, hwf, hac⟩ := wellFormed_ofFlows hfirst
  have hsound : (first.placed config rounds).Sound names :=
    (sound_ofFlows hfirst).stages config rounds _ (first.placed_mem_stages config rounds)
  refine ⟨fun e he => (hsound.stages config rounds e he).hasLookups, ?_⟩
  conv_lhs => rw [placed, columns_again hwf hac]
  exact withSlots_withSlots _

/-- `d.placed .standard 2 = d` for the detour. -/
theorem ofFlowsPlaced_placed_detour :
    ∃ d, ofFlowsPlaced detourNames detourFlows .standard 2 = .ok d ∧
      (∀ e ∈ d.stages .standard 2, e.HasLookups) ∧ d.placed .standard 2 = d := by
  have hdetour : ofFlows detourNames detourFlows = .ok detourDiagram := by decide +kernel
  have hplaced : ofFlowsPlaced detourNames detourFlows .standard 2
      = .ok (detourDiagram.placed .standard 2) :=
    ofFlowsPlaced_eq_ok_iff.2 ⟨detourDiagram, hdetour, rfl⟩
  exact ⟨_, hplaced, ofFlowsPlaced_placed hplaced⟩

end Diagram

end SankeyDiagram
