import Mathlib.Analysis.Convex.Basic
import SankeyDiagram.Proofs.Pulling

/-! # Centers of nodes under pulls

How far a pass of pulls moves nodes, in exact numbers. It moves the center of a node a part of the
way to a mean of centers, so that none leaves the range that the centers were in.

* **`Diagram.weight`**, **`Diagram.meanCenter`** the mean to which links pull, and what each link
  counts for it; **`Diagram.meanCenter_mem_Icc`** it is among the centers to which links lead.
* **`Diagram.PulledConvexly`** where a pass leaves centers; **`Diagram.PulledBy.pulledConvexly`**
  pulls leave them there.
* **`Diagram.checkedRelaxed_eq`** a pass does not divide by zero.
* **`Diagram.ofFlows_relaxedConvexly`** so it is for a pass through the diagram of flows. -/

namespace SankeyDiagram

namespace Diagram

variable {d e g : Diagram Rat} {side : Side} {strength low high : Rat} {id : NodeId}
  {ids : List LinkId}

/-! ## Weights -/

/-- What a link counts among some links: its part in their flow. -/
def weight (e : Diagram Rat) (ids : List LinkId) (l : LinkId) : Rat :=
  (e.link l).value / e.flow ids

/-- The mean of the centers to which some links lead, as another diagram has them. -/
def meanCenter (g e : Diagram Rat) (side : Side) (ids : List LinkId) : Rat :=
  (ids.map fun l => (g.node ((e.link l).farEnd side)).center * e.weight ids l).sum

/-- The weights of links with flow make `1`. -/
theorem sum_weight (hpos : 0 < e.flow ids) : (ids.map (e.weight ids)).sum = 1 := by
  have hflow : (ids.map fun l => (e.link l).value).sum = e.flow ids := by
    rw [flow, Scalar.sum_rat]
  have hweight : e.weight ids = fun l => (e.link l).value * (e.flow ids)⁻¹ :=
    funext fun l => div_eq_mul_inv ..
  rw [hweight, List.sum_map_mul_right, hflow, mul_inv_cancel₀ hpos.ne']

/-- `e.flow ids` is zero if the links carry nothing. -/
theorem flow_eq_zero (hzero : ∀ l ∈ ids, (e.link l).value = 0) : e.flow ids = 0 := by
  rw [flow, Scalar.sum_rat]
  refine List.sum_eq_zero fun value hmem => ?_
  obtain ⟨l, hl, rfl⟩ := List.mem_map.1 hmem
  exact hzero l hl

section Values

variable (hvalue : ∀ l, 0 ≤ (e.link l).value)
include hvalue

/-- No weight is negative if no value is. -/
theorem weight_nonneg (ids : List LinkId) (l : LinkId) : 0 ≤ e.weight ids l :=
  div_nonneg (hvalue l) (flow_nonneg hvalue ids)

/-- Links of which `e.flow ids` is not positive carry nothing, as no value is negative. -/
theorem value_eq_zero_of_flow (h : ¬0 < e.flow ids) : ∀ l ∈ ids, (e.link l).value = 0 := by
  intro l hl
  have hle : (e.link l).value ≤ e.flow ids := by
    rw [flow, Scalar.sum_rat]
    refine List.single_le_sum ?_ _ (List.mem_map_of_mem hl)
    simpa using fun other _ => hvalue other
  exact le_antisymm (hle.trans (not_lt.1 h)) (hvalue l)

/-- `meanCenter` lies between any bounds of the centers that it is a mean of. -/
theorem meanCenter_mem_Icc (hpos : 0 < e.flow ids)
    (hcenters : ∀ l ∈ ids, (g.node ((e.link l).farEnd side)).center ∈ Set.Icc low high) :
    meanCenter g e side ids ∈ Set.Icc low high := by
  have hweighted : ∀ bound : Rat, (ids.map fun l => bound * e.weight ids l).sum = bound := by
    intro bound
    rw [List.sum_map_mul_left, sum_weight hpos, mul_one]
  -- so both ends of the range are means with the same weights
  constructor
  · calc low = (ids.map fun l => low * e.weight ids l).sum := (hweighted low).symm
      _ ≤ meanCenter g e side ids := List.sum_le_sum fun l hl =>
          mul_le_mul_of_nonneg_right (hcenters l hl).1 (weight_nonneg hvalue ids l)
  · calc meanCenter g e side ids ≤ (ids.map fun l => high * e.weight ids l).sum :=
          List.sum_le_sum fun l hl =>
            mul_le_mul_of_nonneg_right (hcenters l hl).2 (weight_nonneg hvalue ids l)
      _ = high := hweighted high

end Values

/-! ## Centers after a pass -/

/-- With flow, `weightedCenter?` is `meanCenter`. -/
theorem weightedCenter?_of_pos (h : g.flattened = e.flattened) (hpos : 0 < e.flow ids) :
    g.weightedCenter? side ids = some (meanCenter g e side ids) := by
  have hne : ids ≠ [] := by
    rintro rfl
    exact lt_irrefl _ hpos
  rw [weightedCenter?, flow_of_flattened h]
  simp only [link_of_flattened h, Scalar.sum_rat]
  rw [if_neg (by simp [hne, hpos])]
  rfl

/-- Without flow, `weightedCenter?` is `none`. -/
theorem weightedCenter?_of_not_pos (h : g.flattened = e.flattened) (hzero : ¬0 < e.flow ids) :
    g.weightedCenter? side ids = none := by
  rw [weightedCenter?, flow_of_flattened h]
  exact if_pos (Or.inr (not_lt.1 hzero))

/-- A node that is moved keeps the distance of its `center` from its upper edge. -/
theorem center_of_flattened (h : g.flattened = e.flattened) (id : NodeId) :
    (g.node id).center = (e.node id).center + ((g.node id).y - (e.node id).y) := by
  rw [Node.center, Node.center, dy_of_flattened h]
  ring

/-- Where a pass of pulls on a side leaves the centers of nodes. -/
structure PulledConvexly (g e : Diagram Rat) (side : Side) (strength : Rat) : Prop where
  /-- In every range that the centers were in they stay. -/
  center_mem : ∀ low high, (∀ id, e.hasNode id → (e.node id).center ∈ Set.Icc low high) →
    ∀ id, e.hasNode id → (g.node id).center ∈ Set.Icc low high
  /-- With flow, a node is moved a part of the way to the mean of the centers to which its links
  lead. -/
  center_eq : ∀ id, 0 < e.flow ((e.node id).linksAt side) →
    (g.node id).center = (1 - strength) * (e.node id).center
      + strength * meanCenter g e side ((e.node id).linksAt side)
  /-- What the links count for the mean is not below zero. -/
  weight_nonneg : ∀ id, ∀ l ∈ (e.node id).linksAt side,
    0 ≤ e.weight ((e.node id).linksAt side) l
  /-- Together they count one. -/
  sum_weight : ∀ id, 0 < e.flow ((e.node id).linksAt side) →
    (((e.node id).linksAt side).map (e.weight ((e.node id).linksAt side))).sum = 1
  /-- Without links, or with links without values, a node is where it was. -/
  node_eq : ∀ id, (∀ l ∈ (e.node id).linksAt side, (e.link l).value = 0) → g.node id = e.node id
  /-- Other than that there is flow. -/
  flow_pos : ∀ id, (∃ l ∈ (e.node id).linksAt side, (e.link l).value ≠ 0) →
    0 < e.flow ((e.node id).linksAt side)

namespace PulledBy

variable (h : g.PulledBy e side strength)
include h

/-- A node with flow goes the part `strength` of its way to `meanCenter`. -/
theorem center_eq (hpos : 0 < e.flow ((e.node id).linksAt side)) :
    (g.node id).center = (1 - strength) * (e.node id).center
      + strength * meanCenter g e side ((e.node id).linksAt side) := by
  have hy : (g.node id).y = (e.node id).y
      + (meanCenter g e side ((e.node id).linksAt side) - (e.node id).center) * strength := by
    rw [h.y_eq, pulledTop, weightedCenter?_of_pos h.flattened hpos]
  rw [center_of_flattened h.flattened, hy]
  ring

/-- A node without flow is not pulled. -/
theorem node_eq (hzero : ¬0 < e.flow ((e.node id).linksAt side)) : g.node id = e.node id := by
  refine node_eq_of_flattened h.flattened ?_
  rw [h.y_eq, pulledTop, weightedCenter?_of_not_pos h.flattened hzero]

/-- A pull with `strength` in `[0, 1]` leaves centers between bounds of all of them. -/
theorem center_mem (he : e.Layered) (hvalue : ∀ l, 0 ≤ (e.link l).value) (h0 : 0 ≤ strength)
    (h1 : strength ≤ 1)
    (hcenters : ∀ id, e.hasNode id → (e.node id).center ∈ Set.Icc low high)
    (hid : e.hasNode id) : (g.node id).center ∈ Set.Icc low high := by
  -- on the layers that a pass goes through before it gets to the node
  induction hturn : e.pullTurn side id using Nat.strong_induction_on generalizing id with
  | _ n ih =>
    by_cases hpos : 0 < e.flow ((e.node id).linksAt side)
    · -- the far ends are in the range, for the pass has got to them before
      have hmean : meanCenter g e side ((e.node id).linksAt side) ∈ Set.Icc low high := by
        refine meanCenter_mem_Icc hvalue hpos fun l hl => ih _ ?_ ?_ rfl
        · rw [← hturn]
          exact he.pullTurn_lt hl
        · exact he.hasNode_farEnd hl
      rw [h.center_eq hpos]
      have hconvex := convex_Icc low high (hcenters id hid) hmean (sub_nonneg.2 h1) h0
        (sub_add_cancel 1 strength)
      simpa only [smul_eq_mul] using hconvex
    · rw [h.node_eq hpos]
      exact hcenters id hid

/-- A pull with `strength` in `[0, 1]` is `PulledConvexly`. -/
theorem pulledConvexly (he : e.Layered) (hvalue : ∀ l, 0 ≤ (e.link l).value) (h0 : 0 ≤ strength)
    (h1 : strength ≤ 1) : g.PulledConvexly e side strength where
  center_mem _ _ hcenters _ hid := h.center_mem he hvalue h0 h1 hcenters hid
  center_eq _ hpos := h.center_eq hpos
  weight_nonneg id l _ := weight_nonneg hvalue _ l
  sum_weight _ hpos := sum_weight hpos
  node_eq _ hzero := h.node_eq (flow_eq_zero hzero).not_gt
  flow_pos id hflow := by
    obtain ⟨l, hl, hne⟩ := hflow
    by_contra hzero
    exact hne (value_eq_zero_of_flow hvalue hzero l hl)

end PulledBy

/-! ## Divisions -/

/-- A quotient; there is none by zero. -/
def quotient? (a b : Rat) : Option Rat :=
  if b = 0 then none else some (a / b)

/-- The center of a node, if its height is not divided by zero. -/
def checkedCenter? (n : Node Rat) : Option Rat := do
  let half ← quotient? n.dy ((2 : Nat) : Rat)
  return n.y + half

/-- The mean of centers to which links pull, if there is one, unless finding it divides by zero. -/
def checkedWeightedCenter? (g : Diagram Rat) (side : Side) (ids : List LinkId) :
    Option (Option Rat) :=
  let total := g.flow ids
  if ids.isEmpty ∨ total ≤ 0 then some none
  else do
    let weighted ← ids.mapM fun l => do
      let center ← checkedCenter? (g.node ((g.link l).farEnd side))
      let part ← quotient? (g.link l).value total
      return center * part
    return some (Scalar.sum weighted)

/-- A pull, unless it divides by zero. -/
def checkedPulled (side : Side) (strength : Rat) (g : Diagram Rat) (id : NodeId) :
    Option (Diagram Rat) := do
  let n := g.node id
  match ← g.checkedWeightedCenter? side (n.linksAt side) with
  | some goal =>
    let center ← checkedCenter? n
    return g.setTop id (n.y + (goal - center) * strength)
  | none => return g

/-- A pass of pulls, unless it divides by zero. -/
def checkedRelaxed (side : Side) (strength : Rat) (layers : List (List NodeId)) (g : Diagram Rat) :
    Option (Diagram Rat) :=
  layers.foldlM (fun g layer => layer.foldlM (checkedPulled side strength) g) g

/-- `quotient?` divides by what is not zero. -/
theorem quotient?_eq {a b : Rat} (h : b ≠ 0) : quotient? a b = some (a / b) := if_neg h

/-- `checkedCenter?` divides by two, and so has a value. -/
theorem checkedCenter?_eq (n : Node Rat) : checkedCenter? n = some n.center := by
  have htwo : ((2 : Nat) : Rat) ≠ 0 := by norm_num
  rw [checkedCenter?, quotient?_eq htwo]
  rfl

/-- `checkedWeightedCenter?` has a value: links pull only if their flow is positive. -/
theorem checkedWeightedCenter?_eq (g : Diagram Rat) (side : Side) (ids : List LinkId) :
    g.checkedWeightedCenter? side ids = some (g.weightedCenter? side ids) := by
  rw [checkedWeightedCenter?, weightedCenter?]
  by_cases h : ids.isEmpty ∨ g.flow ids ≤ 0
  · rw [if_pos h, if_pos h]
  · have hflow : g.flow ids ≠ 0 := fun hzero => h (Or.inr hzero.le)
    rw [if_neg h, if_neg h]
    simp only [checkedCenter?_eq, quotient?_eq hflow, Option.bind_eq_bind, Option.bind_some]
    rw [List.mapM_pure]
    rfl

/-- `checkedPulled` is `pulled`, without a division by zero. -/
theorem checkedPulled_eq (side : Side) (strength : Rat) (g : Diagram Rat) (id : NodeId) :
    checkedPulled side strength g id = some (pulled side strength g id) := by
  rw [checkedPulled, pulled]
  simp only [checkedWeightedCenter?_eq, checkedCenter?_eq, Option.bind_eq_bind, Option.bind_some,
    Option.pure_def]
  cases g.weightedCenter? side ((g.node id).linksAt side) <;> rfl

/-- `checkedRelaxed` is `relaxed`: no pull of a pass divides by zero. -/
theorem checkedRelaxed_eq (side : Side) (strength : Rat) (layers : List (List NodeId))
    (g : Diagram Rat) :
    g.checkedRelaxed side strength layers = some (g.relaxed side strength layers) := by
  have hpulled : checkedPulled side strength = fun g id => pure (pulled side strength g id) :=
    funext fun g => funext fun id => checkedPulled_eq side strength g id
  rw [checkedRelaxed, hpulled]
  simp only [List.foldlM_pure]
  rfl

/-! ## Main statement -/

/-- What a pass of pulls through some layers does to centers, in both directions. -/
structure RelaxedConvexly (e : Diagram Rat) (strength : Rat) (layers : List (List NodeId)) :
    Prop where
  /-- `relaxedLeftward` pulls nodes by the links that leave them. -/
  leftward : ((⟨e, layers⟩ : Columns Rat).relaxedLeftward strength).diagram.PulledConvexly e
    .outgoing strength
  /-- `relaxedRightward` pulls nodes by the links that enter them. -/
  rightward : ((⟨e, layers⟩ : Columns Rat).relaxedRightward strength).diagram.PulledConvexly e
    .incoming strength
  /-- The checked copy of `relaxedLeftward` divides nothing by zero. -/
  leftward_checked : e.checkedRelaxed .outgoing strength layers.reverse
    = some ((⟨e, layers⟩ : Columns Rat).relaxedLeftward strength).diagram
  /-- The checked copy of `relaxedRightward` divides nothing by zero. -/
  rightward_checked : e.checkedRelaxed .incoming strength layers
    = some ((⟨e, layers⟩ : Columns Rat).relaxedRightward strength).diagram

/-- A pass through the layers of a `Layered` diagram is `RelaxedConvexly`. -/
theorem Layered.relaxedConvexly (he : e.Layered) (hvalue : ∀ l, 0 ≤ (e.link l).value)
    (h0 : 0 ≤ strength) (h1 : strength ≤ 1) {layers : List (List NodeId)}
    (hlayers : List.Forall₂ List.Perm layers e.layers) : e.RelaxedConvexly strength layers where
  leftward := (pulledBy_relaxed hlayers he strength).pulledConvexly he hvalue h0 h1
  rightward := (pulledBy_relaxed hlayers he strength).pulledConvexly he hvalue h0 h1
  leftward_checked := checkedRelaxed_eq ..
  rightward_checked := checkedRelaxed_eq ..

/-- **A pass of pulls with `strength` in `[0, 1]` is `RelaxedConvexly`, wherever the layout has put
the nodes of `ofFlows` by then.** -/
theorem ofFlows_relaxedConvexly {names : List String} {flows : List (Flow Rat)}
    (h : ofFlows names flows = .ok d) (config : Config Rat)
    (he : e.Relocates (d.withValues.withLayers config)) (h0 : 0 ≤ strength) (h1 : strength ≤ 1)
    {layers : List (List NodeId)} (hlayers : List.Forall₂ List.Perm layers e.layers) :
    e.RelaxedConvexly strength layers := by
  have hredraws : e.Redraws d :=
    he.redraws.trans ((d.withValues.redraws_withLayers config).trans d.redraws_withValues)
  have hvalue : ∀ l, 0 ≤ (e.link l).value := by
    intro l
    rw [hredraws.value_link]
    exact link_value_nonneg h l
  exact ((layered_ofFlows h config).relocates he).relaxedConvexly hvalue h0 h1 hlayers

/-- In the detour the source of the flows goes up, half of the way to the mean of its targets. -/
theorem ofFlows_relaxedConvexly_detour :
    ofFlows detourNames detourFlows = .ok detourDiagram ∧
      detourColumns.diagram.Relocates (detourDiagram.withValues.withLayers .standard) ∧
      (0 : Rat) ≤ 1 / 2 ∧ (1 / 2 : Rat) ≤ 1 ∧
      List.Forall₂ List.Perm detourColumns.layers detourColumns.diagram.layers ∧
      (detourColumns.diagram.node ⟨0⟩).center = 1159 / 5 ∧
      ((detourColumns.relaxedLeftward (1 / 2)).diagram.node ⟨0⟩).center = 61517 / 360 ∧
      detourColumns.diagram.RelaxedConvexly (1 / 2) detourColumns.layers := by
  have hdetour : ofFlows detourNames detourFlows = .ok detourDiagram := by decide +kernel
  have h0 : (0 : Rat) ≤ 1 / 2 := by norm_num
  have h1 : (1 / 2 : Rat) ≤ 1 := by norm_num
  have hlayers : List.Forall₂ List.Perm detourColumns.layers detourColumns.diagram.layers :=
    (Columns.Arranges.columns _).perm
  exact ⟨hdetour, relocates_detourColumns, h0, h1, hlayers, by decide +kernel, by decide +kernel,
    ofFlows_relaxedConvexly hdetour .standard relocates_detourColumns h0 h1 hlayers⟩

end Diagram

end SankeyDiagram
