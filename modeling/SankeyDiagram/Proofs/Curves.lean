import SankeyDiagram.Diagram.Curve
import SankeyDiagram.Proofs.Comparison
import SankeyDiagram.Proofs.Dragging

/-! # Curves of links

In exact numbers the curves of links fit the diagram that they are drawn in: each starts and ends in
the middle of a slot of its link, and so inside of a node, and on a side of a node no two cross,
since slots are in the order of the nodes that links lead to.

* **`Diagram.slotTop`**, **`Diagram.slotBottom`** where a slot is.
* **`Bend.IsFraction`** how far curves may bend; **`Bend.isFraction_ofCurvature`**,
  **`Bend.isFraction_exact_ofCurvature`** curvatures are brought there, whatever they are.
* **`Bend.Draws`** curves fit a diagram; **`Diagram.Balanced.draws`** they do if its links are in
  order.
* **`Session.performAll_draws`** so they fit what a session shows right after its links were put
  into order. -/

namespace SankeyDiagram

/-! ## Sides -/

/-- The point of a curve on a side of the node where its link stands. -/
def Curve.endAt {α : Type} (c : Curve α) : Side → Point α
  | .outgoing => c.start
  | .incoming => c.finish

/-- The edge of a node on a side. -/
def Node.edgeAt {α : Type} [Scalar α] (n : Node α) : Side → α
  | .outgoing => n.right
  | .incoming => n.x

namespace Diagram

variable {α : Type} [Scalar α]

/-- The upper edge of the slot of a link on a side. -/
def slotTop (d : Diagram α) (side : Side) (l : LinkId) : α :=
  (d.node ((d.link l).nearEnd side)).y + (d.link l).slotAt side

/-- The lower edge of the slot. -/
def slotBottom (d : Diagram α) (side : Side) (l : LinkId) : α :=
  d.slotTop side l + (d.link l).dy

end Diagram

/-! ## Fractions -/

namespace Bend

/-- How far curves bend is a part of their way. -/
def IsFraction (bend : Bend Rat) : Prop := 0 ≤ bend.curvature ∧ bend.curvature ≤ 1

instance (bend : Bend Rat) : Decidable bend.IsFraction := inferInstanceAs (Decidable (_ ∧ _))

/-- The bend in the number that its word denotes. -/
def exact (bend : Bend Binary64) : Bend Rat := ⟨bend.curvature.toRat⟩

/-- `ofCurvature` clamps to a fraction. -/
theorem isFraction_ofCurvature (curvature : Rat) : (ofCurvature curvature).IsFraction := by
  rw [IsFraction, ofCurvature]
  dsimp only
  split_ifs with hneg hgreat hself
  · exact ⟨le_refl 0, zero_le_one⟩
  · exact ⟨zero_le_one, le_refl 1⟩
  · exact ⟨not_lt.1 hneg, not_lt.1 hgreat⟩
  · exact absurd (le_refl _) hself

/-- `ofCurvature` of a finite word denotes `ofCurvature` of what the word denotes. -/
theorem exact_ofCurvature {curvature : Binary64} (h : curvature.isFinite) :
    (ofCurvature curvature).exact = ofCurvature curvature.toRat := by
  have hzeroRat : (0 : Binary64).toRat = 0 := by decide +kernel
  have honeRat : (1 : Binary64).toRat = 1 := by decide +kernel
  have hneg : curvature < 0 ↔ curvature.toRat < 0 := by
    rw [Binary64.lt_iff_toRat_lt h (by decide +kernel), hzeroRat]
  have hgreat : 1 < curvature ↔ 1 < curvature.toRat := by
    rw [Binary64.lt_iff_toRat_lt (by decide +kernel) h, honeRat]
  -- a finite word is a number, so that the guard against others is passed
  have hself : curvature ≤ curvature :=
    (Binary64.le_self_iff curvature).2 (Binary64.not_isNaN_of_isFinite h)
  rw [exact, ofCurvature, ofCurvature]
  simp only [hneg, hgreat, if_pos hself, le_refl, if_true]
  split_ifs
  · rw [hzeroRat]
  · rw [honeRat]
  · rfl

/-- `ofCurvature` of any word denotes a fraction, NaN included. -/
theorem isFraction_exact_ofCurvature (curvature : Binary64) :
    (ofCurvature curvature).exact.IsFraction := by
  by_cases hfinite : curvature.isFinite
  · rw [exact_ofCurvature hfinite]
    exact isFraction_ofCurvature _
  · by_cases hnan : curvature.isNaN
    · have hneg : ¬curvature < 0 := Binary64.not_lt_of_isNaN (Or.inl hnan)
      have hgreat : ¬1 < curvature := Binary64.not_lt_of_isNaN (Or.inr hnan)
      have hself : ¬curvature ≤ curvature := mt (Binary64.le_self_iff curvature).1 (not_not.2 hnan)
      rw [exact, ofCurvature]
      simp only [if_neg hneg, if_neg hgreat, if_neg hself]
      decide +kernel
    · rcases Binary64.eq_infinity_of_not_isFinite hfinite hnan with rfl | rfl
      · decide +kernel
      · decide +kernel

end Bend

/-! ## Curves in a diagram -/

/-- A curve leaves its start and arrives at its end horizontally, on the way from one to the other,
and bends as far from one as from the other. -/
structure Curve.IsEven (c : Curve Rat) : Prop where
  /-- The curve leaves `start` horizontally. -/
  y_control1 : c.control1.y = c.start.y
  /-- The curve arrives at `finish` horizontally. -/
  y_control2 : c.control2.y = c.finish.y
  /-- `control1` is on the way from `start` to `finish`. -/
  x_control1_mem : c.control1.x ∈ Set.uIcc c.start.x c.finish.x
  /-- `control2` is on the way from `start` to `finish`. -/
  x_control2_mem : c.control2.x ∈ Set.uIcc c.start.x c.finish.x
  /-- `control1` is as far from `start` as `control2` is from `finish`. -/
  x_control_add : c.control1.x + c.control2.x = c.start.x + c.finish.x

namespace Bend

variable {bend : Bend Rat} {d : Diagram Rat}

/-- The curves of links fit a diagram. -/
structure Draws (bend : Bend Rat) (d : Diagram Rat) : Prop where
  /-- The nodes that links join exist. -/
  hasAllEnds : d.hasAllEnds
  /-- Every link has a curve, and there are no other curves. -/
  getElem?_curves : ∀ l : LinkId,
    (bend.curves d)[l.index]? = if d.hasLink l then some (bend.curve d (d.link l)) else none
  /-- A curve starts and ends at the edges of nodes, halfway between `slotTop` and `slotBottom` of
  its link. -/
  endAt_eq : ∀ side l, d.hasLink l → (bend.curve d (d.link l)).endAt side
    = ⟨(d.node ((d.link l).nearEnd side)).edgeAt side, (d.slotTop side l + d.slotBottom side l) / 2⟩
  /-- Slots lie within their nodes. -/
  slot_mem : ∀ side l, d.hasLink l → (d.node ((d.link l).nearEnd side)).y ≤ d.slotTop side l ∧
    d.slotTop side l ≤ d.slotBottom side l ∧
      d.slotBottom side l ≤ (d.node ((d.link l).nearEnd side)).bottom
  /-- The ends of curves lie within the nodes of their links. -/
  y_endAt_mem : ∀ side l, d.hasLink l → ((bend.curve d (d.link l)).endAt side).y ∈
    Set.Icc (d.node ((d.link l).nearEnd side)).y (d.node ((d.link l).nearEnd side)).bottom
  /-- Curves run evenly from one end to the other. -/
  isEven : ∀ l, d.hasLink l → (bend.curve d (d.link l)).IsEven
  /-- On a side of a node, the slot of a link to an upper node ends before that of a link to a lower
  one starts, and its curve is not below the other. -/
  uncrossed : ∀ side l m, d.hasLink l → d.hasLink m →
    (d.link l).nearEnd side = (d.link m).nearEnd side →
    d.farCenter side l < d.farCenter side m → d.slotBottom side l ≤ d.slotTop side m ∧
      ((bend.curve d (d.link l)).endAt side).y ≤ ((bend.curve d (d.link m)).endAt side).y

/-- `between a b part` lies between `a` and `b` for a `part` in `[0, 1]`. -/
theorem between_mem_uIcc (a b : Rat) {part : Rat} (hnonneg : 0 ≤ part) (hle : part ≤ 1) :
    between a b part ∈ Set.uIcc a b := by
  rw [between, Set.mem_uIcc]
  rcases le_total a b with hab | hba
  · have hway : 0 ≤ b - a := sub_nonneg.2 hab
    have hpart : (b - a) * part ≤ b - a := mul_le_of_le_one_right hway hle
    have hstart : 0 ≤ (b - a) * part := mul_nonneg hway hnonneg
    exact Or.inl ⟨by linarith, by linarith⟩
  · have hway : b - a ≤ 0 := sub_nonpos.2 hba
    have hpart : b - a ≤ (b - a) * part := le_mul_of_le_one_right hway hle
    have hstart : (b - a) * part ≤ 0 := mul_nonpos_of_nonpos_of_nonneg hway hnonneg
    exact Or.inr ⟨by linarith, by linarith⟩

/-- The curve of a link is `IsEven` for a bend that is a fraction. -/
theorem isEven_curve (h : bend.IsFraction) (d : Diagram Rat) (l : Link Rat) :
    (bend.curve d l).IsEven where
  y_control1 := rfl
  y_control2 := rfl
  x_control1_mem := between_mem_uIcc _ _ h.1 h.2
  x_control2_mem := between_mem_uIcc _ _ (sub_nonneg.2 h.2) (sub_le_self 1 h.1)
  x_control_add := by
    simp only [curve, between]
    ring

/-- A curve ends at the edges of the nodes that its link joins, halfway between `slotTop` and
`slotBottom`. -/
theorem endAt_curve (bend : Bend Rat) (d : Diagram Rat) (side : Side) (l : LinkId) :
    (bend.curve d (d.link l)).endAt side = ⟨(d.node ((d.link l).nearEnd side)).edgeAt side,
      (d.slotTop side l + d.slotBottom side l) / 2⟩ := by
  have hmiddle : ∀ top dy : Rat, top + dy / ((2 : Nat) : Rat) = (top + (top + dy)) / 2 := by
    intro top dy
    push_cast
    ring
  cases side <;> exact congrArg (Point.mk _) (hmiddle _ _)

/-- `bend.curves d` has the curve of each link of `d` at its position, and no more. -/
theorem getElem?_curves (bend : Bend Rat) (d : Diagram Rat) (l : LinkId) :
    (bend.curves d)[l.index]? = if d.hasLink l then some (bend.curve d (d.link l)) else none := by
  by_cases hl : d.hasLink l
  · have hlt := (d.hasLink_iff l).1 hl
    rw [if_pos hl, d.link_of_lt hlt, curves, List.getElem?_map]
    simp [hlt]
  · rw [if_neg hl]
    rw [Diagram.hasLink_iff] at hl
    simpa [curves] using hl

end Bend

namespace Diagram

variable {d : Diagram Rat} {side : Side} {id : NodeId} {l m : LinkId}

/-- In a `Tiled` diagram the slot of a link lies within its node. -/
theorem Tiled.slot_mem (h : d.Tiled) (hl : l ∈ (d.node ((d.link l).nearEnd side)).linksAt side) :
    (d.node ((d.link l).nearEnd side)).y ≤ d.slotTop side l ∧
      d.slotTop side l ≤ d.slotBottom side l ∧
        d.slotBottom side l ≤ (d.node ((d.link l).nearEnd side)).bottom := by
  obtain ⟨hstart, hdy, hend⟩ := h.inside side _ l hl
  rw [slotBottom, slotTop, Node.bottom]
  exact ⟨by linarith, by linarith, by linarith⟩

/-- If `d.withSlots = d`, the slot of a link to an upper node ends before that of a link to a lower
one starts. -/
theorem Tiled.slotBottom_le (h : d.Tiled) (hstacked : d.withSlots = d)
    (hl : l ∈ (d.node id).linksAt side) (hm : m ∈ (d.node id).linksAt side)
    (hnear : (d.link l).nearEnd side = (d.link m).nearEnd side)
    (hcenter : d.farCenter side l < d.farCenter side m) :
    d.slotBottom side l ≤ d.slotTop side m := by
  have hsorted := (d.restacks_withSlots.stableSort side id).sorted
  rw [hstacked] at hsorted
  have hapart : ∀ l ∈ (d.node id).linksAt side, ∀ m ∈ (d.node id).linksAt side,
      d.farCenter side l < d.farCenter side m →
        (d.link l).slotAt side + (d.link l).dy ≤ (d.link m).slotAt side := by
    refine List.Pairwise.forall_of_forall_of_flip ?_ ?_ ?_
    · exact fun l _ hlt => absurd hlt (lt_irrefl _)
    · exact List.Pairwise.imp
        (fun {l m} hle (_ : d.farCenter side l < d.farCenter side m) => hle) (h.apart side id)
    · -- in order no link to an upper node comes after one to a lower one
      refine hsorted.imp fun habove hlt => absurd hlt ?_
      rw [above, Scalar.precedes_rat, decide_eq_true_eq] at habove
      exact not_lt.2 habove
  have hslots := hapart l hl m hm hcenter
  rw [slotBottom, slotTop, slotTop, hnear]
  linarith

/-- The curves of a `Balanced` diagram with `d.withSlots = d` fit it. -/
theorem Balanced.draws (h : d.Balanced) (hstacked : d.withSlots = d) {bend : Bend Rat}
    (hbend : bend.IsFraction) : bend.Draws d := by
  have htiled := h.tiled_withSlots
  rw [hstacked] at htiled
  have hmem : ∀ side l, d.hasLink l → l ∈ (d.node ((d.link l).nearEnd side)).linksAt side :=
    fun side l hl => (h.wellFormed.mem_linksAt side _ l).2 ⟨hl, rfl⟩
  have hslot := fun side l hl => htiled.slot_mem (hmem side l hl)
  constructor
  case hasAllEnds => exact h.wellFormed.hasAllEnds
  case getElem?_curves => exact bend.getElem?_curves d
  case endAt_eq => exact fun side l _ => bend.endAt_curve d side l
  case slot_mem => exact hslot
  case y_endAt_mem =>
    intro side l hl
    obtain ⟨htop, hle, hbottom⟩ := hslot side l hl
    rw [bend.endAt_curve]
    exact ⟨by dsimp only; linarith, by dsimp only; linarith⟩
  case isEven => exact fun l _ => Bend.isEven_curve hbend d (d.link l)
  case uncrossed =>
    intro side l m hl hm hnear hcenter
    have hmside := hmem side m hm
    rw [← hnear] at hmside
    have hapart := htiled.slotBottom_le hstacked (hmem side l hl) hmside hnear hcenter
    refine ⟨hapart, ?_⟩
    -- the middles of slots are in the order of the slots
    have hle := (hslot side l hl).2.1
    have hle' := (hslot side m hm).2.1
    rw [bend.endAt_curve, bend.endAt_curve]
    dsimp only
    linarith

end Diagram

/-! ## Curves in sessions -/

namespace Session

/-- **Right after links were put into order in a session, by a layout or after moves of nodes,
`bend.Draws d` holds of its diagram however far links are to bend**: in numbers, and in the number
that any word is taken for. -/
theorem performAll_draws {s₀ s : Session Rat} (h : s₀.IsNew) {actions : List (Action Rat)}
    {a : Action Rat} (ha : a.isStacking) (hs : (s₀.performAll actions).perform a = (s, none)) :
    ∃ d, s.diagram = some d ∧ (∀ curvature : Rat, (Bend.ofCurvature curvature).Draws d) ∧
      ∀ curvature : Binary64, (Bend.ofCurvature curvature).exact.Draws d := by
  obtain ⟨d, hd, hstacked, -⟩ := h.exists_stacked ha hs
  have hbalanced : d.Balanced := by
    have hshows := performAll_shows kept_balanced h.shows (actions ++ [a])
    rw [performAll_append_singleton, hs] at hshows
    exact hshows d hd
  exact ⟨d, hd, fun curvature => hbalanced.draws hstacked (Bend.isFraction_ofCurvature curvature),
    fun curvature => hbalanced.draws hstacked (Bend.isFraction_exact_ofCurvature curvature)⟩

/-- A sink of the detour is moved to the top, and links are put into order again: curves fit the
diagram even if they are to bend three times as far as their way, or as far as no number tells. -/
theorem performAll_draws_detour :
    ∃ (s : Session Rat) (d : Diagram Rat),
      (standard.performAll [.setFlows detourNames detourFlows, .layout 1, .moveNode ⟨3⟩ 0]).perform
        .relayout = (s, none) ∧ s.diagram = some d ∧ (Bend.ofCurvature (3 : Rat)).Draws d ∧
      (Bend.ofCurvature Binary64.nan).exact.Draws d := by
  have hdetour : Diagram.ofFlows detourNames detourFlows = .ok detourDiagram := by decide +kernel
  have hlayout : ((standard : Session Rat).setFlows detourNames detourFlows).layout 1
      = (⟨.standard, detourNames, detourFlows, some (detourDiagram.placed .standard 1)⟩,
          .ok (detourDiagram.placed .standard 1)) := layout_of_ofFlows hdetour 1
  generalize hlaid : (⟨.standard, detourNames, detourFlows,
    some (detourDiagram.placed .standard 1)⟩ : Session Rat) = laid at hlayout
  have hactions : standard.performAll [.setFlows detourNames detourFlows, .layout 1,
      .moveNode ⟨3⟩ 0] = laid.performAll [.moveNode ⟨3⟩ 0] :=
    congrArg (fun result => (toOutcome result).1.performAll [.moveNode ⟨3⟩ 0]) hlayout
  have hsome : (laid.performAll [.moveNode ⟨3⟩ 0]).diagram.isSome :=
    isSome_performAll_of_isEdit (List.forall_mem_singleton.2 rfl) (by rw [← hlaid]; rfl)
  obtain ⟨moved, hmoved⟩ := Option.isSome_iff_exists.1 hsome
  rw [← hactions] at hmoved
  have hrelayout := perform_relayout hmoved
  obtain ⟨d, hd, hnumbers, hwords⟩ := performAll_draws (Or.inl rfl) rfl hrelayout
  exact ⟨_, d, hrelayout, hd, hnumbers 3, hwords .nan⟩

end Session

end SankeyDiagram
