import SankeyDiagram.Proofs.Agreement

/-! # Links that lead to one height

Links that lead to nodes at one height stay in the order that they had, so their order tells of the
places that nodes had before. It goes back to the last layout, which finds links in the order of
their positions.

* **`Diagram.Before`** the order of links by the diagrams in which they were put into order;
  **`Session.stackings`** these diagrams, since the last layout of a session.
* **`Session.IsNew.ordered`** links in a session stand in this order.
* **`Diagram.SameTies`** links that lead to one height stand in the same order in two diagrams;
  **`Diagram.withSlots_eq_iff`** if nothing else differs, stacking makes these the same iff they do.
* **`Session.relayout_ties`** what a session says about its links once they are put into order, and
  how much the moves before count.
* **`Session.relayout_fan`** two sessions that differ in this alone. -/

namespace SankeyDiagram

variable {α : Type} [Scalar α]

namespace Diagram

variable {d e : Diagram α} {side : Side} {id : NodeId} {l m : LinkId} {names : List String}
  {flows : List (Flow α)} {config : Config α} {rounds : Nat}

/-! ## The order of links -/

/-- A link comes before another by the diagrams in which the two were put into order, the latest
first: what an older one says counts only if they lead to one height in all later ones, and if they
do so in all of them their positions count. -/
def Before : List (Diagram α) → Side → LinkId → LinkId → Prop
  | [], _, l, m => l.index < m.index
  | d :: older, side, l, m =>
    d.above side l m ∧ (d.above side m l → Before older side l m)

/-- The links at the sides of nodes are in an order. -/
def InOrder (d : Diagram α) (stackings : List (Diagram α)) : Prop :=
  ∀ side id, ((d.node id).linksAt side).Pairwise (Before stackings side)

/-- Before any stacking, the links of `ofFlows` are `InOrder` of their positions. -/
theorem inOrder_ofFlows (h : ofFlows names flows = .ok d) : d.InOrder [] := by
  intro side id
  obtain ⟨resolved, intake, -, -, -, rfl, -⟩ := exists_intake h
  by_cases hid : id.index < names.length
  · rw [Intake.node_diagram hid, Intake.linksAt_node]
    exact Intake.pairwise_linkIds ..
  · rw [node_of_not_lt _ (by simpa using hid), Node.linksAt_unplaced]
    exact List.Pairwise.nil

/-- `InOrder` reads the orders of links at nodes alone. -/
theorem InOrder.of_linksAt {stackings : List (Diagram α)} (h : d.InOrder stackings)
    (hlinks : ∀ side id, (e.node id).linksAt side = (d.node id).linksAt side) :
    e.InOrder stackings := by
  intro side id
  rw [hlinks]
  exact h side id

/-- `withSlots` puts the order of its own heights before those that `InOrder` listed. -/
theorem InOrder.withSlots {stackings : List (Diagram α)} (h : d.InOrder stackings) :
    d.withSlots.InOrder (d.withSlots :: stackings) := by
  intro side id
  have hsorted := (d.restacks_withSlots.stableSort side id).pairwise (d.above_refl side) (h side id)
  rw [← above_of_unstacked d.unstacked_withSlots] at hsorted
  exact hsorted

/-- The links of `d.placed config rounds` are `InOrder` by its own heights, and then by their
positions. -/
theorem inOrder_placed (h : ofFlows names flows = .ok d) :
    (d.placed config rounds).InOrder [d.placed config rounds] := by
  refine InOrder.withSlots ((inOrder_ofFlows h).of_linksAt fun side id => ?_)
  rw [linksAt_withColumns, linksAt_withLayers, linksAt_withValues]

end Diagram

namespace Session

variable {s next s₀ : Session α} {a : Action α} {actions : List (Action α)}
  {outcome : Option (LayoutError α)} {older : List (Diagram α)} {d : Diagram α}

/-- The diagrams in which links were put into order, after one more action. -/
def stackingsAfter (older : List (Diagram α)) (next : Session α) : Action α → List (Diagram α)
  | .layout _ | .layoutConfigured => next.diagram.toList
  | .relayout => next.diagram.toList ++ older
  | .setFlows .. => []
  | .configure _ | .moveNode .. => older

/-- The diagrams in which links were put into order by some actions since the last layout, the
latest first. -/
def stackings (s : Session α) (older : List (Diagram α)) : List (Action α) → List (Diagram α)
  | [] => older
  | a :: actions =>
    (s.perform a).1.stackings (stackingsAfter older (s.perform a).1 a) actions

/-- `stackings` after one more action. -/
theorem stackings_append_singleton (s : Session α) (older : List (Diagram α))
    (actions : List (Action α)) (a : Action α) :
    s.stackings older (actions ++ [a]) = stackingsAfter (s.stackings older actions)
      ((s.performAll actions).perform a).1 a := by
  induction actions generalizing s older with
  | nil => rfl
  | cons b rest ih => exact ih _ _

/-- The links of the diagram of a session, if it has one, are in an order. -/
def Ordered (s : Session α) (stackings : List (Diagram α)) : Prop :=
  ∀ d, s.diagram = some d → d.InOrder stackings

/-- An action keeps `Ordered`, with its own stacking put first. -/
theorem Effect.ordered (h : s.Effect a next outcome) (hs : s.Ordered older) :
    next.Ordered (stackingsAfter older next a) := by
  intro d hd
  -- only a layout and a stacking write orders; a layout starts the record anew
  cases h with
  | configured | misconfigured | noNode | noneToMove => exact hs d hd
  | given => cases hd
  | laidOut ha h =>
    obtain rfl := Option.some.inj hd
    cases a with
    | layout | layoutConfigured => exact Diagram.inOrder_placed h
    | configure | setFlows | relayout | moveNode => cases ha
  | notLaidOut => cases hd
  | restacked h =>
    obtain rfl := Option.some.inj hd
    exact (hs _ h).withSlots
  | noneToRestack h =>
    rw [h] at hd
    cases hd
  | moved y h =>
    obtain rfl := Option.some.inj hd
    exact (hs _ h).of_linksAt (Diagram.linksAt_of_flattened (Diagram.flattened_setTop ..))

/-- `performAll` keeps `Ordered`. -/
theorem Ordered.performAll (hs : s.Ordered older) (actions : List (Action α)) :
    (s.performAll actions).Ordered (s.stackings older actions) := by
  induction actions generalizing s older with
  | nil => exact hs
  | cons a rest ih => exact ih ((s.perform_effect a).ordered hs)

/-- Whatever was done, the links of a session are in the order of its `stackings`, back to the last
layout. -/
theorem IsNew.ordered (h : s₀.IsNew) (actions : List (Action α)) :
    (s₀.performAll actions).Ordered (s₀.stackings [] actions) := by
  refine Ordered.performAll (fun d hd => ?_) actions
  obtain ⟨config, rfl, -⟩ := h.exists_blank
  cases hd

/-- Right after a layout, links are `InOrder` by its heights, and then by their positions. -/
theorem IsNew.inOrder_of_isLayout (h : s₀.IsNew) (ha : a.isLayout)
    (hd : (s₀.performAll (actions ++ [a])).diagram = some d) : d.InOrder [d] := by
  have hordered := h.ordered (actions ++ [a]) d hd
  rw [performAll_append_singleton] at hd
  rw [stackings_append_singleton] at hordered
  cases a with
  | layout | layoutConfigured =>
    rw [stackingsAfter, hd] at hordered
    exact hordered
  | configure | setFlows | relayout | moveNode => cases ha

/-- `relayout` of a session with a diagram `d` leaves it with `d.withSlots`. -/
theorem perform_relayout (hd : s.diagram = some d) :
    s.perform .relayout = ({ s with diagram := some d.withSlots }, none) := by
  rw [perform, relayout, hd]
  rfl

/-- A last `relayout` leaves a session with `d.withSlots`. -/
theorem performAll_relayout (hd : (s.performAll actions).diagram = some d) :
    (s.performAll (actions ++ [.relayout])).diagram = some d.withSlots := by
  rw [performAll_append_singleton, perform_relayout hd]

end Session

/-! ## Two diagrams that differ in ties -/

namespace Diagram

variable {d e : Diagram α} {side : Side} {id : NodeId}

/-- On a side of a node, links that lead to one height stand in the same order in two diagrams. -/
def SameTies (e d : Diagram α) (side : Side) (id : NodeId) : Prop :=
  ∀ l, ((e.node id).linksAt side).filter (ties (e.above side) l)
    = ((d.node id).linksAt side).filter (ties (d.above side) l)

/-- On a side of a node, no two links lead to one height. -/
def Untied (d : Diagram α) (side : Side) (id : NodeId) : Prop :=
  ∀ l ∈ (d.node id).linksAt side, ∀ m ∈ (d.node id).linksAt side,
    d.above side l m → d.above side m l → l = m

/-- Diagrams with one `unstacked` get the same order on a side iff they are `SameTies` there. -/
theorem linksAt_withSlots_eq_iff (h : e.unstacked = d.unstacked) :
    (e.withSlots.node id).linksAt side = (d.withSlots.node id).linksAt side
      ↔ e.SameTies d side id := by
  have habove := above_of_unstacked h side
  have he := e.restacks_withSlots.stableSort side id
  have hd := d.restacks_withSlots.stableSort side id
  constructor
  · intro hsame l
    rw [← he.ties_eq, ← hd.ties_eq, hsame, habove]
  · intro hties
    have hsorted := he.sorted
    rw [habove] at hsorted
    refine eq_of_ties (d.above_refl side) hsorted hd.sorted fun l => ?_
    rw [hd.ties_eq, ← hties, ← he.ties_eq, habove]

/-- Where links are `Untied`, all diagrams with one `unstacked` are `SameTies`. -/
theorem Untied.sameTies (huntied : d.Untied side id) (h : e.unstacked = d.unstacked)
    (hdraw : e.Redraws d) : e.SameTies d side id := by
  have habove := above_of_unstacked h side
  have he := e.restacks_withSlots.stableSort side id
  have hd := d.restacks_withSlots.stableSort side id
  have hperm := hdraw.linksAt_perm side id
  have hsorted := he.sorted
  rw [habove] at hsorted
  rw [← linksAt_withSlots_eq_iff h]
  refine List.Perm.eq_of_pairwise (fun l m hl hm hlm hml => ?_) hsorted hd.sorted
    ((he.perm.trans hperm).trans hd.perm.symm)
  exact huntied l (hperm.mem_iff.1 (he.perm.mem_iff.1 hl)) m (hd.perm.mem_iff.1 hm) hlm hml

section SameButTies

variable (h : e.unstacked = d.unstacked) (he : e.WellFormed) (hd : d.WellFormed)
include h he hd

/-- Where diagrams are `SameTies`, `withSlots` gives links the same slots. -/
theorem SameTies.slotAt_withSlots (hties : e.SameTies d side id) {l : LinkId}
    (hl : l ∈ (d.withSlots.node id).linksAt side) :
    (e.withSlots.link l).slotAt side = (d.withSlots.link l).slotAt side := by
  have hsame : e.withSlots.unstacked = d.withSlots.unstacked := by
    rw [unstacked_withSlots, unstacked_withSlots, h]
  have hlinks := (linksAt_withSlots_eq_iff h).2 hties
  exact he.inStacks_withSlots.slotAt_eq hd.inStacks_withSlots
    (SamePlaces.of_unstacked hsame).dy_link hlinks hl

/-- Diagrams with one `unstacked` become equal by `withSlots` iff they are `SameTies` on all
sides. -/
theorem withSlots_eq_iff : e.withSlots = d.withSlots ↔ ∀ side id, e.SameTies d side id := by
  have hsame : e.withSlots.unstacked = d.withSlots.unstacked := by
    rw [unstacked_withSlots, unstacked_withSlots, h]
  constructor
  · intro heq side id
    rw [← linksAt_withSlots_eq_iff h, heq]
  · intro hties
    have hlinks : ∀ side id, (e.withSlots.node id).linksAt side
        = (d.withSlots.node id).linksAt side :=
      fun side id => (linksAt_withSlots_eq_iff h).2 (hties side id)
    have hsize : e.withSlots.links.size = d.withSlots.links.size := by
      simpa [unstacked] using congrArg (fun d => d.links.size) hsame
    exact eq_of_unstacked hsame hlinks (he.inStacks_withSlots.slotAt_eq_of_linksAt
      hd.inStacks_withSlots (d.redraws_withSlots.wellFormed hd) hsize
      (SamePlaces.of_unstacked hsame).dy_link hlinks)

end SameButTies

/-! ## Edits -/

/-- `flattened` and `unstacked` commute. -/
theorem flattened_unstacked (d : Diagram α) : d.unstacked.flattened = d.flattened.unstacked := by
  simp [unstacked, flattened, Function.comp_def, Node.unlinked]

/-- A diagram is another after moves of nodes and with its links put into order. -/
structure EditOf (e d : Diagram α) : Prop where
  /-- `e` differs from `d` in upper edges, the order of links and their slots alone. -/
  flattened : e.unstacked.flattened = d.unstacked.flattened
  /-- `e` has the nodes and links of `d`. -/
  redraws : e.Redraws d

namespace EditOf

/-- A diagram is an `EditOf` itself. -/
theorem refl (d : Diagram α) : d.EditOf d := ⟨rfl, redraws_of_flattened rfl⟩

/-- `setTop` gives an `EditOf` again. -/
theorem setTop (h : e.EditOf d) (id : NodeId) (y : α) : (e.setTop id y).EditOf d where
  flattened := by
    rw [flattened_unstacked, flattened_setTop, ← flattened_unstacked]
    exact h.flattened
  redraws := (redraws_setTop e id y).trans h.redraws

/-- `withSlots` gives an `EditOf` again. -/
theorem withSlots (h : e.EditOf d) : e.withSlots.EditOf d where
  flattened := by
    rw [unstacked_withSlots]
    exact h.flattened
  redraws := e.redraws_withSlots.trans h.redraws

/-- Two diagrams that are an `EditOf` one, with the same upper edges, have one `unstacked`. -/
theorem unstacked_eq {e' : Diagram α} (h : e.EditOf d) (h' : e'.EditOf d)
    (hy : ∀ id, (e'.node id).y = (e.node id).y) : e'.unstacked = e.unstacked := by
  refine eq_of_flattened (h'.flattened.trans h.flattened.symm) fun id => ?_
  rw [node_unstacked, node_unstacked]
  exact hy id

end EditOf

end Diagram

namespace Session

variable {s next : Session α} {a : Action α} {actions : List (Action α)}
  {outcome : Option (LayoutError α)} {d e : Diagram α}

/-- An action with `isEdit` leaves an `EditOf` the diagram that a session had. -/
theorem Effect.shows_editOf (ha : a.isEdit) (h : s.Effect a next outcome)
    (hs : s.Shows fun _ _ e => e.EditOf d) : next.Shows fun _ _ e => e.EditOf d := by
  intro e he
  cases h with
  | restacked h =>
    obtain rfl := Option.some.inj he
    exact (hs _ h).withSlots
  | moved y h =>
    obtain rfl := Option.some.inj he
    exact (hs _ h).setTop ..
  | noNode | noneToRestack | noneToMove => exact hs e he
  | configured | misconfigured | given => cases ha
  | laidOut hlayout | notLaidOut hlayout =>
    exact absurd hlayout (Action.not_isLayout_of_isEdit ha)

/-- Actions with `isEdit` leave an `EditOf` the diagram that a session had. -/
theorem editOf_of_isEdit (hedits : ∀ a ∈ actions, a.isEdit) (hs : s.diagram = some d)
    (he : (s.performAll actions).diagram = some e) : e.EditOf d := by
  have hstart : s.Shows fun _ _ e => e.EditOf d := by
    intro e he
    rw [hs] at he
    obtain rfl := Option.some.inj he
    exact .refl d
  have hkept : (s.performAll actions).Shows fun _ _ e => e.EditOf d :=
    performAll_invariant (fun a ha => Effect.shows_editOf (hedits a ha)) hstart
  exact hkept e he

end Session

namespace Diagram

/-- How two diagrams compare once their links are put into order, if they differ in nothing that
this does not write. -/
structure SameButTies (e d : Diagram α) : Prop where
  /-- `e.withSlots` and `d.withSlots` differ in the order of links and their slots alone. -/
  unstacked : e.withSlots.unstacked = d.withSlots.unstacked
  /-- Where links to one height stood in the same order, all links do, and in the same slots. -/
  linksAt : ∀ side id, e.SameTies d side id →
    (e.withSlots.node id).linksAt side = (d.withSlots.node id).linksAt side ∧
      ∀ l ∈ (d.withSlots.node id).linksAt side,
        (e.withSlots.link l).slotAt side = (d.withSlots.link l).slotAt side
  /-- Links stood in the same order where no two of them lead to one height. -/
  sameTies_of_untied : ∀ side id, d.Untied side id → e.SameTies d side id
  /-- `e.withSlots = d.withSlots` iff links to one height stood in the same order on every side. -/
  eq_iff : e.withSlots = d.withSlots ↔ ∀ side id, e.SameTies d side id

/-- Two diagrams that are an `EditOf` one, with the same upper edges, are `SameButTies` once links
are put into order. -/
theorem EditOf.sameButTies {d e e' : Diagram α} (hd : d.WellFormed) (h : e.EditOf d)
    (h' : e'.EditOf d) (hy : ∀ id, (e'.node id).y = (e.node id).y) : e'.SameButTies e := by
  have hsame := h.unstacked_eq h' hy
  have hwf := h.redraws.wellFormed hd
  have hwf' := h'.redraws.wellFormed hd
  have hdraw : e'.Redraws e := h'.redraws.trans h.redraws.symm
  refine ⟨?_, fun side id hties => ⟨?_, fun l hl => ?_⟩, fun side id huntied => ?_, ?_⟩
  · rw [unstacked_withSlots, unstacked_withSlots, hsame]
  · exact (linksAt_withSlots_eq_iff hsame).2 hties
  · exact hties.slotAt_withSlots hsame hwf' hwf hl
  · exact huntied.sameTies hsame hdraw
  · exact withSlots_eq_iff hsame hwf' hwf

end Diagram

/-! ## Main statement -/

namespace Session

/-- **Right after a layout, links are `InOrder` by the heights of the nodes that they lead to, and
then by their positions. `relayout` keeps the order that they had before where they lead to one
height, which goes back to that layout. Two sessions with the same layout whose nodes were moved to
the same heights hold the same diagram then, but for the order of links to one height and their
slots: that is the one of before, and they hold the same diagram iff it is the same in both.** -/
theorem relayout_ties :
    (∀ (s₀ : Session α) (actions : List (Action α)) (a : Action α) (d : Diagram α), s₀.IsNew →
      a.isLayout → (s₀.performAll (actions ++ [a])).diagram = some d → d.InOrder [d]) ∧
    (∀ (s₀ : Session α) (actions : List (Action α)) (d : Diagram α), s₀.IsNew →
      (s₀.performAll actions).diagram = some d →
      (s₀.performAll (actions ++ [.relayout])).diagram = some d.withSlots ∧
        d.withSlots.Restacks d ∧
        d.withSlots.InOrder (d.withSlots :: s₀.stackings [] actions)) ∧
    ∀ (s s' laid laid' : Session α) (rounds : Nat) (first first' d d' : Diagram α)
      (edits edits' : List (Action α)),
      s'.names = s.names → s'.flows = s.flows → s'.config = s.config →
      s.layout rounds = (laid, .ok first) → s'.layout rounds = (laid', .ok first') →
      (∀ a ∈ edits, a.isEdit) → (∀ a ∈ edits', a.isEdit) →
      (laid.performAll edits).diagram = some d → (laid'.performAll edits').diagram = some d' →
      (∀ id, (d'.node id).y = (d.node id).y) →
      (laid.performAll (edits ++ [.relayout])).diagram = some d.withSlots ∧
        (laid'.performAll (edits' ++ [.relayout])).diagram = some d'.withSlots ∧
        d'.SameButTies d := by
  refine ⟨fun s₀ actions a d h ha hd => h.inOrder_of_isLayout ha hd,
    fun s₀ actions d h hd => ⟨performAll_relayout hd, d.restacks_withSlots,
      (h.ordered actions d hd).withSlots⟩, ?_⟩
  intro s s' laid laid' rounds first first' d d' edits edits' hnames hflows hconfig hlayout hlayout'
    hedits hedits' hd hd' hy
  obtain ⟨base, hbase, rfl, hlaid⟩ := exists_of_layout hlayout
  obtain ⟨base', hbase', rfl, hlaid'⟩ := exists_of_layout hlayout'
  -- the two layouts are one
  rw [hnames, hflows, hbase] at hbase'
  obtain rfl := Except.ok.inj hbase'
  rw [hconfig] at hlaid'
  obtain ⟨-, hbaseWf, -⟩ := Diagram.wellFormed_ofFlows hbase
  have hwf := (base.redraws_placed s.config rounds).wellFormed hbaseWf
  have hedit := editOf_of_isEdit hedits hlaid hd
  have hedit' := editOf_of_isEdit hedits' hlaid' hd'
  exact ⟨performAll_relayout hd, performAll_relayout hd', hedit.sameButTies hwf hedit' hy⟩

end Session

/-! ## Two ways to one place -/

namespace Diagram

/-- `(d.node id).y` among the upper edges of all nodes. -/
theorem y_node_eq (d : Diagram α) (id : NodeId) :
    (d.node id).y = (d.nodes.map Node.y).getD id.index 0 := by
  rw [node, Array.getD_eq_getD_getElem?, Array.getD_eq_getD_getElem?, Array.getElem?_map]
  cases d.nodes[id.index]? <;> rfl

end Diagram

namespace Session

/-- What a `view` shows after `relayout` it shows of `d.withSlots`. -/
theorem exists_of_relayout {β : Type} {view : Diagram α → β} {seen : β} {s : Session α}
    {actions : List (Action α)}
    (h : (s.performAll (actions ++ [.relayout])).diagram.map view = some seen) :
    ∃ d, (s.performAll actions).diagram = some d ∧ view d.withSlots = seen := by
  cases hd : (s.performAll actions).diagram with
  | none =>
    rw [performAll_append_singleton, perform, relayout, hd] at h
    simp [toOutcome] at h
  | some d =>
    rw [performAll_relayout hd] at h
    exact ⟨d, rfl, Option.some.inj h⟩

/-- The nodes of a fan. -/
def fanNames : List String := ["a", "b", "c"]

/-- Flows from the first node to the two others. -/
def fanFlows : List (Flow Binary64) :=
  [⟨.named "a", .named "b", 1⟩, ⟨.named "a", .named "c", 1⟩]

/-- The fan is laid out. -/
def fanned : List (Action Binary64) := [.setFlows fanNames fanFlows, .layout 0]

/-- The two other nodes are moved to one height. -/
def straight : List (Action Binary64) := [.moveNode ⟨1⟩ 20, .moveNode ⟨2⟩ 20]

/-- The two other nodes are moved to one height, but links are put into order while the second is
above the first. -/
def crossing : List (Action Binary64) :=
  [.moveNode ⟨1⟩ 20, .moveNode ⟨2⟩ 0, .relayout, .moveNode ⟨2⟩ 20]

/-- The heights of nodes, the links that leave the first of them, and whether its first link may
stand above the second. -/
def fanView (d : Diagram Binary64) : Array Binary64 × List LinkId × Bool :=
  (d.nodes.map Node.y, (d.node ⟨0⟩).outgoing, d.above .outgoing ⟨0⟩ ⟨1⟩)

/-- What `fanView` shows after either way: the same upper edges, and two orders of the links. -/
theorem fanView_performAll :
    (standard.performAll (fanned ++ straight ++ [.relayout])).diagram.map fanView
        = some (#[0, 20, 20], [⟨0⟩, ⟨1⟩], true) ∧
      (standard.performAll (fanned ++ crossing ++ [.relayout])).diagram.map fanView
        = some (#[0, 20, 20], [⟨1⟩, ⟨0⟩], true) := by
  -- sorting by merging is not evaluated by the kernel, sorting by insertion is
  simp only [performAll, perform, layout, toOutcome, relayout, moveNode,
    Diagram.ofFlowsPlaced, Diagram.placed, Diagram.withColumns, Columns.settled,
    Diagram.withSlots, Diagram.withLinkOrder, Diagram.fromTop_eq_insertionSort,
    Diagram.fromTopEnd_eq_insertionSort]
  decide +kernel

/-- `fanView` shows the upper edges of all nodes, which `withSlots` leaves. -/
theorem y_eq_of_fanView {d d' : Diagram Binary64}
    (h : (fanView d'.withSlots).1 = (fanView d.withSlots).1) (id : NodeId) :
    (d'.node id).y = (d.node id).y := by
  have hkept : ∀ d : Diagram Binary64, (d.withSlots.node id).y = (d.node id).y := by
    intro d
    rw [Diagram.node_withSlots]
  have hy := d'.withSlots.y_node_eq id
  rw [show d'.withSlots.nodes.map Node.y = d.withSlots.nodes.map Node.y from h,
    ← Diagram.y_node_eq] at hy
  rwa [hkept, hkept] at hy

/-- Two sessions that differ in a detour of a node, which both leave at the height of another: the
links to the two are in the order of their positions after `straight`, and the other way round after
`crossing`. -/
theorem relayout_fan :
    ∃ d d' : Diagram Binary64,
      (standard.performAll (fanned ++ straight ++ [.relayout])).diagram = some d ∧
      (standard.performAll (fanned ++ crossing ++ [.relayout])).diagram = some d' ∧
      (∀ id, (d'.node id).y = (d.node id).y) ∧ ¬d'.InOrder [d'] ∧ d' ≠ d := by
  obtain ⟨d, hd, hview⟩ := exists_of_relayout fanView_performAll.1
  obtain ⟨d', hd', hview'⟩ := exists_of_relayout fanView_performAll.2
  have hy : ∀ id, (d'.node id).y = (d.node id).y := by
    refine y_eq_of_fanView ?_
    rw [hview, hview']
  simp only [fanView, Prod.mk.injEq] at hview hview'
  refine ⟨d.withSlots, d'.withSlots, performAll_relayout hd, performAll_relayout hd', fun id => ?_,
    fun hinOrder => ?_, fun hsame => ?_⟩
  · rw [Diagram.node_withSlots, Diagram.node_withSlots]
    exact hy id
  · have hlinks : (d'.withSlots.node ⟨0⟩).linksAt .outgoing = [⟨1⟩, ⟨0⟩] := hview'.2.1
    have hbefore := hinOrder .outgoing ⟨0⟩
    rw [hlinks, List.pairwise_pair] at hbefore
    -- the first link may stand above the second too, so their positions would have to be in order
    have hlt : 1 < 0 := hbefore.2 hview'.2.2
    omega
  · rw [hsame, hview.2.1] at hview'
    exact absurd hview'.2.1 (by decide)

/-- `fanFlows` are accepted. -/
theorem exists_ofFlows_fan : ∃ base, Diagram.ofFlows fanNames fanFlows = .ok base := by
  cases hbase : Diagram.ofFlows fanNames fanFlows with
  | error reason =>
    have hok : (Diagram.ofFlows fanNames fanFlows).toBool := by decide +kernel
    rw [hbase] at hok
    cases hok
  | ok base => exact ⟨base, rfl⟩

/-- The session after `fanned` is that of its layout. -/
theorem exists_fan_layout :
    ∃ laid first, (setFlows standard fanNames fanFlows).layout 0 = (laid, .ok first) ∧
      laid.diagram = some first ∧ standard.performAll fanned = laid := by
  obtain ⟨base, hbase⟩ := exists_ofFlows_fan
  let given : Session Binary64 := setFlows standard fanNames fanFlows
  have hgiven : Diagram.ofFlows given.names given.flows = .ok base := hbase
  have hlaid := layout_of_ofFlows hgiven 0
  exact ⟨_, _, hlaid, rfl, congrArg (fun result => (toOutcome result).1) hlaid⟩

/-- The fan after its layout, and after `straight` or `crossing`. -/
theorem relayout_ties_fan :
    ∃ first d d' : Diagram Binary64,
      (standard.performAll fanned).diagram = some first ∧ first.InOrder [first] ∧
      (standard.performAll (fanned ++ straight)).diagram = some d ∧
      (standard.performAll (fanned ++ crossing)).diagram = some d' ∧
      d'.withSlots.InOrder (d'.withSlots :: standard.stackings [] (fanned ++ crossing)) ∧
      (∀ id, (d'.node id).y = (d.node id).y) ∧ d'.SameButTies d := by
  obtain ⟨d, hd, hview⟩ := exists_of_relayout fanView_performAll.1
  obtain ⟨d', hd', hview'⟩ := exists_of_relayout fanView_performAll.2
  have hy : ∀ id, (d'.node id).y = (d.node id).y := by
    refine y_eq_of_fanView ?_
    rw [hview, hview']
  obtain ⟨laid, first, hlayout, hfirst, hfanned⟩ := exists_fan_layout
  obtain ⟨hordered, hrelayout, htwo⟩ := relayout_ties (α := Binary64)
  have hnew : (standard : Session Binary64).IsNew := Or.inl rfl
  have hstraight : (laid.performAll straight).diagram = some d := by
    rw [← hfanned, ← performAll_append, hd]
  have hcrossing : (laid.performAll crossing).diagram = some d' := by
    rw [← hfanned, ← performAll_append, hd']
  -- one layout, with two ways to the same heights
  have hsame := htwo _ _ laid laid 0 first first d d' straight crossing rfl rfl rfl hlayout hlayout
    (by decide) (by decide) hstraight hcrossing hy
  rw [← hfanned] at hfirst
  exact ⟨first, d, d', hfirst, hordered standard [.setFlows fanNames fanFlows] (.layout 0) first
    hnew rfl hfirst, hd, hd', (hrelayout standard _ d' hnew hd').2.2, hy, hsame.2.2⟩

end Session

end SankeyDiagram
