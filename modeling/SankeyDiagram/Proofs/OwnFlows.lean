import SankeyDiagram.Proofs.Agreement
import SankeyDiagram.Proofs.Signs

/-! # The flows of a diagram

The links of a diagram, taken as flows themselves, make the same diagram. So a layout does not
depend on how the flow between two nodes is split, nor on the flows that were left out.

* **`Diagram.ownFlows`** the links of a diagram as flows.
* **`Diagram.recounted`** a diagram whose links count one flow each, without flows left out.
* **`Intake.Amounts`** links have amounts that flows may have; **`Intake.Amounts.takeAll`** taking
  flows keeps this.
* **`Intake.takeAll_resolved`** links that make no cycle are taken one by one, and none is left out
  or absorbed.
* **`Diagram.ofFlows_ownFlows`**, **`Diagram.ofFlowsPlaced_ownFlows`** the flows of a diagram make
  the same diagram and are laid out alike. -/

namespace SankeyDiagram

/-! ## Links as flows -/

section Links

variable {α : Type}

namespace Link

/-- A link as a flow between positions. -/
def asFlow (l : Link α) : Flow α := ⟨.position l.source.index, .position l.target.index, l.value⟩

/-- A link as a flow that was resolved. -/
def resolved (l : Link α) : ResolvedFlow α := ⟨l.source, l.target, l.value⟩

/-- A link that counts one flow, which is at a position. -/
def recounted (position : Nat) (l : Link α) : Link α :=
  { l with merged := 1, inputIndex := position }

/-- `l.resolved` joins the nodes that `l` joins. -/
@[simp] theorem arc_resolved (l : Link α) : l.resolved.arc = l.arc := rfl

end Link

namespace Diagram

/-- The links of a diagram as flows. -/
def ownFlows (d : Diagram α) : List (Flow α) := d.links.toList.map Link.asFlow

/-- The diagram with links that count one flow each, the one at the position of the link, and
without flows left out. -/
def recounted (d : Diagram α) : Diagram α :=
  { d with links := d.links.mapIdx Link.recounted, circularLinks := [] }

end Diagram

namespace Intake

/-- Links that count one flow each, and no flows left out. -/
def recounted (s : Intake α) : Intake α := ⟨s.links.mapIdx Link.recounted, []⟩

end Intake

end Links

variable {α : Type} [Scalar α]

/-! ## Amounts -/

/-- An ordinary number that is not below zero, as a flow has to be. -/
def Scalar.IsAmount (a : α) : Prop := Scalar.isFinite a = true ∧ ¬a < 0

namespace Intake

variable {s next : Intake α} {flow : ResolvedFlow α} {flows : List (ResolvedFlow α)}
  {n position : Nat}

/-- The values of links are amounts that flows may have. -/
def Amounts (s : Intake α) : Prop := ∀ l ∈ s.links, Scalar.IsAmount l.value

namespace Amounts

/-- `Intake.take` keeps `Amounts`: the sum in the link that absorbs a flow was found to be an
ordinary number. -/
theorem take (hadd : ∀ a b : α, ¬a < 0 → ¬b < 0 → ¬a + b < 0) (hnodup : s.arcs.Nodup)
    (hs : s.Amounts) (hflow : Scalar.IsAmount flow.value)
    (h : s.take n flow position = .ok next) : next.Amounts := by
  rw [Intake.take] at h
  split at h
  case h_1 link hfind =>
    split at h
    case isTrue hfinite =>
      rw [← Except.ok.inj h]
      intro l hl
      obtain ⟨old, hold, rfl⟩ := List.mem_map.1 hl
      split
      case isTrue hjoins =>
        -- no other link joins the nodes of the flow, so this is the one that was found
        have hlink : link.joins flow.source flow.target := by simpa using List.find?_some hfind
        have harc : old.arc = link.arc := by
          rw [(Link.joins_iff ..).1 hjoins, (Link.joins_iff ..).1 hlink]
        obtain rfl : old = link :=
          List.inj_on_of_nodup_map hnodup hold (List.mem_of_find?_eq_some hfind) harc
        exact ⟨hfinite, hadd _ _ (hs old hold).2 hflow.2⟩
      case isFalse => exact hs old hold
    case isFalse => cases h
  case h_2 =>
    split at h
    case isTrue =>
      rw [← Except.ok.inj h]
      exact hs
    case isFalse =>
      rw [← Except.ok.inj h]
      intro l hl
      rcases List.mem_append.1 hl with hold | hnew
      · exact hs l hold
      · rw [List.mem_singleton.1 hnew]
        exact hflow

/-- `Intake.takeAll` keeps `Amounts`. -/
theorem takeAll (hadd : ∀ a b : α, ¬a < 0 → ¬b < 0 → ¬a + b < 0) {final : Intake α}
    {more : List (ResolvedFlow α)} (haccounts : s.Accounts flows) (hs : s.Amounts)
    (hn : ArcsBelow n ((flows ++ more).map ResolvedFlow.arc))
    (hmore : ∀ flow ∈ more, Scalar.IsAmount flow.value)
    (hrun : s.takeAll n more flows.length = .ok final) : final.Amounts := by
  induction more generalizing flows s with
  | nil =>
    rw [Intake.takeAll] at hrun
    rwa [← Except.ok.inj hrun]
  | cons flow more ih =>
    rw [Intake.takeAll] at hrun
    split at hrun
    · cases hrun
    · rename_i next hstep
      rw [List.forall_mem_cons] at hmore
      have hfirst : ArcsBelow n (flows.map ResolvedFlow.arc) := hn.of_map_append
      -- what a step needs of the links, it leaves of them
      have hamounts := hs.take hadd haccounts.nodup_arcs hmore.1 hstep
      rw [List.append_cons] at hn
      refine ih (haccounts.take hfirst hstep) hamounts hn hmore.2 ?_
      rwa [List.length_append, List.length_singleton]

/-- The links of `takeAll` over flows that `resolveAll` gave have `Amounts`. -/
theorem of_resolveAll (hadd : ∀ a b : α, ¬a < 0 → ¬b < 0 → ¬a + b < 0) {names : List String}
    {given : List (Flow α)} {intake : Intake α} (hresolve : resolveAll names given = .ok flows)
    (htake : Intake.empty.takeAll names.length flows 0 = .ok intake) : intake.Amounts := by
  refine takeAll hadd Intake.empty_accounts ?_ (arcsBelow_of_resolveAll hresolve) ?_ htake
  · intro l hl
    cases hl
  · intro flow hmem
    obtain ⟨origin, position, horigin⟩ := resolve_of_mem_resolveAll hresolve hmem
    exact (Flow.resolve_eq_ok horigin).1

end Amounts

/-! ## Taking links -/

/-- `s.take n flow position` is `s.accepted flow position` if no link is between its nodes and no
way leads back. -/
theorem take_eq_accepted (hn : ArcsBelow n s.arcs) (hmem : flow.arc ∉ s.arcs)
    (hreach : ¬Reaches s.arcs flow.target flow.source) :
    s.take n flow position = .ok (s.accepted flow position) := by
  rw [take, find?_joins_eq_none_iff.2 hmem]
  simp only
  rw [if_neg fun h => hreach ((reaches_successors_iff hn).1 h)]
  rfl

/-- Links without a cycle, of which no two join the same nodes, are taken by `takeAll` one by one,
each at its own position. -/
theorem takeAll_resolved {links : List (Link α)} (hn : ArcsBelow n (s.arcs ++ links.map Link.arc))
    (hnodup : (s.arcs ++ links.map Link.arc).Nodup) (hac : Acyclic (s.arcs ++ links.map Link.arc)) :
    s.takeAll n (links.map Link.resolved) position = .ok { s with
      links := s.links ++ (links.zipIdx position).map fun (l, i) =>
        .unplaced l.source l.target l.value i } := by
  -- on the links to come; those taken before them stand in the intake
  induction links generalizing s position with
  | nil => simp [takeAll]
  | cons l rest ih =>
    have harcs : (s.accepted l.resolved position).arcs ++ rest.map Link.arc
        = s.arcs ++ (l :: rest).map Link.arc := by
      rw [arcs_accepted, Link.arc_resolved, List.map_cons, ← List.append_cons]
    have hold : s.arcs ⊆ s.arcs ++ (l :: rest).map Link.arc := List.subset_append_left ..
    have hmem : l.arc ∉ s.arcs := by
      rw [List.map_cons, List.nodup_append'] at hnodup
      exact fun h => hnodup.2.2 h List.mem_cons_self
    have hreach : ¬Reaches s.arcs l.target l.source := by
      intro hway
      exact acyclic_iff.1 hac l.arc (by simp) (hway.mono hold)
    have hstep : s.take n l.resolved position = .ok (s.accepted l.resolved position) :=
      take_eq_accepted (hn.of_subset hold) hmem hreach
    rw [← harcs] at hn hnodup hac
    rw [List.map_cons, takeAll, hstep]
    simp only
    rw [ih hn hnodup hac, List.zipIdx_cons, List.map_cons, accepted]
    simp only [List.append_assoc, List.singleton_append]
    rfl

/-- `s.recounted.links` are the links of `s` with `Link.unplaced` at their own positions. -/
theorem Accounts.links_recounted (h : s.Accounts flows) :
    s.recounted.links = s.links.zipIdx.map fun (l, i) => .unplaced l.source l.target l.value i := by
  rw [recounted, List.mapIdx_eq_zipIdx_map]
  refine List.map_congr_left fun ⟨l, i⟩ ho => ?_
  have hl : l ∈ s.links := List.fst_mem_of_mem_zipIdx ho
  obtain ⟨first, later, -, rfl, -⟩ := h.exists_occurrences hl
  rw [Link.ofOccurrences_eq]
  rfl

/-! ## The diagram of links -/

omit [Scalar α] in
/-- `linkIds` finds links by a `test` that does not read how many flows they count. -/
theorem linkIds_recounted (links : List (Link α)) {test : Link α → Bool}
    (htest : ∀ position l, test (l.recounted position) = test l) :
    linkIds (links.mapIdx Link.recounted) test = linkIds links test := by
  rw [linkIds_eq_map_range, linkIds_eq_map_range, List.length_mapIdx]
  refine congrArg _ (List.filter_congr fun i _ => ?_)
  rw [List.getElem?_mapIdx, Option.any_map]
  exact congrArg (Option.any · links[i]?) (funext fun l => htest i l)

/-- `Intake.diagram` and `recounted` commute. -/
theorem diagram_recounted (s : Intake α) (names : List String) :
    s.recounted.diagram names = (s.diagram names).recounted := by
  have hnode : node s.recounted.links = node s.links := by
    funext position name
    have hsource : linkIds s.recounted.links (fun link => link.source = ⟨position⟩)
        = linkIds s.links fun link => link.source = ⟨position⟩ :=
      linkIds_recounted s.links fun _ _ => rfl
    have htarget : linkIds s.recounted.links (fun link => link.target = ⟨position⟩)
        = linkIds s.links fun link => link.target = ⟨position⟩ :=
      linkIds_recounted s.links fun _ _ => rfl
    rw [node, hsource, htarget, node]
  rw [diagram, hnode, diagram, Diagram.recounted]
  simp [recounted]

end Intake

/-- `l.asFlow` is resolved to `l.resolved` if `l` joins two of the nodes and carries an amount. -/
theorem Link.resolve_asFlow {names : List String} {l : Link α}
    (hsource : l.source.index < names.length) (htarget : l.target.index < names.length)
    (hvalue : Scalar.IsAmount l.value) (position : Nat) :
    l.asFlow.resolve names position = .ok l.resolved := by
  rw [Flow.resolve, if_neg, asFlow, Endpoint.resolve, Endpoint.resolve, if_pos hsource,
    if_pos htarget]
  · rfl
  · rw [not_or]
    exact ⟨by simpa [asFlow] using hvalue.1, hvalue.2⟩

/-- `resolveAll` of `links.map Link.asFlow` is `links.map Link.resolved`. -/
theorem resolveAll_asFlow {names : List String} {links : List (Link α)}
    (hn : ArcsBelow names.length (links.map Link.arc))
    (hvalue : ∀ l ∈ links, Scalar.IsAmount l.value) :
    resolveAll names (links.map Link.asFlow) = .ok (links.map Link.resolved) := by
  have hfrom : ∀ position, ((links.map Link.asFlow).zipIdx position).mapM
      (fun given => given.1.resolve names given.2) = .ok (links.map Link.resolved) := by
    induction links with
    | nil =>
      intro position
      rfl
    | cons l rest ih =>
      intro position
      rw [List.map_cons, ArcsBelow, List.forall_mem_cons] at hn
      rw [List.forall_mem_cons] at hvalue
      have hlink := Link.resolve_asFlow hn.1.1 hn.1.2 hvalue.1 position
      rw [List.map_cons, List.zipIdx_cons, List.mapM_cons]
      simp only [hlink, ih hn.2 hvalue.2]
      rfl
  exact hfrom 0

namespace Diagram

variable {d e : Diagram α} {names : List String} {flows : List (Flow α)}

/-! ## Diagrams whose links are counted again -/

/-- `d.recounted.link l` is `d.link l`, counting one flow. -/
theorem exists_link_recounted (d : Diagram α) (l : LinkId) :
    ∃ position, d.recounted.link l = (d.link l).recounted position := by
  by_cases hl : l.index < d.links.size
  · refine ⟨l.index, ?_⟩
    rw [link_of_lt _ (by simpa [recounted] using hl), d.link_of_lt hl]
    simp [recounted]
  · refine ⟨0, ?_⟩
    simp [link, recounted, Array.getD, hl, Link.recounted, Link.unplaced]

/-- `d.recounted` has the sums of `d`. -/
theorem flow_recounted (d : Diagram α) : d.recounted.flow = d.flow := by
  funext ids
  rw [flow, flow]
  refine congrArg _ (List.map_congr_left fun l _ => ?_)
  obtain ⟨position, hlink⟩ := d.exists_link_recounted l
  rw [hlink]
  rfl

/-- `d.recounted` has the overflowing sum of `d`, if any. -/
theorem overflowingFlow?_recounted (d : Diagram α) :
    d.recounted.overflowingFlow? = d.overflowingFlow? := by
  rw [overflowingFlow?, flow_recounted, overflowingFlow?]
  rfl

/-- `d.recounted` and `d` are `SameFlows`. -/
theorem sameFlows_recounted (d : Diagram α) : d.recounted.SameFlows d where
  size_nodes := rfl
  name _ := rfl
  linksAt _ _ := .refl _
  size_links := by simp [recounted]
  nearEnd side l := by
    obtain ⟨position, hlink⟩ := d.exists_link_recounted l
    rw [hlink]
    cases side <;> rfl
  value l := by
    obtain ⟨position, hlink⟩ := d.exists_link_recounted l
    rw [hlink]
    rfl
  roots := rfl

/-- `recounted` keeps `Redraws`. -/
theorem Redraws.recounted (h : e.Redraws d) : e.recounted.Redraws d.recounted where
  size_nodes := h.size_nodes
  name := h.name
  linksAt_perm := h.linksAt_perm
  links := by
    have hbare : ∀ d : Diagram α, d.recounted.links.map Link.bare
        = (d.links.map Link.bare).mapIdx Link.recounted := by
      intro d
      apply Array.ext
      · simp [Diagram.recounted]
      · intro i hi hi'
        simp [Diagram.recounted, Link.recounted, Link.bare]
    rw [hbare, h.links, hbare]
  circularLinks := rfl
  roots := h.roots

/-- `ownFlows` is read off what `Redraws` keeps. -/
theorem Redraws.ownFlows (h : e.Redraws d) : e.ownFlows = d.ownFlows := by
  have hbare : ∀ d : Diagram α, d.ownFlows = (d.links.map Link.bare).toList.map Link.asFlow := by
    intro d
    rw [Diagram.ownFlows, Array.toList_map, List.map_map]
    rfl
  rw [hbare, h.links, hbare]

/-- `d.recounted` and `d` are `SamePlaces`. -/
theorem samePlaces_recounted (d : Diagram α) : d.SamePlaces d.recounted where
  unlinked _ := rfl
  dy_link l := by
    obtain ⟨position, hlink⟩ := d.exists_link_recounted l
    rw [hlink]
    rfl
  layerCount := rfl
  warnings := rfl

/-! ## Layouts -/

/-- `placed` and `recounted` commute: no stage reads how many flows a link counts, or what is left
out. -/
theorem placed_recounted (hwf : d.WellFormed) (hac : Acyclic d.arcs) (config : Config α)
    (rounds : Nat) : d.recounted.placed config rounds = (d.placed config rounds).recounted := by
  have hplaces := d.sameFlows_recounted.samePlaces hwf hac config rounds
  have hflows := d.sameFlows_recounted.columns config rounds
  have hdraw : (d.recounted.placed config rounds).Redraws (d.placed config rounds).recounted :=
    (d.recounted.redraws_placed config rounds).trans (d.redraws_placed config rounds).recounted.symm
  have hcolumnsWf := (d.sameFlows_columns config rounds).wellFormed hwf
  have hlists : ∀ side id,
      (((d.recounted.withValues.withLayers config).withColumns config rounds).node id).linksAt side
        = (((d.withValues.withLayers config).withColumns config rounds).node id).linksAt side := by
    intro side id
    simp only [linksAt_withColumns, linksAt_withLayers, linksAt_withValues]
    rfl
  -- up to here the two differ in counts alone, and the last stage reads none
  rw [placed, placed] at *
  generalize (d.recounted.withValues.withLayers config).withColumns config rounds = e at *
  generalize (d.withValues.withLayers config).withColumns config rounds = c at *
  have hslotted : e.withSlots.SamePlaces c.withSlots :=
    (e.samePlaces_withSlots.trans hplaces).trans (.of_unstacked c.unstacked_withSlots.symm)
  have horder : ∀ side id, (e.withSlots.node id).linksAt side
      = (c.withSlots.node id).linksAt side := fun side id =>
    linksAt_withSlots_congr (hlists side id) fun l _ =>
      farCenter_congr (hflows.farEnd side l) fun id => Node.center_of_unlinked (hplaces.unlinked id)
  have hslots := (hflows.wellFormed hcolumnsWf).inStacks_withSlots.slotAt_eq_of_linksAt
    hcolumnsWf.inStacks_withSlots (c.redraws_withSlots.wellFormed hcolumnsWf)
    (by simpa [recounted] using hdraw.size_links) hslotted.dy_link horder
  refine eq_of_unstacked ?_ horder fun side l => ?_
  · exact (hslotted.trans c.withSlots.samePlaces_recounted).unstacked_eq hdraw
  · obtain ⟨position, hlink⟩ := c.withSlots.exists_link_recounted l
    rw [hslots, hlink]
    cases side <;> rfl

/-- `ofFlows names d.ownFlows = .ok d.recounted`. -/
theorem ofFlows_ownFlows (hadd : ∀ a b : α, ¬a < 0 → ¬b < 0 → ¬a + b < 0)
    (h : ofFlows names flows = .ok d) : ofFlows names d.ownFlows = .ok d.recounted := by
  obtain ⟨hnames, resolved, intake, hresolve, htake, rfl, hflow⟩ := ofFlows_eq_ok_iff.1 h
  have hbelow := arcsBelow_of_resolveAll hresolve
  have haccounts : intake.Accounts resolved := Intake.empty_accounts.takeAll hbelow htake
  have hlinks : ArcsBelow names.length (intake.links.map Link.arc) :=
    hbelow.of_subset haccounts.arcs_subset
  have hamounts : intake.Amounts := .of_resolveAll hadd hresolve htake
  have hown : (intake.diagram names).ownFlows = intake.links.map Link.asFlow := by
    simp [ownFlows, Intake.diagram]
  -- of these links none is left out, as they make no cycle, and none absorbs another
  have hagain : Intake.empty.takeAll names.length (intake.links.map Link.resolved) 0
      = .ok intake.recounted := by
    refine Eq.trans (Intake.takeAll_resolved hlinks haccounts.nodup_arcs haccounts.acyclic) ?_
    rw [Intake.empty, List.nil_append, ← haccounts.links_recounted]
    rfl
  rw [hown]
  refine ofFlows_eq_ok_iff.2 ⟨hnames, intake.links.map Link.resolved, intake.recounted,
    resolveAll_asFlow hlinks hamounts, hagain, Intake.diagram_recounted .., ?_⟩
  rw [overflowingFlow?_recounted, hflow]

/-- `ofFlowsPlaced` gives `d.recounted` from `d.ownFlows`, with any scalar in which sums of amounts
are not negative. -/
theorem ofFlowsPlaced_of_ownFlows (hadd : ∀ a b : α, ¬a < 0 → ¬b < 0 → ¬a + b < 0)
    {config : Config α} {rounds : Nat} (h : ofFlowsPlaced names flows config rounds = .ok d) :
    ofFlowsPlaced names d.ownFlows config rounds = .ok d.recounted := by
  obtain ⟨first, hfirst, rfl⟩ := ofFlowsPlaced_eq_ok_iff.1 h
  obtain ⟨-, hwf, hac⟩ := wellFormed_ofFlows hfirst
  rw [(first.redraws_placed config rounds).ownFlows]
  exact ofFlowsPlaced_eq_ok_iff.2
    ⟨first.recounted, ofFlows_ownFlows hadd hfirst, placed_recounted hwf hac config rounds⟩

/-! ## Main statement -/

section Main

variable {flows : List (Flow Binary64)} {d : Diagram Binary64} {config : Config Binary64}
  {rounds : Nat}

/-- **The links of a laid out diagram, taken as flows, are laid out as it is: the result is
`d.recounted`, in which nothing differs but that each link counts one flow, at its own position, and
that no flows are left out**. Flows that end up in the same links are laid out alike, however they
were split and whatever was left out beside them. -/
theorem ofFlowsPlaced_ownFlows (h : ofFlowsPlaced names flows config rounds = .ok d) :
    ofFlowsPlaced names d.ownFlows config rounds = .ok d.recounted ∧
      ∀ other e, ofFlowsPlaced names other config rounds = .ok e → e.ownFlows = d.ownFlows →
        e.recounted = d.recounted := by
  have hagain := ofFlowsPlaced_of_ownFlows (fun _ _ => Binary64.not_add_lt_zero) h
  refine ⟨hagain, fun other e he hown => ?_⟩
  have hother := ofFlowsPlaced_of_ownFlows (fun _ _ => Binary64.not_add_lt_zero) he
  rw [hown, hagain] at hother
  exact (Except.ok.inj hother).symm

/-- A flow, one on from its end, one back to where the first starts, and one more beside the
first. -/
def splitFlows : List (Flow Binary64) :=
  [⟨.named "a", .position 1, 1⟩, ⟨.named "b", .named "c", 0.5⟩, ⟨.named "c", .named "a", 2.5⟩,
    ⟨.position 0, .named "b", 0.5⟩]

/-- The link of `splitFlows` is laid out as one flow of their sum, and nothing shows that a flow
back was left out. -/
theorem ofFlowsPlaced_ownFlows_split :
    ∃ d, ofFlowsPlaced ["a", "b", "c"] splitFlows .standard 2 = .ok d ∧
      ofFlowsPlaced ["a", "b", "c"]
        [⟨.position 0, .position 1, 1.5⟩, ⟨.position 1, .position 2, 0.5⟩] .standard 2
          = .ok d.recounted := by
  have hown : (ofFlows ["a", "b", "c"] splitFlows).map ownFlows
      = .ok [⟨.position 0, .position 1, 1.5⟩, ⟨.position 1, .position 2, 0.5⟩] := by decide +kernel
  cases hfirst : ofFlows ["a", "b", "c"] splitFlows with
  | error reason =>
    rw [hfirst] at hown
    cases hown
  | ok first =>
    rw [hfirst] at hown
    have hplaced : ofFlowsPlaced ["a", "b", "c"] splitFlows .standard 2
        = .ok (first.placed .standard 2) := ofFlowsPlaced_eq_ok_iff.2 ⟨first, hfirst, rfl⟩
    obtain ⟨hagain, -⟩ := ofFlowsPlaced_ownFlows hplaced
    rw [(first.redraws_placed .standard 2).ownFlows, Except.ok.inj hown] at hagain
    exact ⟨first.placed .standard 2, hplaced, hagain⟩

end Main

end Diagram

end SankeyDiagram
