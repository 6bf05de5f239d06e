import Mathlib.Algebra.Group.End
import Mathlib.Logic.Equiv.Basic
import SankeyDiagram.Proofs.Agreement

/-! # The numbering of nodes

A caller who puts the nodes into another order gets the same diagram, with its nodes numbered in
that order. What counts is which nodes flows join, and in which order the flows come; neither the
search for cycles nor the sweep tells in which order nodes are numbered.

* **`Renumbers`** names in another order; **`Endpoint.Renumbers`**, **`Flow.Renumbers`** flows
  between the same nodes, each given by its position or by its name.
* **`Reaches.renumbered`**, **`Intake.takeAll_renumbered`** flows are taken alike.
* **`Diagram.Renumbers`** two diagrams are the same but for the numbers of their nodes;
  **`Diagram.Renumbers.withValues`**, **`Diagram.Renumbers.withLayers`** values and layers keep
  this.
* **`Diagram.ofFlows_renumbers`** flows between renumbered nodes make the renumbered diagram. -/

namespace SankeyDiagram

/-! ## Other numbers -/

/-- Names in another order: the one at a position is now at the new number of the position. -/
def Renumbers (p : Equiv.Perm Nat) (names others : List String) : Prop :=
  ∀ i, others[p i]? = names[i]?

/-- The new number of a node. -/
def NodeId.renumbered (p : Equiv.Perm Nat) (id : NodeId) : NodeId := ⟨p id.index⟩

/-- An arc between renumbered nodes. -/
def Arc.renumbered (p : Equiv.Perm Nat) (arc : Arc) : Arc :=
  (arc.1.renumbered p, arc.2.renumbered p)

section

variable {α : Type}

/-- A flow between renumbered nodes. -/
def ResolvedFlow.renumbered (p : Equiv.Perm Nat) (flow : ResolvedFlow α) : ResolvedFlow α :=
  { flow with source := flow.source.renumbered p, target := flow.target.renumbered p }

/-- A link between renumbered nodes. -/
def Link.renumbered (p : Equiv.Perm Nat) (l : Link α) : Link α :=
  { l with source := l.source.renumbered p, target := l.target.renumbered p }

/-- A flow that is left out between renumbered nodes. -/
def CircularLink.renumbered (p : Equiv.Perm Nat) (l : CircularLink α) : CircularLink α :=
  { l with source := l.source.renumbered p, target := l.target.renumbered p }

/-- Links and flows left out between renumbered nodes. -/
def Intake.renumbered (p : Equiv.Perm Nat) (s : Intake α) : Intake α :=
  ⟨s.links.map (·.renumbered p), s.circularLinks.map (·.renumbered p)⟩

end

/-- An endpoint is the same node as another was among names in their former order. Each of the two
may be given by its position or by its name. -/
inductive Endpoint.Renumbers (p : Equiv.Perm Nat) (names : List String) :
    Endpoint → Endpoint → Prop where
  /-- A position becomes its new number. -/
  | byPosition (i : Nat) : Renumbers p names (.position i) (.position (p i))
  /-- A name stays as it is. -/
  | byName (name : String) : Renumbers p names (.named name) (.named name)
  /-- A position becomes the name that stands there. -/
  | toName {i : Nat} {name : String} (h : names[i]? = some name) :
    Renumbers p names (.position i) (.named name)
  /-- A name becomes the position where it stands. -/
  | toPosition {i : Nat} {name : String} (h : names[i]? = some name) :
    Renumbers p names (.named name) (.position (p i))

/-- A flow joins the nodes that another joined before they were renumbered, and is as large. -/
structure Flow.Renumbers {α : Type} (p : Equiv.Perm Nat) (names : List String)
    (flow other : Flow α) : Prop where
  /-- The sources of the flows are one node, with its old and its new number. -/
  source : flow.source.Renumbers p names other.source
  /-- The targets of the flows are one node, with its old and its new number. -/
  target : flow.target.Renumbers p names other.target
  /-- The flows have the same amount. -/
  value : other.value = flow.value

variable {α : Type} {p : Equiv.Perm Nat} {names others : List String}

/-! ### Back to the former numbers -/

namespace NodeId

/-- `renumbered p` is injective. -/
theorem renumbered_inj {a b : NodeId} : a.renumbered p = b.renumbered p ↔ a = b := by
  cases a
  cases b
  simp [renumbered]

/-- `renumbered p.symm` undoes `renumbered p`. -/
@[simp] theorem renumbered_symm_renumbered (p : Equiv.Perm Nat) (id : NodeId) :
    (id.renumbered p).renumbered p.symm = id := by
  simp [renumbered]

/-- `renumbered p` undoes `renumbered p.symm`. -/
@[simp] theorem renumbered_renumbered_symm (p : Equiv.Perm Nat) (id : NodeId) :
    (id.renumbered p.symm).renumbered p = id := by
  simp [renumbered]

end NodeId

namespace Renumbers

/-- `Renumbers` is undone by `p.symm`. -/
theorem symm (h : Renumbers p names others) : Renumbers p.symm others names := by
  intro i
  have hi := h (p.symm i)
  rw [p.apply_symm_apply] at hi
  exact hi.symm

/-- A name is at `p i` iff one was at `i`. -/
theorem lt_length_iff (h : Renumbers p names others) (i : Nat) :
    p i < others.length ↔ i < names.length := by
  rw [← not_iff_not, not_lt, not_lt, ← List.getElem?_eq_none_iff, ← List.getElem?_eq_none_iff, h]

/-- `Renumbers` loses no name. -/
theorem length_le (h : Renumbers p names others) : names.length ≤ others.length := by
  have hnodup : ((List.range names.length).map p).Nodup := List.nodup_range.map p.injective
  have hsub : (List.range names.length).map p ⊆ List.range others.length := by
    intro j hj
    obtain ⟨i, hi, rfl⟩ := List.mem_map.1 hj
    exact List.mem_range.2 ((h.lt_length_iff i).2 (List.mem_range.1 hi))
  simpa using (hnodup.subperm hsub).length_le

/-- `Renumbers` keeps the number of names. -/
theorem length_eq (h : Renumbers p names others) : others.length = names.length :=
  h.symm.length_le.antisymm h.length_le

/-- `Renumbers` keeps names different. -/
theorem nodup (h : Renumbers p names others) (hnodup : names.Nodup) : others.Nodup := by
  rw [List.nodup_iff_getElem?_ne_getElem?] at hnodup ⊢
  intro i j hij hj heq
  have hi' : p.symm i < names.length := (h.symm.lt_length_iff i).2 (hij.trans hj)
  have hj' : p.symm j < names.length := (h.symm.lt_length_iff j).2 hj
  rw [← h.symm i, ← h.symm j] at heq
  rcases lt_trichotomy (p.symm i) (p.symm j) with hlt | hsame | hlt
  · exact hnodup _ _ hlt hj' heq
  · exact hij.ne (p.symm.injective hsame)
  · exact hnodup _ _ hlt hi' heq.symm

end Renumbers

/-! ## Endpoints -/

/-- `firstRepeat?` is `none` iff no two names are the same. -/
theorem firstRepeat?_eq_none_iff : firstRepeat? names = none ↔ names.Nodup := by
  have hnone : firstRepeat? names = none
      ↔ ∀ j name, names[j]? = some name → name ∉ names.take j := by
    rw [firstRepeat?, List.findSome?_eq_none_iff]
    simp only [Prod.forall, List.mk_mem_zipIdx_iff_getElem?, Option.map_eq_none_iff,
      List.idxOf?_eq_none_iff]
    exact forall_comm
  -- the first of two positions of a name is among those before the second
  rw [hnone, List.nodup_iff_getElem?_ne_getElem?]
  constructor
  · intro h i j hij hj heq
    refine h j names[j] (List.getElem?_eq_getElem hj) ?_
    rw [List.mem_iff_getElem?]
    refine ⟨i, ?_⟩
    rw [List.getElem?_take_of_lt hij, heq, List.getElem?_eq_getElem hj]
  · intro h j name hname hmem
    obtain ⟨i, hi⟩ := List.mem_iff_getElem?.1 hmem
    obtain ⟨hj, -⟩ := List.getElem?_eq_some_iff.1 hname
    rw [List.getElem?_take] at hi
    split at hi
    case isTrue hij => exact h i j hij hj (hi.trans hname.symm)
    case isFalse => cases hi

/-- Among names that are all different, `idxOf?` gives the only position of a name. -/
theorem idxOf?_eq_some_iff_of_nodup (h : names.Nodup) {name : String} {i : Nat} :
    names.idxOf? name = some i ↔ names[i]? = some name := by
  rw [List.idxOf?_eq_some_iff, List.getElem?_eq_some_iff]
  constructor
  · rintro ⟨hi, hname, -⟩
    exact ⟨hi, hname⟩
  · rintro ⟨hi, rfl⟩
    refine ⟨hi, rfl, fun j hji hj => ?_⟩
    exact hji.ne ((h.getElem_inj_iff).1 hj)

namespace Endpoint

/-- A position is resolved to the node there. -/
theorem resolve_position_eq_ok_iff {link i : Nat} {id : NodeId} :
    (position i).resolve names link = (.ok id : Except (FlowError α) NodeId)
      ↔ i < names.length ∧ id = ⟨i⟩ := by
  rw [resolve]
  split
  case isTrue hi => simp [hi, eq_comm]
  case isFalse hi => simp [hi]

/-- Among names that are all different, a name is resolved to the node of that name. -/
theorem resolve_named_eq_ok_iff (hnodup : names.Nodup) {link : Nat} {name : String} {id : NodeId} :
    (named name).resolve names link = (.ok id : Except (FlowError α) NodeId)
      ↔ names[id.index]? = some name := by
  rw [← idxOf?_eq_some_iff_of_nodup hnodup, resolve]
  split
  case h_1 i hi =>
    rw [hi, Except.ok.injEq, Option.some.injEq]
    exact ⟨fun h => by rw [← h], fun h => by rw [h]⟩
  case h_2 hnone => simp [hnone]

namespace Renumbers

variable {endpoint other : Endpoint}

/-- `Endpoint.Renumbers` is undone by `p.symm`. -/
theorem symm (hnames : SankeyDiagram.Renumbers p names others)
    (h : endpoint.Renumbers p names other) : other.Renumbers p.symm others endpoint := by
  -- a position is renumbered back to itself
  have hback : ∀ i, p.symm (p i) = i := p.symm_apply_apply
  cases h with
  | byPosition i =>
    conv => arg 4; rw [← hback i]
    exact .byPosition (p i)
  | byName name => exact .byName name
  | @toName i name h =>
    conv => arg 4; rw [← hback i]
    exact .toPosition ((hnames i).trans h)
  | @toPosition i name h => exact .toName ((hnames i).trans h)

/-- An endpoint that `Renumbers` another is resolved to the new number of its node. -/
theorem resolve (hnames : SankeyDiagram.Renumbers p names others) (hnodup : names.Nodup)
    (h : endpoint.Renumbers p names other) {link : Nat} {id : NodeId}
    (hid : endpoint.resolve names link = (.ok id : Except (FlowError α) NodeId)) :
    other.resolve others link = (.ok (id.renumbered p) : Except (FlowError α) NodeId) := by
  cases h with
  | byPosition i =>
    obtain ⟨hi, rfl⟩ := resolve_position_eq_ok_iff.1 hid
    exact resolve_position_eq_ok_iff.2 ⟨(hnames.lt_length_iff i).2 hi, rfl⟩
  | byName name =>
    rw [resolve_named_eq_ok_iff hnodup] at hid
    exact (resolve_named_eq_ok_iff (hnames.nodup hnodup)).2 ((hnames _).trans hid)
  | @toName i name hname =>
    obtain ⟨-, rfl⟩ := resolve_position_eq_ok_iff.1 hid
    exact (resolve_named_eq_ok_iff (hnames.nodup hnodup)).2 ((hnames i).trans hname)
  | @toPosition i name hname =>
    -- a name that stood at `i` stands there alone, so that its node has the new number of `i`
    rw [resolve_named_eq_ok_iff hnodup, ← idxOf?_eq_some_iff_of_nodup hnodup] at hid
    rw [← idxOf?_eq_some_iff_of_nodup hnodup, hid, Option.some.injEq] at hname
    have hlt : p i < others.length := by
      rw [hnames.lt_length_iff, ← hname]
      exact (List.getElem?_eq_some_iff.1 ((idxOf?_eq_some_iff_of_nodup hnodup).1 hid)).1
    exact resolve_position_eq_ok_iff.2 ⟨hlt, by rw [NodeId.renumbered, hname]⟩

end Renumbers

end Endpoint

/-! ## Flows -/

variable [Scalar α]

namespace Flow.Renumbers

variable {flow other : Flow α}

omit [Scalar α] in
/-- `Flow.Renumbers` is undone by `p.symm`. -/
theorem symm (hnames : SankeyDiagram.Renumbers p names others)
    (h : flow.Renumbers p names other) : other.Renumbers p.symm others flow :=
  ⟨h.source.symm hnames, h.target.symm hnames, h.value.symm⟩

/-- A flow that `Renumbers` another is resolved to one between the new numbers of its nodes. -/
theorem resolve (hnames : SankeyDiagram.Renumbers p names others) (hnodup : names.Nodup)
    (h : flow.Renumbers p names other) {link : Nat} {r : ResolvedFlow α}
    (hr : flow.resolve names link = .ok r) :
    other.resolve others link = .ok (r.renumbered p) := by
  obtain ⟨⟨hfinite, hneg⟩, hvalue, hsource, htarget⟩ := Flow.resolve_eq_ok hr
  rw [hvalue, ← h.value] at hfinite hneg
  rw [Flow.resolve_of_ends hfinite hneg (h.source.resolve hnames hnodup hsource)
    (h.target.resolve hnames hnodup htarget), h.value, ← hvalue]
  rfl

end Flow.Renumbers

/-- `resolveAll` and `renumbered p` commute. -/
theorem resolveAll_renumbered (hnames : Renumbers p names others) (hnodup : names.Nodup)
    {flows changed : List (Flow α)} (hflows : List.Forall₂ (Flow.Renumbers p names) flows changed)
    {resolved : List (ResolvedFlow α)} (h : resolveAll names flows = .ok resolved) :
    resolveAll others changed = .ok (resolved.map (·.renumbered p)) := by
  rw [resolveAll_eq_ok_iff] at h ⊢
  rw [List.forall₂_map_right_iff]
  induction h generalizing changed with
  | nil =>
    cases hflows
    exact .nil
  | cons hr _ ih =>
    cases hflows with
    | cons hflow hflows =>
      exact .cons (fun link => hflow.resolve hnames hnodup (hr link)) (ih hflows)

/-! ## Taking flows -/

/-- `Reaches` goes through `renumbered p`. -/
theorem Reaches.renumbered {arcs : List Arc} {a b : NodeId} (p : Equiv.Perm Nat)
    (h : Reaches arcs a b) :
    Reaches (arcs.map (Arc.renumbered p)) (a.renumbered p) (b.renumbered p) := by
  induction h with
  | refl => exact Reaches.refl _
  | @tail b c _ harc ih =>
    have hnew : Arc.renumbered p (b, c) ∈ arcs.map (Arc.renumbered p) := List.mem_map_of_mem harc
    exact ih.trans (.of_mem hnew)

/-- `Reaches` is the same among renumbered arcs. -/
theorem reaches_renumbered_iff {arcs : List Arc} {a b : NodeId} :
    Reaches (arcs.map (Arc.renumbered p)) (a.renumbered p) (b.renumbered p)
      ↔ Reaches arcs a b := by
  refine ⟨fun h => ?_, Reaches.renumbered p⟩
  have hback := h.renumbered p.symm
  have hid : Arc.renumbered p.symm ∘ Arc.renumbered p = id := by
    funext arc
    simp [Arc.renumbered]
  rwa [List.map_map, hid, List.map_id, NodeId.renumbered_symm_renumbered,
    NodeId.renumbered_symm_renumbered] at hback

namespace Intake

variable {s next : Intake α} {flow : ResolvedFlow α} {n position : Nat}

omit [Scalar α] in
/-- The arcs of `s.renumbered p` are those of `s`, renumbered. -/
theorem arcs_renumbered (s : Intake α) (p : Equiv.Perm Nat) :
    (s.renumbered p).arcs = s.arcs.map (Arc.renumbered p) := by
  rw [arcs, renumbered, arcs, List.map_map, List.map_map]
  rfl

/-- `Intake.take` and `renumbered p` commute. -/
theorem take_renumbered (hn : ArcsBelow n s.arcs) (hn' : ArcsBelow n (s.renumbered p).arcs) :
    (s.renumbered p).take n (flow.renumbered p) position
      = (s.take n flow position).map (·.renumbered p) := by
  have hjoins : ∀ l : Link α, (l.renumbered p).joins (flow.renumbered p).source
      (flow.renumbered p).target = l.joins flow.source flow.target := by
    intro l
    simp [Link.joins, Link.renumbered, ResolvedFlow.renumbered, NodeId.renumbered_inj]
  have hfind : (s.renumbered p).links.find?
        (·.joins (flow.renumbered p).source (flow.renumbered p).target)
      = (s.links.find? (·.joins flow.source flow.target)).map (·.renumbered p) := by
    rw [renumbered, List.find?_map]
    simp only [Function.comp_def, hjoins]
  rw [take, take, hfind]
  cases s.links.find? (·.joins flow.source flow.target) with
  | some link =>
    have hlinks : (s.links.map (·.renumbered p)).map (taking (flow.renumbered p))
        = (s.links.map (taking flow)).map (·.renumbered p) := by
      rw [List.map_map, List.map_map]
      refine List.map_congr_left fun l _ => ?_
      rw [Function.comp_apply, Function.comp_apply, taking, taking, hjoins]
      split <;> rfl
    show (if Scalar.isFinite (link.absorb flow.value).value then _ else _)
      = Except.map _ (if Scalar.isFinite (link.absorb flow.value).value then _ else _)
    split
    · exact congrArg Except.ok (congrArg (Intake.mk · _) hlinks)
    · rfl
  | none =>
    -- the search is carried out on tables in another order, but what it finds are walks
    have hreach : (successors n (s.renumbered p).links).reaches (flow.renumbered p).target
        (flow.renumbered p).source = (successors n s.links).reaches flow.target flow.source := by
      rw [Bool.eq_iff_iff, reaches_successors_iff hn, reaches_successors_iff hn']
      rw [← arcs, ← arcs, arcs_renumbered]
      exact reaches_renumbered_iff
    simp only [Option.map_none, hreach]
    split
    · simp [Except.map, renumbered, ResolvedFlow.renumbered, CircularLink.renumbered]
    · simp [Except.map, renumbered, ResolvedFlow.renumbered, Link.renumbered, Link.unplaced]

/-- `Intake.take` keeps `ArcsBelow`. -/
theorem arcsBelow_of_take (hn : ArcsBelow n s.arcs) (hflow : ArcsBelow n [flow.arc])
    (h : s.take n flow position = .ok next) : ArcsBelow n next.arcs := by
  rcases take_cases hn h with ⟨-, rfl⟩ | ⟨-, -, rfl⟩ | ⟨-, -, rfl⟩
  · rwa [arcs_absorbed]
  · exact hn
  · rw [arcs_accepted]
    intro arc harc
    rcases List.mem_append.1 harc with hold | hnew
    · exact hn arc hold
    · exact hflow arc hnew

/-- `Intake.takeAll` and `renumbered p` commute. -/
theorem takeAll_renumbered {flows : List (ResolvedFlow α)}
    (hp : ∀ i, p i < n ↔ i < n) (hn : ArcsBelow n s.arcs)
    (hflows : ArcsBelow n (flows.map ResolvedFlow.arc)) :
    (s.renumbered p).takeAll n (flows.map (·.renumbered p)) position
      = (s.takeAll n flows position).map (·.renumbered p) := by
  have hbelow : ∀ s : Intake α, ArcsBelow n s.arcs → ArcsBelow n (s.renumbered p).arcs := by
    intro s hn arc harc
    rw [arcs_renumbered] at harc
    obtain ⟨old, hold, rfl⟩ := List.mem_map.1 harc
    exact ⟨(hp _).2 (hn old hold).1, (hp _).2 (hn old hold).2⟩
  induction flows generalizing s position with
  | nil => rfl
  | cons flow flows ih =>
    rw [List.map_cons, ArcsBelow, List.forall_mem_cons] at hflows
    rw [List.map_cons, takeAll, takeAll, take_renumbered hn (hbelow s hn)]
    cases hstep : s.take n flow position with
    | error reason => rfl
    | ok next =>
      -- joined nodes stay below `n`, so that the next flow is taken alike too
      have hnext := arcsBelow_of_take hn (by simpa [ArcsBelow] using hflows.1) hstep
      exact ih hnext hflows.2

end Intake

/-! ## Renumbered diagrams -/

namespace Diagram

variable {d e : Diagram α} {id : NodeId} {l : LinkId}

/-- What holds of all nodes holds of `d.node id` wherever there is one. -/
theorem forall_mem_nodes_iff {q : Node α → Prop} :
    (∀ n ∈ d.nodes.toList, q n) ↔ ∀ id, d.hasNode id → q (d.node id) := by
  constructor
  · intro h id hid
    rw [hasNode_iff] at hid
    rw [d.node_of_lt hid]
    exact h _ (by simp)
  · intro h n hn
    obtain ⟨i, hi, rfl⟩ := List.getElem_of_mem hn
    rw [Array.length_toList] at hi
    have hnode : d.node ⟨i⟩ = d.nodes[i] := d.node_of_lt hi
    rw [Array.getElem_toList, ← hnode]
    exact h ⟨i⟩ (by simpa using hi)

/-- `overflowingFlow?` is `none` iff the flows on the two sides of every node add up to ordinary
numbers. -/
theorem overflowingFlow?_eq_none_iff :
    d.overflowingFlow? = none ↔ ∀ id, d.hasNode id →
      Scalar.isFinite (d.flow (d.node id).outgoing) ∧
        Scalar.isFinite (d.flow (d.node id).incoming) := by
  have hnodes : d.overflowingFlow? = none ↔ ∀ n ∈ d.nodes.toList,
      Scalar.isFinite (d.flow n.outgoing) ∧ Scalar.isFinite (d.flow n.incoming) := by
    rw [overflowingFlow?, Option.map_eq_none_iff, List.find?_eq_none]
    simp
  rw [hnodes, forall_mem_nodes_iff]

/-- A diagram is the same as another but for the numbers of its nodes. -/
structure Renumbers (p : Equiv.Perm Nat) (e d : Diagram α) : Prop where
  /-- `e` has as many nodes as `d`. -/
  size_nodes : e.nodes.size = d.nodes.size
  /-- `e` has a node at `id.renumbered p` iff `d` has one at `id`. -/
  hasNode : ∀ id, e.hasNode (id.renumbered p) = d.hasNode id
  /-- The node at `id.renumbered p` is the one at `id`, with the same links in the same order. -/
  node : ∀ id, e.node (id.renumbered p) = d.node id
  /-- Links are the same but for their ends. -/
  links : e.links = d.links.map (·.renumbered p)
  /-- The flows left out are the same but for their ends. -/
  circularLinks : e.circularLinks = d.circularLinks.map (·.renumbered p)
  /-- The roots are the same nodes. -/
  roots : e.roots.Perm (d.roots.map (·.renumbered p))
  /-- `e` has as many layers as `d`. -/
  layerCount : e.layerCount = d.layerCount
  /-- `e` reports the layers that `d` reports, with the same heights. -/
  warnings : e.warnings = d.warnings

/-- What holds of `id.renumbered p` for all `id` holds of all nodes. -/
theorem forall_renumbered (p : Equiv.Perm Nat) {q : NodeId → Prop}
    (h : ∀ id : NodeId, q (id.renumbered p))
    (id : NodeId) : q id := by
  simpa using h (id.renumbered p.symm)

namespace Renumbers

/-- `Renumbers` keeps which links exist. -/
theorem hasLink (h : e.Renumbers p d) (l : LinkId) : e.hasLink l = d.hasLink l := by
  rw [Diagram.hasLink, h.links, Array.size_map, Diagram.hasLink]

/-- `Renumbers` leaves links at their positions, between renumbered nodes. -/
theorem link (h : e.Renumbers p d) (hl : d.hasLink l) : e.link l = (d.link l).renumbered p := by
  have hl' : e.hasLink l := by rwa [h.hasLink]
  rw [hasLink_iff] at hl hl'
  rw [e.link_of_lt hl', d.link_of_lt hl]
  simp [h.links]

/-- `Renumbers` leaves arcs in their order, between renumbered nodes. -/
theorem arcs (h : e.Renumbers p d) : e.arcs = d.arcs.map (Arc.renumbered p) := by
  rw [Diagram.arcs, h.links, Diagram.arcs, Array.toList_map, List.map_map, List.map_map]
  rfl

/-- `Renumbers` keeps sums. -/
theorem flow (h : e.Renumbers p d) : e.flow = d.flow := by
  have hvalue : ∀ l, (e.link l).value = (d.link l).value := by
    intro l
    by_cases hl : d.hasLink l
    · rw [h.link hl]
      rfl
    · have hsize : e.links.size = d.links.size := by rw [h.links, Array.size_map]
      rw [link_eq_of_not_hasLink hsize hl]
  funext ids
  rw [Diagram.flow, Diagram.flow]
  simp only [hvalue]

/-- `Renumbers` keeps sums ordinary. -/
theorem overflowingFlow?_eq_none (h : e.Renumbers p d) (hd : d.overflowingFlow? = none) :
    e.overflowingFlow? = none := by
  rw [overflowingFlow?_eq_none_iff] at hd ⊢
  refine forall_renumbered p fun id hid => ?_
  rw [h.hasNode] at hid
  rw [h.node, h.flow]
  exact hd id hid

/-- Where there is no node, a blank is the same in both. -/
theorem node_of_hasNode
    (hhas : ∀ id : NodeId, e.hasNode (id.renumbered p) = d.hasNode id)
    (h : ∀ id, d.hasNode id → e.node (id.renumbered p) = d.node id) (id : NodeId) :
    e.node (id.renumbered p) = d.node id := by
  by_cases hid : d.hasNode id
  · exact h id hid
  · have hid' : ¬e.hasNode (id.renumbered p) := by rwa [hhas]
    rw [hasNode_iff] at hid hid'
    rw [node_of_not_lt _ hid, node_of_not_lt _ hid']

/-! ## Values -/

/-- `withValues` keeps `Renumbers`. -/
theorem withValues (h : e.Renumbers p d) : e.withValues.Renumbers p d.withValues := by
  have hsize : e.withValues.nodes.size = d.withValues.nodes.size := by
    simpa [Diagram.withValues] using h.size_nodes
  have hhas : ∀ id : NodeId, e.withValues.hasNode (id.renumbered p) = d.withValues.hasNode id := by
    intro id
    rw [e.redraws_withValues.hasNode, h.hasNode, d.redraws_withValues.hasNode]
  refine ⟨hsize, hhas, node_of_hasNode hhas fun id hid => ?_, h.links, h.circularLinks,
    h.roots, h.layerCount, h.warnings⟩
  rw [d.redraws_withValues.hasNode] at hid
  have hid' : e.hasNode (id.renumbered p) := by rwa [h.hasNode]
  rw [node_withValues d hid, node_withValues e hid', h.node, h.flow]

/-! ## Layers -/

/-- A frontier holds the new numbers of the nodes of another. -/
def Frontier (p : Equiv.Perm Nat) (frontier other : List NodeId) : Prop :=
  ∀ id : NodeId, id.renumbered p ∈ frontier ↔ id ∈ other

variable {frontier other : List NodeId}

/-- A frontier is empty iff its renumbered one is. -/
theorem Frontier.isEmpty_eq (h : Frontier p frontier other) : frontier.isEmpty = other.isEmpty := by
  rw [Bool.eq_iff_iff, List.isEmpty_iff, List.isEmpty_iff, List.eq_nil_iff_forall_not_mem,
    List.eq_nil_iff_forall_not_mem]
  constructor
  · intro hnone id hid
    exact hnone _ ((h id).2 hid)
  · intro hnone
    exact forall_renumbered p fun id hid => hnone id ((h id).1 hid)

/-- `frontiers` hold the new numbers of the nodes that they held. -/
theorem frontiers (h : e.Renumbers p d) (he : e.WellFormed) (hd : d.WellFormed) (limit : Nat)
    (hfirst : Frontier p frontier other) :
    List.Forall₂ (Frontier p) (e.frontiers limit frontier) (d.frontiers limit other) := by
  have hnext : ∀ {frontier other : List NodeId}, Frontier p frontier other →
      Frontier p (e.nextFrontier frontier) (d.nextFrontier other) := by
    intro frontier other hf b
    rw [he.mem_nextFrontier, hd.mem_nextFrontier]
    constructor
    · rintro ⟨a, ha, harc⟩
      rw [h.arcs] at harc
      obtain ⟨⟨a', b'⟩, hold, heq⟩ := List.mem_map.1 harc
      obtain ⟨rfl, hb⟩ := Prod.mk.inj heq
      obtain rfl : b' = b := NodeId.renumbered_inj.1 hb
      exact ⟨a', (hf a').1 ha, hold⟩
    · rintro ⟨a, ha, harc⟩
      refine ⟨a.renumbered p, (hf a).2 ha, ?_⟩
      rw [h.arcs]
      exact List.mem_map.2 ⟨(a, b), harc, rfl⟩
  -- frontiers are compared as sets, since the order within them follows that of the links
  induction limit generalizing frontier other with
  | zero => exact .nil
  | succ limit ih =>
    rw [Diagram.frontiers, Diagram.frontiers, hfirst.isEmpty_eq]
    split
    · exact .nil
    · exact .cons hfirst (ih (hnext hfirst))

/-- `lastFrontier?` of a renumbered node is that of the node. -/
theorem lastFrontier?_eq {frontiers others : List (List NodeId)}
    (h : List.Forall₂ (Frontier p) frontiers others) (id : NodeId) :
    lastFrontier? frontiers (id.renumbered p) = lastFrontier? others id := by
  have hplaces : ∀ (frontiers : List (List NodeId)) (id : NodeId), lastFrontier? frontiers id
      = ((List.range frontiers.length).filter fun i =>
          frontiers[i]?.any (·.contains id)).getLast? := by
    intro frontiers id
    rw [lastFrontier?, ← List.getLast?_map, map_snd_filter_zipIdx]
  rw [hplaces, hplaces, h.length_eq]
  refine congrArg List.getLast? (List.filter_congr fun i hi => ?_)
  have hi' : i < others.length := List.mem_range.1 hi
  have hi : i < frontiers.length := by rwa [h.length_eq]
  rw [List.getElem?_eq_getElem hi, List.getElem?_eq_getElem hi', Option.any_some, Option.any_some,
    Bool.eq_iff_iff, List.contains_iff_mem, List.contains_iff_mem]
  exact h.get hi hi' id

/-- `sweep` holds the new numbers of the nodes that it held. -/
theorem sweep (h : e.Renumbers p d) (he : e.WellFormed) (hd : d.WellFormed) :
    List.Forall₂ (Frontier p) e.sweep d.sweep := by
  have hroots : Frontier p e.roots d.roots := by
    intro id
    rw [h.roots.mem_iff, List.mem_map]
    simp [NodeId.renumbered_inj]
  rw [Diagram.sweep, Diagram.sweep, h.size_nodes]
  exact h.frontiers he hd _ hroots

/-- `withLayers` keeps `Renumbers`. -/
theorem withLayers (h : e.Renumbers p d) (he : e.WellFormed) (hd : d.WellFormed)
    (config : Config α) : (e.withLayers config).Renumbers p (d.withLayers config) := by
  have hsweep := h.sweep he hd
  have hhas : ∀ id : NodeId, (e.withLayers config).hasNode (id.renumbered p)
      = (d.withLayers config).hasNode id := by
    intro id
    rw [hasNode_withLayers, h.hasNode, hasNode_withLayers]
  refine ⟨by simpa using h.size_nodes, hhas, node_of_hasNode hhas fun id hid => ?_, h.links,
    h.circularLinks, h.roots, hsweep.length_eq, h.warnings⟩
  rw [hasNode_withLayers] at hid
  have hid' : e.hasNode (id.renumbered p) := by rwa [h.hasNode]
  rw [node_withLayers config hid, node_withLayers config hid', h.node, hsweep.length_eq,
    placedLayer, placedLayer, hsweep.length_eq, lastFrontier?_eq hsweep]

end Renumbers

end Diagram

/-! ## Diagrams of flows -/

/-- `(s.renumbered p).diagram others` is a `Renumbers` of `s.diagram names`. -/
theorem Intake.diagram_renumbered (hnames : Renumbers p names others) (s : Intake α) :
    ((s.renumbered p).diagram others).Renumbers p (s.diagram names) := by
  have hsize : ((s.renumbered p).diagram others).nodes.size = (s.diagram names).nodes.size := by
    rw [size_nodes_diagram, size_nodes_diagram, hnames.length_eq]
  have hhas : ∀ id : NodeId, ((s.renumbered p).diagram others).hasNode (id.renumbered p)
      = (s.diagram names).hasNode id := by
    intro id
    rw [Bool.eq_iff_iff, Diagram.hasNode_iff, Diagram.hasNode_iff, size_nodes_diagram,
      size_nodes_diagram]
    exact hnames.lt_length_iff _
  have hnode : ∀ id : NodeId, ((s.renumbered p).diagram others).node (id.renumbered p)
      = (s.diagram names).node id := by
    -- the same links end at a node and at its new number, and they keep their positions
    refine Diagram.Renumbers.node_of_hasNode hhas fun id hid => ?_
    have hlt : id.index < names.length := by simpa using hid
    have hlt' : p id.index < others.length := (hnames.lt_length_iff _).2 hlt
    have hname : others[p id.index] = names[id.index] := by
      have h := hnames id.index
      rwa [List.getElem?_eq_getElem hlt, List.getElem?_eq_getElem hlt', Option.some.injEq] at h
    have hids : ∀ side : Side, linkIds (s.links.map (·.renumbered p))
          (fun l => l.nearEnd side = id.renumbered p)
        = linkIds s.links fun l => l.nearEnd side = id := by
      intro side
      refine linkIds_map s.links fun l => ?_
      cases side <;> exact decide_eq_decide.2 NodeId.renumbered_inj
    have hnode' : ((s.renumbered p).diagram others).node (id.renumbered p)
        = node (s.renumbered p).links (p id.index) others[p id.index] := node_diagram hlt'
    rw [hnode', node_diagram hlt, hname, node, node]
    have hout := hids .outgoing
    have hin := hids .incoming
    exact congrArg₂ (fun outgoing incoming =>
      ({ Node.unplaced names[id.index] with outgoing, incoming } : Node α)) hout hin
  refine ⟨hsize, hhas, hnode, ?_, rfl, ?_, rfl, rfl⟩
  · rw [diagram, renumbered]
    simp [diagram]
  · have hinj : Function.Injective (NodeId.renumbered p) := fun _ _ => NodeId.renumbered_inj.1
    -- no root stands twice, so that the two lists need only have the same members
    rw [roots_diagram, roots_diagram, List.perm_ext_iff_of_nodup
      ((Diagram.nodup_nodeIds _).filter _) (((Diagram.nodup_nodeIds _).filter _).map hinj)]
    refine Diagram.forall_renumbered p fun id => ?_
    rw [List.mem_map_of_injective hinj, List.mem_filter, List.mem_filter, Diagram.mem_nodeIds,
      Diagram.mem_nodeIds, hhas, hnode]

namespace Diagram

variable {flows changed : List (Flow α)} {d e : Diagram α}

/-- `ofFlows` keeps `Renumbers`, and success with it. -/
theorem ofFlows_renumbers (hnames : SankeyDiagram.Renumbers p names others)
    (hflows : List.Forall₂ (Flow.Renumbers p names) flows changed)
    (h : ofFlows names flows = .ok d) : ∃ e, ofFlows others changed = .ok e ∧ e.Renumbers p d := by
  obtain ⟨hrepeat, resolved, intake, hresolve, htake, rfl, hflow⟩ := ofFlows_eq_ok_iff.1 h
  have hnodup := firstRepeat?_eq_none_iff.1 hrepeat
  have hdiagram := intake.diagram_renumbered hnames
  refine ⟨_, ofFlows_eq_ok_iff.2 ⟨firstRepeat?_eq_none_iff.2 (hnames.nodup hnodup), _, _,
    resolveAll_renumbered hnames hnodup hflows hresolve, ?_, rfl,
    hdiagram.overflowingFlow?_eq_none hflow⟩, hdiagram⟩
  -- the run starts with no links, which have no numbers
  have hempty : (Intake.empty : Intake α).renumbered p = Intake.empty := rfl
  have hbelow : ArcsBelow names.length (Intake.empty : Intake α).arcs := by
    intro arc harc
    cases harc
  have hlt : ∀ i, p i < names.length ↔ i < names.length := by
    intro i
    rw [← hnames.lt_length_iff i, hnames.length_eq]
  rw [hnames.length_eq, ← hempty,
    Intake.takeAll_renumbered hlt hbelow (arcsBelow_of_resolveAll hresolve), htake]
  rfl

/-! ## Main statement -/

/-- **Nodes in another order make the same diagram by `Renumbers p`, if they make one at all**:
whether `ofFlows` succeeds does not depend on the order, nor on which nodes are given by their
position and which by their name; and once nodes have values and layers, the diagrams are the same
but for the numbers of the nodes. -/
theorem ofFlows_withLayers_renumbers (hnames : SankeyDiagram.Renumbers p names others)
    (hflows : List.Forall₂ (Flow.Renumbers p names) flows changed) (config : Config α) :
    ((∃ e, ofFlows others changed = .ok e) ↔ ∃ d, ofFlows names flows = .ok d) ∧
      ∀ d e, ofFlows names flows = .ok d → ofFlows others changed = .ok e →
        (e.withValues.withLayers config).Renumbers p (d.withValues.withLayers config) := by
  have hback : List.Forall₂ (Flow.Renumbers p.symm others) changed flows :=
    (hflows.imp fun _ _ h => h.symm hnames).flip
  refine ⟨⟨?_, ?_⟩, fun d e hd he => ?_⟩
  · rintro ⟨e, he⟩
    obtain ⟨d, hd, -⟩ := ofFlows_renumbers hnames.symm hback he
    exact ⟨d, hd⟩
  · rintro ⟨d, hd⟩
    obtain ⟨e, he, -⟩ := ofFlows_renumbers hnames hflows hd
    exact ⟨e, he⟩
  · obtain ⟨e', he', hsame⟩ := ofFlows_renumbers hnames hflows hd
    obtain rfl : e' = e := Except.ok.inj (he'.symm.trans he)
    have hwf := d.redraws_withValues.wellFormed (wellFormed_ofFlows hd).2.1
    have hwf' := e'.redraws_withValues.wellFormed (wellFormed_ofFlows he).2.1
    exact hsame.withValues.withLayers hwf' hwf config

/-- The numbers of the nodes of the round, if the last of them comes first. -/
def turn : Equiv.Perm Nat := (Equiv.swap 0 1).trans (Equiv.swap 0 2)

/-- The names of the round in that order. -/
def turnedNames : List String := ["c", "a", "b"]

/-- The flows of the round; most endpoints are given the other way. -/
def turnedFlows : List (Flow Rat) :=
  [⟨.position 1, .named "b", 1⟩, ⟨.named "b", .position 0, 2⟩, ⟨.named "c", .named "a", 3⟩,
    ⟨.named "a", .position 2, 4⟩, ⟨.position 2, .position 2, 5⟩]

/-- The round makes the same diagram after `turn`. -/
theorem ofFlows_withLayers_renumbers_round :
    SankeyDiagram.Renumbers turn roundNames turnedNames ∧
      List.Forall₂ (Flow.Renumbers turn roundNames) roundFlows turnedFlows ∧
      ofFlows roundNames roundFlows = .ok roundDiagram ∧
      ∃ e, ofFlows turnedNames turnedFlows = .ok e ∧
        (e.withValues.withLayers .standard).Renumbers turn
          (roundDiagram.withValues.withLayers .standard) := by
  have hnames : SankeyDiagram.Renumbers turn roundNames turnedNames := by
    intro i
    -- `turn` moves the three positions that have names, and no other
    match i with
    | 0 => rfl
    | 1 => rfl
    | 2 => rfl
    | n + 3 =>
      have hfirst : Equiv.swap 0 1 (n + 3) = n + 3 :=
        Equiv.swap_apply_of_ne_of_ne (by omega) (by omega)
      have hsecond : Equiv.swap 0 2 (n + 3) = n + 3 :=
        Equiv.swap_apply_of_ne_of_ne (by omega) (by omega)
      have hkept : turn (n + 3) = n + 3 := by
        rw [turn, Equiv.trans_apply, hfirst, hsecond]
      rw [hkept]
      rfl
  have hflows : List.Forall₂ (Flow.Renumbers turn roundNames) roundFlows turnedFlows :=
    .cons ⟨.toPosition (i := 0) rfl, .byName "b", rfl⟩ <|
      .cons ⟨.toName rfl, .toPosition (i := 2) rfl, rfl⟩ <|
      .cons ⟨.byName "c", .toName rfl, rfl⟩ <|
      .cons ⟨.toName rfl, .byPosition 1, rfl⟩ <|
      .cons ⟨.byPosition 1, .toPosition (i := 1) rfl, rfl⟩ .nil
  have hround : ofFlows roundNames roundFlows = .ok roundDiagram := by decide +kernel
  obtain ⟨hiff, hsame⟩ := ofFlows_withLayers_renumbers hnames hflows .standard
  obtain ⟨e, he⟩ := hiff.2 ⟨roundDiagram, hround⟩
  exact ⟨hnames, hflows, hround, e, he, hsame roundDiagram e hround he⟩

end Diagram

end SankeyDiagram
