import Mathlib.Data.List.Forall2
import Mathlib.Data.UInt
import SankeyDiagram.Proofs.Intake
import SankeyDiagram.Scalar.Exact

/-! # The diagram of flows

What a diagram says about the names and flows that it was made of.

* **`resolveAll_forall₂`**, **`Diagram.exists_intake`** a diagram is made of resolved flows that
  were all taken.
* **`Diagram.ofFlows_breaksCycles`** the links make no cycle, and a flow is left out exactly if it
  would close one with links from before it.
* **`Diagram.ofFlows_keepsFlows`** the flows between two nodes are all in one link or all left out,
  so that none is lost. -/

namespace SankeyDiagram

variable {α : Type}

/-! ## Links by their nodes -/

namespace Diagram

/-- The arcs of the links. -/
def arcs (d : Diagram α) : List Arc := d.links.toList.map Link.arc

/-- The arcs of the links whose first flows come before a position. -/
def arcsBefore (d : Diagram α) (position : Nat) : List Arc :=
  (d.links.toList.filter fun l => l.inputIndex < position).map Link.arc

/-- The links between two nodes. -/
def linksBetween (d : Diagram α) (arc : Arc) : List (Link α) :=
  d.links.toList.filter fun l => l.arc = arc

/-- The flows left out between two nodes. -/
def circularBetween (d : Diagram α) (arc : Arc) : List (CircularLink α) :=
  d.circularLinks.filter fun c => c.arc = arc

end Diagram

variable [Scalar α]

/-! ## Resolved flows -/

/-- If `xs.mapM f` is `.ok ys`, then `ys` are the results of `f` on `xs` in order. -/
theorem forall₂_of_mapM {β γ ε : Type} {f : β → Except ε γ} {xs : List β} {ys : List γ}
    (h : xs.mapM f = .ok ys) : List.Forall₂ (fun x y => f x = .ok y) xs ys := by
  induction xs generalizing ys with
  | nil =>
    rw [List.mapM_nil] at h
    rw [← Except.ok.inj h]
    exact .nil
  | cons x xs ih =>
    rw [List.mapM_cons] at h
    -- a failure at any item would be that of the whole list
    cases hx : f x with
    | error e =>
      rw [hx] at h
      cases h
    | ok y =>
      cases hxs : xs.mapM f with
      | error e =>
        rw [hx, hxs] at h
        cases h
      | ok rest =>
        rw [hx, hxs] at h
        rw [← Except.ok.inj h]
        exact .cons hx (ih hxs)

/-- `resolveAll` resolves flows in order, each at its position. -/
theorem resolveAll_forall₂ {names : List String} {flows : List (Flow α)}
    {resolved : List (ResolvedFlow α)} (h : resolveAll names flows = .ok resolved) :
    List.Forall₂ (fun f r => f.1.resolve names f.2 = .ok r) flows.zipIdx resolved :=
  forall₂_of_mapM h

omit [Scalar α] in
/-- An endpoint is resolved to the position of one of the names. -/
theorem Endpoint.index_lt_of_resolve {names : List String} {link : Nat} {endpoint : Endpoint}
    {id : NodeId} (h : endpoint.resolve names link = (.ok id : Except (FlowError α) NodeId)) :
    id.index < names.length := by
  cases endpoint with
  | position index =>
    rw [Endpoint.resolve] at h
    split at h
    case isTrue hlt =>
      rw [← Except.ok.inj h]
      exact hlt
    case isFalse => cases h
  | named name =>
    rw [Endpoint.resolve] at h
    split at h
    case h_1 index hindex =>
      rw [← Except.ok.inj h]
      exact (List.findIdx?_eq_some_iff_getElem.1 hindex).1
    case h_2 => cases h

/-- If `flow.resolve` is `.ok r`, the value of `r` is that of `flow`, which is an ordinary number
not below zero, and both ends of `flow` are resolved to those of `r`. -/
theorem Flow.resolve_eq_ok {names : List String} {link : Nat} {flow : Flow α} {r : ResolvedFlow α}
    (h : flow.resolve names link = .ok r) :
    (Scalar.isFinite r.value = true ∧ ¬ r.value < 0) ∧ r.value = flow.value ∧
      flow.source.resolve names link = (.ok r.source : Except (FlowError α) NodeId) ∧
      flow.target.resolve names link = (.ok r.target : Except (FlowError α) NodeId) := by
  rw [Flow.resolve] at h
  split at h
  case isTrue => cases h
  case isFalse hvalue =>
    rw [not_or] at hvalue
    cases hs : flow.source.resolve (α := α) names link with
    | error e =>
      rw [hs] at h
      cases h
    | ok source =>
      cases ht : flow.target.resolve (α := α) names link with
      | error e =>
        rw [hs, ht] at h
        cases h
      | ok target =>
        rw [hs, ht] at h
        rw [← Except.ok.inj h]
        exact ⟨⟨by simpa using hvalue.1, hvalue.2⟩, rfl, rfl, rfl⟩

/-- A flow whose value is an ordinary number not below zero is resolved to what its ends are
resolved to. -/
theorem Flow.resolve_of_ends {names : List String} {link : Nat} {flow : Flow α}
    {source target : NodeId} (hfinite : Scalar.isFinite flow.value) (hneg : ¬ flow.value < 0)
    (hsource : flow.source.resolve names link = (.ok source : Except (FlowError α) NodeId))
    (htarget : flow.target.resolve names link = (.ok target : Except (FlowError α) NodeId)) :
    flow.resolve names link = .ok ⟨source, target, flow.value⟩ := by
  rw [Flow.resolve, if_neg (by simp [hfinite, hneg]), hsource, htarget]
  rfl

omit [Scalar α] in
/-- Where `endpoint.resolve` succeeds, neither the position `link` nor the scalars of the flows
count. -/
theorem Endpoint.resolve_of_resolve {β : Type} {names : List String} {link : Nat}
    {endpoint : Endpoint} {id : NodeId}
    (h : endpoint.resolve names link = (.ok id : Except (FlowError α) NodeId)) (other : Nat) :
    endpoint.resolve names other = (.ok id : Except (FlowError β) NodeId) := by
  cases endpoint with
  | position index =>
    rw [Endpoint.resolve] at h ⊢
    split at h
    case isTrue hlt => rw [if_pos hlt, Except.ok.inj h]
    case isFalse => cases h
  | named name =>
    rw [Endpoint.resolve] at h ⊢
    split at h
    case h_1 => rw [Except.ok.inj h]
    case h_2 => cases h

/-- Where `flow.resolve` succeeds, the position `link` does not count. -/
theorem Flow.resolve_of_resolve {names : List String} {link : Nat} {flow : Flow α}
    {r : ResolvedFlow α} (h : flow.resolve names link = .ok r) (other : Nat) :
    flow.resolve names other = .ok r := by
  obtain ⟨⟨hfinite, hneg⟩, hvalue, hsource, htarget⟩ := Flow.resolve_eq_ok h
  rw [hvalue] at hfinite hneg
  rw [Flow.resolve_of_ends hfinite hneg (Endpoint.resolve_of_resolve hsource other)
    (Endpoint.resolve_of_resolve htarget other), ← hvalue]

/-- `resolveAll names flows` is `.ok resolved` iff every flow is resolved, wherever it stands, to
the one at its place in `resolved`. -/
theorem resolveAll_eq_ok_iff {names : List String} {flows : List (Flow α)}
    {resolved : List (ResolvedFlow α)} :
    resolveAll names flows = .ok resolved
      ↔ List.Forall₂ (fun f r => ∀ link, f.resolve names link = .ok r) flows resolved := by
  constructor
  · intro h
    have hall : List.Forall₂ (fun f r => ∀ link, f.1.resolve names link = .ok r) flows.zipIdx
        resolved := (resolveAll_forall₂ h).imp fun _ _ hr => Flow.resolve_of_resolve hr
    have hmap : List.Forall₂ (fun f r => ∀ link, Flow.resolve names link f = .ok r)
        (flows.zipIdx.map Prod.fst) resolved := List.forall₂_map_left_iff.2 hall
    rwa [List.zipIdx_map_fst] at hmap
  · intro h
    -- by induction on the flows, counted from any position
    have hfrom : ∀ position,
        (flows.zipIdx position).mapM (fun given => given.1.resolve names given.2)
          = .ok resolved := by
      induction h with
      | nil => exact fun _ => rfl
      | cons hr _ ih =>
        intro position
        rw [List.zipIdx_cons, List.mapM_cons]
        simp only [hr position, ih (position + 1)]
        rfl
    exact hfrom 0

/-- `resolveAll` does not change values. -/
theorem map_value_resolveAll {names : List String} {flows : List (Flow α)}
    {resolved : List (ResolvedFlow α)} (h : resolveAll names flows = .ok resolved) :
    resolved.map ResolvedFlow.value = flows.map Flow.value := by
  have hall : List.Forall₂ (fun f r => f.1.value = ResolvedFlow.value r) flows.zipIdx resolved :=
    (resolveAll_forall₂ h).imp fun f r hr => (Flow.resolve_eq_ok hr).2.1.symm
  have hmap := List.forall₂_map_left_iff.2 (List.forall₂_map_right_iff.2 hall)
  rw [List.forall₂_eq_eq_eq] at hmap
  calc resolved.map ResolvedFlow.value
      = flows.zipIdx.map (Flow.value ∘ Prod.fst) := hmap.symm
    _ = flows.map Flow.value := by rw [← List.map_map, List.zipIdx_map_fst]

/-- Every flow that `resolveAll` returns is one of `flows` resolved at some position. -/
theorem resolve_of_mem_resolveAll {names : List String} {flows : List (Flow α)}
    {resolved : List (ResolvedFlow α)} (h : resolveAll names flows = .ok resolved)
    {r : ResolvedFlow α} (hr : r ∈ resolved) :
    ∃ (flow : Flow α) (link : Nat), flow.resolve names link = .ok r := by
  obtain ⟨i, hi, rfl⟩ := List.getElem_of_mem hr
  have hall := resolveAll_forall₂ h
  have hi' : i < flows.zipIdx.length := by rwa [hall.length_eq]
  exact ⟨_, _, hall.get hi' hi⟩

/-- The flows that `resolveAll names` returns join positions of names. -/
theorem arcsBelow_of_resolveAll {names : List String} {flows : List (Flow α)}
    {resolved : List (ResolvedFlow α)} (h : resolveAll names flows = .ok resolved) :
    ArcsBelow names.length (resolved.map ResolvedFlow.arc) := by
  intro arc harc
  obtain ⟨r, hr, rfl⟩ := List.mem_map.1 harc
  obtain ⟨flow, link, hflow⟩ := resolve_of_mem_resolveAll h hr
  obtain ⟨-, -, hsource, htarget⟩ := Flow.resolve_eq_ok hflow
  exact ⟨Endpoint.index_lt_of_resolve hsource, Endpoint.index_lt_of_resolve htarget⟩

/-! ## Diagrams and what was taken -/

namespace Diagram

/-- `ofFlows names flows` is `.ok d` iff no two names are the same, all flows are resolved and
taken, and the flows on each side of the nodes of `d` add up to ordinary numbers. -/
theorem ofFlows_eq_ok_iff {names : List String} {flows : List (Flow α)} {d : Diagram α} :
    ofFlows names flows = .ok d ↔ firstRepeat? names = none ∧
      ∃ resolved intake, resolveAll names flows = .ok resolved ∧
        Intake.empty.takeAll names.length resolved 0 = .ok intake ∧
        intake.diagram names = d ∧ d.overflowingFlow? = none := by
  constructor
  · intro h
    -- each step of the program may fail, and then there is no diagram
    rw [ofFlows] at h
    split at h
    · cases h
    rename_i hnames
    cases hresolve : resolveAll names flows with
    | error e =>
      rw [hresolve] at h
      cases h
    | ok resolved =>
      cases htake : Intake.empty.takeAll names.length resolved 0 with
      | error e =>
        rw [hresolve] at h
        simp only [bind, Except.bind, htake] at h
        cases h
      | ok intake =>
        rw [hresolve] at h
        simp only [bind, Except.bind, htake] at h
        split at h
        · cases h
        · rename_i hflow
          obtain rfl := Except.ok.inj h
          exact ⟨hnames, resolved, intake, rfl, htake, rfl, hflow⟩
  · rintro ⟨hnames, resolved, intake, hresolve, htake, rfl, hflow⟩
    rw [ofFlows, hnames]
    simp only [hresolve, bind, Except.bind, htake, hflow]
    rfl

/-- The diagram of `ofFlows` is that of an `Intake` that accounts for all resolved flows, and the
flows on each side of its nodes add up to ordinary numbers. -/
theorem exists_intake {names : List String} {flows : List (Flow α)} {d : Diagram α}
    (h : ofFlows names flows = .ok d) :
    ∃ resolved intake, firstRepeat? names = none ∧ resolveAll names flows = .ok resolved ∧
      Intake.Accounts resolved intake ∧ d = intake.diagram names ∧ d.overflowingFlow? = none := by
  obtain ⟨hnames, resolved, intake, hresolve, htake, rfl, hflow⟩ := ofFlows_eq_ok_iff.1 h
  have haccounts : intake.Accounts resolved :=
    Intake.empty_accounts.takeAll (arcsBelow_of_resolveAll hresolve) htake
  exact ⟨resolved, intake, hnames, hresolve, haccounts, rfl, hflow⟩

end Diagram

namespace Intake

variable (s : Intake α) (names : List String)

/-- The arcs of `s.diagram names` are those of `s`. -/
@[simp] theorem arcs_diagram : (s.diagram names).arcs = s.arcs := by
  simp [Diagram.arcs, diagram, arcs]

/-- `arcsBefore` is the same for `s.diagram names` and for `s`. -/
@[simp] theorem arcsBefore_diagram (position : Nat) :
    (s.diagram names).arcsBefore position = s.arcsBefore position := by
  simp [Diagram.arcsBefore, diagram, arcsBefore]

/-- `linksBetween` is the same for `s.diagram names` and for `s`. -/
@[simp] theorem linksBetween_diagram (arc : Arc) :
    (s.diagram names).linksBetween arc = s.linksBetween arc := by
  simp [Diagram.linksBetween, diagram, linksBetween]

/-- `circularBetween` is the same for `s.diagram names` and for `s`. -/
@[simp] theorem circularBetween_diagram (arc : Arc) :
    (s.diagram names).circularBetween arc = s.circularBetween arc := rfl

/-! ## Cycles -/

namespace Accounts

variable {s} {flows : List (ResolvedFlow α)}

/-- The flow at a position is left out iff its target reaches its source by
`s.arcsBefore position`. -/
theorem leftOut_mem_iff (h : s.Accounts flows) {position : Nat} {flow : ResolvedFlow α}
    (hflow : flows[position]? = some flow) :
    flow.leftOut position ∈ s.circularLinks
      ↔ Reaches (s.arcsBefore position) flow.target flow.source := by
  constructor
  · intro hmem
    exact h.closes _ hmem
  · intro hreach
    have hocc : (flow, position) ∈ occurrences flows flow.arc :=
      mem_occurrences.2 ⟨hflow, rfl⟩
    have hnone : flow.arc ∉ s.arcs := by
      -- with the way back, a link between the nodes of the flow would make a cycle
      intro harc
      exact acyclic_iff.1 h.acyclic _ harc (hreach.mono (s.arcsBefore_subset position))
    have hmem : flow.leftOut position ∈ s.circularBetween flow.arc := by
      rw [(h.leavesOut hnone).2]
      exact List.mem_map.2 ⟨(flow, position), hocc, rfl⟩
    exact (List.mem_filter.1 hmem).1

/-- If `s` leaves out no flow, every arc of `flows` is an arc of `s`. -/
theorem mem_arcs_of_mem (h : s.Accounts flows) (hnil : s.circularLinks = []) {arc : Arc}
    (harc : arc ∈ flows.map ResolvedFlow.arc) : arc ∈ s.arcs := by
  obtain ⟨flow, hflow, rfl⟩ := List.mem_map.1 harc
  obtain ⟨i, hi⟩ := List.mem_iff_getElem?.1 hflow
  by_contra hnone
  have hocc : (flow, i) ∈ occurrences flows flow.arc := mem_occurrences.2 ⟨hi, rfl⟩
  have hout := (h.leavesOut hnone).2
  rw [circularBetween, hnil, List.filter_nil, eq_comm, List.map_eq_nil_iff] at hout
  rw [hout] at hocc
  cases hocc

/-- `s` leaves out no flow iff the arcs of `flows` make no cycle. -/
theorem circularLinks_eq_nil_iff (h : s.Accounts flows) :
    s.circularLinks = [] ↔ Acyclic (flows.map ResolvedFlow.arc) := by
  constructor
  · intro hnil
    exact h.acyclic.mono fun _ harc => h.mem_arcs_of_mem hnil harc
  · intro hac
    by_contra hne
    obtain ⟨c, hc⟩ := List.exists_mem_of_ne_nil _ hne
    obtain ⟨flow, hflow, harc⟩ := h.exists_leftOut hc
    have hmem : flow.arc ∈ flows.map ResolvedFlow.arc :=
      List.mem_map.2 ⟨flow, List.mem_of_getElem? hflow, rfl⟩
    have hway := (h.closes c hc).mono (s.arcsBefore_subset _)
    rw [harc] at hway
    exact acyclic_iff.1 hac _ hmem (hway.mono h.arcs_subset)

/-! ## Numbers of flows -/

/-- `l.merged` is the number of flows with the arc of `l`, as a word of sixty-four bits. -/
theorem merged_eq (h : s.Accounts flows) {l : Link α} (hl : l ∈ s.links) :
    l.merged = UInt64.ofNat (occurrences flows l.arc).length := by
  obtain ⟨first, later, hocc, hlink, -⟩ := h.exists_occurrences hl
  rw [hocc, hlink, Link.ofOccurrences_eq, List.length_cons]

/-- In words of sixty-four bits, the flows that links have merged and those left out are as many as
all flows. -/
theorem sum_merged (h : s.Accounts flows) :
    (s.links.map Link.merged).sum + UInt64.ofNat s.circularLinks.length
      = UInt64.ofNat flows.length := by
  have hsum : ∀ counts : List Nat, (counts.map UInt64.ofNat).sum = UInt64.ofNat counts.sum := by
    intro counts
    induction counts with
    | nil => rfl
    | cons k counts ih =>
      rw [List.map_cons, List.sum_cons, ih, List.sum_cons, UInt64.ofNat_add]
  have hmerged : s.links.map Link.merged
      = (s.links.map fun l => (occurrences flows l.arc).length).map UInt64.ofNat := by
    rw [List.map_map]
    exact List.map_congr_left fun l hl => h.merged_eq hl
  rw [hmerged, hsum, ← UInt64.ofNat_add, h.count]

/-- `l.merged` is the number of flows with the arc of `l`, if there are less than `2 ^ 64` flows. -/
theorem toNat_merged (h : s.Accounts flows) (hlt : flows.length < 2 ^ 64) {l : Link α}
    (hl : l ∈ s.links) : l.merged.toNat = (occurrences flows l.arc).length := by
  rw [h.merged_eq hl]
  exact UInt64.toNat_ofNat_of_lt ((length_occurrences_le flows l.arc).trans_lt hlt)

/-- The flows that links have merged and those left out are as many as all flows, if there are less
than `2 ^ 64` of these. -/
theorem sum_toNat_merged (h : s.Accounts flows) (hlt : flows.length < 2 ^ 64) :
    (s.links.map fun l => l.merged.toNat).sum + s.circularLinks.length = flows.length := by
  rw [List.map_congr_left fun l hl => h.toNat_merged hlt hl]
  exact h.count

end Accounts

end Intake

/-! ## Three nodes in a round

Five flows between three nodes: two between the same nodes, one that goes back to where they start,
and one from a node to itself. -/

/-- The nodes of the round. -/
def roundNames : List String := ["a", "b", "c"]

/-- The flows of the round. -/
def roundFlows : List (Flow Rat) :=
  [⟨.named "a", .named "b", 1⟩, ⟨.position 1, .named "c", 2⟩, ⟨.named "c", .position 0, 3⟩,
    ⟨.position 0, .position 1, 4⟩, ⟨.position 1, .named "b", 5⟩]

/-- The diagram of the round: the two flows share a link, the third and the fifth are left out. -/
def roundDiagram : Diagram Rat where
  nodes := #[{ Node.unplaced "a" with outgoing := [⟨0⟩] },
    { Node.unplaced "b" with outgoing := [⟨1⟩], incoming := [⟨0⟩] },
    { Node.unplaced "c" with incoming := [⟨1⟩] }]
  links := #[{ Link.unplaced ⟨0⟩ ⟨1⟩ 5 0 with merged := 2 }, .unplaced ⟨1⟩ ⟨2⟩ 2 1]
  circularLinks := [⟨⟨2⟩, ⟨0⟩, 3, 2⟩, ⟨⟨1⟩, ⟨1⟩, 5, 4⟩]
  roots := [⟨0⟩]
  layerCount := 0
  warnings := []

/-! ## Main statements -/

namespace Diagram

variable {names : List String} {flows : List (Flow α)} {d : Diagram α}

/-- How the links of a diagram and the flows left out of it keep cycles away. -/
structure BreaksCycles (d : Diagram α) (flows : List (ResolvedFlow α)) : Prop where
  /-- The links of `d` make no cycle. -/
  acyclic : Acyclic d.arcs
  /-- A flow is left out iff its target reaches its source by links from before it; a node reaches
  itself. -/
  leftOut_iff : ∀ (position : Nat) (flow : ResolvedFlow α), flows[position]? = some flow →
    (flow.leftOut position ∈ d.circularLinks ↔
      Reaches (d.arcsBefore position) flow.target flow.source)
  /-- `d.circularLinks` are flows, each of which closes a cycle with links from before it. -/
  closes : ∀ c ∈ d.circularLinks, flows[c.inputIndex]? = some ⟨c.source, c.target, c.value⟩ ∧
    Reaches (d.arcsBefore c.inputIndex) c.target c.source
  /-- `d.circularLinks` is empty iff the flows make no cycle. -/
  nil_iff : d.circularLinks = [] ↔ Acyclic (flows.map ResolvedFlow.arc)

/-- **The links of the diagram of `ofFlows` make no cycle, and only flows that would close one are
left out**, as `BreaksCycles` states. -/
theorem ofFlows_breaksCycles (h : ofFlows names flows = .ok d) :
    ∃ resolved, resolveAll names flows = .ok resolved ∧ d.BreaksCycles resolved := by
  obtain ⟨resolved, intake, -, hresolve, hacc, rfl, -⟩ := exists_intake h
  refine ⟨resolved, hresolve, ?_, ?_, ?_, hacc.circularLinks_eq_nil_iff⟩
  · rw [Intake.arcs_diagram]
    exact hacc.acyclic
  · intro position flow hflow
    rw [Intake.arcsBefore_diagram]
    exact hacc.leftOut_mem_iff hflow
  · intro c hc
    obtain ⟨flow, hflow, hleft⟩ := hacc.exists_leftOut hc
    rw [Intake.arcsBefore_diagram]
    refine ⟨?_, hacc.closes c hc⟩
    rw [hflow, hleft]
    rfl

/-- In `roundFlows` two flows are left out: the one that comes back to its start, and the one from a
node to itself. -/
theorem ofFlows_breaksCycles_round :
    ofFlows roundNames roundFlows = .ok roundDiagram ∧
      ∃ resolved, resolveAll roundNames roundFlows = .ok resolved ∧
        roundDiagram.BreaksCycles resolved :=
  ⟨by decide +kernel, ofFlows_breaksCycles (by decide +kernel)⟩

/-- How the links of a diagram and the flows left out of it keep all flows. -/
structure KeepsFlows (d : Diagram α) (flows : List (ResolvedFlow α)) : Prop where
  /-- The flows between two nodes are all in one link, which is placed at the first of them, counts
  them and adds them up in order, or they are all left out, each at its own position. -/
  between : ∀ (arc : Arc) (first : ResolvedFlow α × Nat) (later : List (ResolvedFlow α × Nat)),
    occurrences flows arc = first :: later →
    (∃ link, d.linksBetween arc = [link] ∧ d.circularBetween arc = [] ∧
      link.inputIndex = first.2 ∧
      link.merged = UInt64.ofNat (later.length + 1) ∧
      (flows.length < 2 ^ 64 → link.merged.toNat = later.length + 1) ∧
      link.value = later.foldl (fun sum o => sum + o.1.value) first.1.value) ∨
    (d.linksBetween arc = [] ∧
      d.circularBetween arc = (first :: later).map fun o => o.1.leftOut o.2)
  /-- Between nodes without flows there is nothing. -/
  between_nil : ∀ arc : Arc, occurrences flows arc = [] →
    d.linksBetween arc = [] ∧ d.circularBetween arc = []
  /-- Links are in the order of their first flows. -/
  links_sorted : d.links.toList.Pairwise fun l m => l.inputIndex < m.inputIndex
  /-- Flows left out are in their order. -/
  circular_sorted : d.circularLinks.Pairwise fun c e => c.inputIndex < e.inputIndex
  /-- The flows in links and those left out are as many as all flows, in words that start over. -/
  count_word : (d.links.toList.map Link.merged).sum + UInt64.ofNat d.circularLinks.length
    = UInt64.ofNat flows.length
  /-- Below `2 ^ 64` flows, where words do not start over, the flows in links and those left out are
  as many as all flows. -/
  count : flows.length < 2 ^ 64 →
    (d.links.toList.map fun l => l.merged.toNat).sum + d.circularLinks.length = flows.length

/-- **No flow is lost, counted twice or split between a link and the flows left out**, as
`KeepsFlows` states. -/
theorem ofFlows_keepsFlows (h : ofFlows names flows = .ok d) :
    ∃ resolved, resolveAll names flows = .ok resolved ∧
      resolved.map ResolvedFlow.value = flows.map Flow.value ∧ d.KeepsFlows resolved := by
  obtain ⟨resolved, intake, -, hresolve, hacc, rfl, -⟩ := exists_intake h
  have hlinks : (intake.diagram names).links.toList = intake.links := by simp [Intake.diagram]
  refine ⟨resolved, hresolve, map_value_resolveAll hresolve, ?_, ?_, ?_, hacc.circular_sorted,
    ?_, ?_⟩
  · intro arc first later hocc
    rw [Intake.linksBetween_diagram, Intake.circularBetween_diagram]
    -- the flows along an arc share one link or are all left out
    rcases hacc.between arc with ⟨first', later', hocc', hone, hnone⟩ | ⟨hnone, hall⟩
    · rw [hocc, List.cons.injEq] at hocc'
      obtain ⟨rfl, rfl⟩ := hocc'
      have hle : later.length + 1 ≤ resolved.length := by
        simpa [hocc] using length_occurrences_le resolved arc
      refine Or.inl ⟨_, hone, hnone, ?_⟩
      rw [Link.ofOccurrences_eq]
      exact ⟨rfl, rfl, fun hlt => UInt64.toNat_ofNat_of_lt (hle.trans_lt hlt), rfl⟩
    · rw [hocc] at hall
      exact Or.inr ⟨hnone, hall⟩
  · intro arc hocc
    rw [Intake.linksBetween_diagram, Intake.circularBetween_diagram]
    rcases hacc.between arc with ⟨first, later, hocc', -, -⟩ | ⟨hnone, hall⟩
    · rw [hocc] at hocc'
      cases hocc'
    · rw [hocc] at hall
      exact ⟨hnone, hall⟩
  · rw [hlinks]
    exact hacc.links_sorted
  · rw [hlinks]
    exact hacc.sum_merged
  · rw [hlinks]
    exact hacc.sum_toNat_merged

/-- `roundDiagram` accounts for all of the five `roundFlows`. -/
theorem ofFlows_keepsFlows_round :
    ofFlows roundNames roundFlows = .ok roundDiagram ∧
      ∃ resolved, resolveAll roundNames roundFlows = .ok resolved ∧
        resolved.map ResolvedFlow.value = [1, 2, 3, 4, 5] ∧ roundDiagram.KeepsFlows resolved :=
  ⟨by decide +kernel, ofFlows_keepsFlows (by decide +kernel)⟩

end Diagram

end SankeyDiagram
