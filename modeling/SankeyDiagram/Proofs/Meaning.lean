import Mathlib.Order.Bounds.Basic
import SankeyDiagram.Proofs.OwnFlows
import SankeyDiagram.Proofs.Renumbering

/-! # What flows mean

What endpoints and flows mean among names, told without the search for a name, and which of the
names and flows is reported if something is wrong with some of them.

* **`firstRepeat?_eq_some_iff`** a name is reported where a name stands for the second time first.
* **`Endpoint.Means`**, **`Flow.Means`** the node and the flow between positions that are meant.
* **`Flow.Fault`** what is wrong with a flow that means nothing;
  **`Flow.resolve_eq_error_iff`** this is reported.
* **`resolveAll_eq_error_iff`** of all flows the first that means nothing is reported. -/

namespace SankeyDiagram

variable {α : Type}

/-! ## First elements -/

/-- `findSome?` finds in an element before which it finds nothing. -/
theorem exists_of_findSome?_eq_some {β γ : Type} {f : β → Option γ} {xs : List β} {c : γ}
    (h : xs.findSome? f = some c) :
    ∃ (i : Nat) (x : β), xs[i]? = some x ∧ f x = some c ∧
      ∀ j < i, ∀ y, xs[j]? = some y → f y = none := by
  obtain ⟨before, x, after, rfl, hx, hnone⟩ := List.findSome?_eq_some_iff.1 h
  refine ⟨before.length, x, by simp, hx, fun j hj y hy => hnone y ?_⟩
  rw [List.getElem?_append_left hj] at hy
  exact List.mem_of_getElem? hy

/-- `mapM` fails with an element before which all elements pass. -/
theorem exists_of_mapM_eq_error {β γ ε : Type} {f : β → Except ε γ} {xs : List β} {e : ε}
    (h : xs.mapM f = .error e) :
    ∃ (i : Nat) (x : β), xs[i]? = some x ∧ f x = .error e ∧
      ∀ j < i, ∀ y, xs[j]? = some y → ∃ z, f y = .ok z := by
  induction xs with
  | nil =>
    rw [List.mapM_nil] at h
    cases h
  | cons x xs ih =>
    rw [List.mapM_cons] at h
    cases hx : f x with
    | error e' =>
      rw [hx] at h
      obtain rfl : e' = e := Except.error.inj h
      exact ⟨0, x, rfl, hx, fun j hj => absurd hj (Nat.not_lt_zero j)⟩
    | ok z =>
      -- the head passes, so that the failure is one of the rest
      cases hxs : xs.mapM f with
      | ok zs =>
        rw [hx, hxs] at h
        cases h
      | error e' =>
        rw [hx, hxs] at h
        obtain rfl : e' = e := Except.error.inj h
        obtain ⟨i, y, hget, hy, hbefore⟩ := ih hxs
        refine ⟨i + 1, y, hget, hy, fun j hj w hw => ?_⟩
        cases j with
        | zero =>
          obtain rfl : x = w := Option.some.inj hw
          exact ⟨z, hx⟩
        | succ j => exact hbefore j (Nat.lt_of_succ_lt_succ hj) w hw

/-- The elements of `zipIdx` stand at their positions. -/
theorem getElem?_zipIdx_eq_some_iff {β : Type} {xs : List β} {i k : Nat} {x : β} :
    xs.zipIdx[i]? = some (x, k) ↔ xs[i]? = some x ∧ k = i := by
  rw [List.getElem?_zipIdx, Option.map_eq_some_iff]
  simp only [Prod.mk.injEq, Nat.zero_add]
  constructor
  · rintro ⟨y, hy, rfl, rfl⟩
    exact ⟨hy, rfl⟩
  · rintro ⟨hx, rfl⟩
    exact ⟨x, hx, rfl, rfl⟩

/-! ## Names -/

/-- The name at a position stands before it as well. -/
def RepeatsAt (names : List String) (position : Nat) : Prop :=
  ∃ name, names[position]? = some name ∧ name ∈ names.take position

section Names

variable {names : List String} {name : String} {first second : Nat}

/-- A name that stands at two positions repeats at the second. -/
theorem RepeatsAt.of_lt (hlt : first < second) (hfirst : names[first]? = some name)
    (hsecond : names[second]? = some name) : RepeatsAt names second := by
  refine ⟨name, hsecond, List.mem_iff_getElem?.2 ⟨first, ?_⟩⟩
  rw [List.getElem?_take_of_lt hlt, hfirst]

/-- `firstRepeat?` gives the least position of `RepeatsAt`. -/
theorem isLeast_of_firstRepeat? (h : firstRepeat? names = some (name, first, second)) :
    IsLeast {p | RepeatsAt names p} second ∧ names[second]? = some name ∧
      first < second ∧ names[first]? = some name := by
  obtain ⟨i, ⟨found, position⟩, hget, hsome, hbefore⟩ := exists_of_findSome?_eq_some h
  obtain ⟨hname, rfl⟩ := getElem?_zipIdx_eq_some_iff.1 hget
  obtain ⟨place, hplace, heq⟩ := Option.map_eq_some_iff.1 hsome
  obtain ⟨rfl, rfl, rfl⟩ : found = name ∧ place = first ∧ position = second := by simpa using heq
  obtain ⟨hlt, hfirst, -⟩ := List.idxOf?_eq_some_iff.1 hplace
  rw [List.length_take] at hlt
  rw [List.getElem_take] at hfirst
  have hfirst' : names[place]? = some found := by
    rw [List.getElem?_eq_getElem (by omega), hfirst]
  refine ⟨⟨.of_lt (by omega) hfirst' hname, ?_⟩, hname, by omega, hfirst'⟩
  rintro j ⟨other, hother, hmem⟩
  -- an earlier repeat would have been found before
  by_contra hj
  have hnone := hbefore j (not_le.1 hj) (other, j) (getElem?_zipIdx_eq_some_iff.2 ⟨hother, rfl⟩)
  rw [Option.map_eq_none_iff, List.idxOf?_eq_none_iff] at hnone
  exact hnone hmem

/-- `firstRepeat?` gives the least position of `RepeatsAt`, the name, and the position where it
stood before. -/
theorem firstRepeat?_eq_some_iff : firstRepeat? names = some (name, first, second)
    ↔ IsLeast {p | RepeatsAt names p} second ∧ names[second]? = some name ∧
      first < second ∧ names[first]? = some name := by
  refine ⟨isLeast_of_firstRepeat?, ?_⟩
  rintro ⟨hleast, hsecond, hlt, hfirst⟩
  cases h : firstRepeat? names with
  | none =>
    -- two places of one name are a repetition
    rw [firstRepeat?_eq_none_iff, List.nodup_iff_getElem?_ne_getElem?] at h
    obtain ⟨hlength, -⟩ := List.getElem?_eq_some_iff.1 hsecond
    exact absurd (hfirst.trans hsecond.symm) (h first second hlt hlength)
  | some repeated =>
    obtain ⟨name', first', second'⟩ := repeated
    obtain ⟨hleast', hsecond', hlt', hfirst'⟩ := isLeast_of_firstRepeat? h
    obtain rfl := hleast.unique hleast'
    obtain rfl : name = name' := Option.some.inj (hsecond.symm.trans hsecond')
    -- of two earlier places the later one would repeat the name too soon
    obtain rfl : first = first' := by
      rcases lt_trichotomy first first' with hlt'' | heq | hlt''
      · exact absurd (hleast.2 (RepeatsAt.of_lt hlt'' hfirst hfirst')) (not_le.2 hlt')
      · exact heq
      · exact absurd (hleast.2 (RepeatsAt.of_lt hlt'' hfirst' hfirst)) (not_le.2 hlt)
    rfl

end Names

/-! ## Single flows -/

namespace Endpoint

variable {names : List String} {endpoint : Endpoint} {link : Nat} {id : NodeId}

/-- An endpoint means a node: a position the one there, and a name the one of that name. -/
def Means (names : List String) (endpoint : Endpoint) (id : NodeId) : Prop :=
  match endpoint with
  | .position index => index < names.length ∧ id = ⟨index⟩
  | .named name => names[id.index]? = some name

/-- What is wrong with an endpoint of the flow at a position, if it means no node. -/
def fault (names : List String) (link : Nat) : Endpoint → FlowError α
  | .position index => .indexOutOfRange link index names.length
  | .named name => .unknownNode link name

/-- Among names that are all different, `Endpoint.resolve` gives what the endpoint `Means`. -/
theorem resolve_eq_ok_iff (hnodup : names.Nodup) :
    endpoint.resolve names link = (.ok id : Except (FlowError α) NodeId)
      ↔ endpoint.Means names id := by
  cases endpoint with
  | position index => exact resolve_position_eq_ok_iff
  | named name => exact resolve_named_eq_ok_iff hnodup

/-- `Endpoint.resolve` fails with `Endpoint.fault`. -/
theorem eq_fault_of_resolve {e : FlowError α} (h : endpoint.resolve names link = .error e) :
    e = endpoint.fault names link := by
  cases endpoint with
  | position index =>
    rw [resolve] at h
    split at h
    · cases h
    · exact (Except.error.inj h).symm
  | named name =>
    rw [resolve] at h
    split at h
    · cases h
    · exact (Except.error.inj h).symm

/-- Among names that are all different, `Endpoint.resolve` fails iff the endpoint means no node. -/
theorem resolve_eq_error_iff (hnodup : names.Nodup) {e : FlowError α} :
    endpoint.resolve names link = .error e
      ↔ (∀ id, ¬endpoint.Means names id) ∧ e = endpoint.fault names link := by
  have hmeans : ∀ id, endpoint.Means names id
      ↔ endpoint.resolve names link = (.ok id : Except (FlowError α) NodeId) :=
    fun _ => (resolve_eq_ok_iff hnodup).symm
  simp only [hmeans]
  -- an endpoint that is resolved to a node means it, and one that is not means none
  cases h : endpoint.resolve (α := α) names link with
  | error e' =>
    rw [eq_fault_of_resolve h, Except.error.injEq, eq_comm]
    simp
  | ok id => simp

end Endpoint

variable [Scalar α]

namespace Flow

variable {names : List String} {flow : Flow α} {link : Nat} {r : ResolvedFlow α} {e : FlowError α}

/-- A flow means one between positions: its amount is one that flows may have, and its endpoints
mean these positions. -/
structure Means (names : List String) (flow : Flow α) (r : ResolvedFlow α) : Prop where
  /-- The amount is an ordinary number that is not below zero. -/
  isAmount : Scalar.IsAmount flow.value
  /-- The amount is the same. -/
  value_eq : r.value = flow.value
  /-- The source is meant by the source. -/
  source : flow.source.Means names r.source
  /-- The target is meant by the target. -/
  target : flow.target.Means names r.target

/-- What is wrong with a flow at a position: its amount is examined first, then its source, and its
target last. -/
inductive Fault (names : List String) (link : Nat) (flow : Flow α) : FlowError α → Prop
  /-- The amount is not one that flows may have. -/
  | value (hvalue : ¬Scalar.IsAmount flow.value) :
    Fault names link flow (.invalidValue link flow.value)
  /-- The amount is one, but the source means no node. -/
  | source (hvalue : Scalar.IsAmount flow.value) (hsource : ∀ id, ¬flow.source.Means names id) :
    Fault names link flow (flow.source.fault names link)
  /-- The amount is one and the source means a node, but the target means none. -/
  | target (hvalue : Scalar.IsAmount flow.value) {id : NodeId}
    (hsource : flow.source.Means names id) (htarget : ∀ id, ¬flow.target.Means names id) :
    Fault names link flow (flow.target.fault names link)

/-- Among names that are all different, `Flow.resolve` gives what the flow `Means`. -/
theorem resolve_eq_ok_iff (hnodup : names.Nodup) :
    flow.resolve names link = .ok r ↔ flow.Means names r := by
  constructor
  · intro h
    obtain ⟨hamount, hvalue, hsource, htarget⟩ := resolve_eq_ok h
    exact ⟨hvalue ▸ hamount, hvalue, (Endpoint.resolve_eq_ok_iff hnodup).1 hsource,
      (Endpoint.resolve_eq_ok_iff hnodup).1 htarget⟩
  · rintro ⟨⟨hfinite, hneg⟩, hvalue, hsource, htarget⟩
    rw [resolve_of_ends hfinite hneg ((Endpoint.resolve_eq_ok_iff hnodup).2 hsource)
      ((Endpoint.resolve_eq_ok_iff hnodup).2 htarget), ← hvalue]

/-- Among names that are all different, `Flow.resolve` fails with the `Fault` of the flow. -/
theorem resolve_eq_error_iff (hnodup : names.Nodup) :
    flow.resolve names link = .error e ↔ flow.Fault names link e := by
  have hamount : (!Scalar.isFinite flow.value) = true ∨ flow.value < 0
      ↔ ¬Scalar.IsAmount flow.value := by
    rw [Scalar.IsAmount, not_and_or, not_not, Bool.not_eq_true']
    simp
  constructor
  · intro h
    rw [resolve] at h
    split at h
    case isTrue hvalue =>
      rw [← Except.error.inj h]
      exact .value (hamount.1 hvalue)
    case isFalse hvalue =>
      have hvalue' : Scalar.IsAmount flow.value := not_not.1 fun hnot => hvalue (hamount.2 hnot)
      -- the amount is looked at first, then the source, and the target last
      cases hs : flow.source.resolve (α := α) names link with
      | error e' =>
        rw [hs] at h
        obtain rfl : e' = e := Except.error.inj h
        obtain ⟨hsource, rfl⟩ := (Endpoint.resolve_eq_error_iff hnodup).1 hs
        exact .source hvalue' hsource
      | ok source =>
        cases ht : flow.target.resolve (α := α) names link with
        | error e' =>
          rw [hs, ht] at h
          obtain rfl : e' = e := Except.error.inj h
          obtain ⟨htarget, rfl⟩ := (Endpoint.resolve_eq_error_iff hnodup).1 ht
          exact .target hvalue' ((Endpoint.resolve_eq_ok_iff hnodup).1 hs) htarget
        | ok target =>
          rw [hs, ht] at h
          cases h
  · intro h
    rw [resolve]
    cases h with
    | value hvalue => rw [if_pos (hamount.2 hvalue)]
    | source hvalue hsource =>
      rw [if_neg fun hnot => hamount.1 hnot hvalue,
        (Endpoint.resolve_eq_error_iff hnodup).2 ⟨hsource, rfl⟩]
      rfl
    | target hvalue hsource htarget =>
      rw [if_neg fun hnot => hamount.1 hnot hvalue, (Endpoint.resolve_eq_ok_iff hnodup).2 hsource,
        (Endpoint.resolve_eq_error_iff hnodup).2 ⟨htarget, rfl⟩]
      rfl

/-- A flow has a `Fault` iff it means nothing. -/
theorem not_exists_means_iff (hnodup : names.Nodup) (link : Nat) :
    (¬∃ r, flow.Means names r) ↔ ∃ e, flow.Fault names link e := by
  have hmeans : ∀ r, flow.Means names r ↔ flow.resolve names link = .ok r :=
    fun _ => (resolve_eq_ok_iff hnodup).symm
  simp only [hmeans, ← resolve_eq_error_iff hnodup]
  cases flow.resolve names link <;> simp

end Flow

section Flows

variable {names : List String} {flows : List (Flow α)} {e : FlowError α}

/-- The flow at a position means nothing. -/
def FaultyAt (names : List String) (flows : List (Flow α)) (position : Nat) : Prop :=
  ∃ flow, flows[position]? = some flow ∧ ¬∃ r, flow.Means names r

/-- Among names that are all different, `resolveAll` gives what the flows mean. -/
theorem resolveAll_eq_ok_iff_means (hnodup : names.Nodup) {resolved : List (ResolvedFlow α)} :
    resolveAll names flows = .ok resolved
      ↔ List.Forall₂ (Flow.Means names) flows resolved := by
  rw [resolveAll_eq_ok_iff]
  simp only [Flow.resolve_eq_ok_iff hnodup, forall_const]

/-- Flows mean one list of flows between positions. -/
theorem Flow.Means.unique (hnodup : names.Nodup) {resolved more : List (ResolvedFlow α)}
    (h : List.Forall₂ (Flow.Means names) flows resolved)
    (hmore : List.Forall₂ (Flow.Means names) flows more) : resolved = more := by
  rw [← resolveAll_eq_ok_iff_means hnodup] at h hmore
  exact Except.ok.inj (h.symm.trans hmore)

/-- `resolveAll` fails with the `Fault` at the least position of `FaultyAt`. -/
theorem exists_of_resolveAll_eq_error (hnodup : names.Nodup)
    (h : resolveAll names flows = .error e) :
    ∃ position flow, IsLeast {p | FaultyAt names flows p} position ∧
      flows[position]? = some flow ∧ flow.Fault names position e := by
  obtain ⟨i, ⟨flow, position⟩, hget, herror, hbefore⟩ := exists_of_mapM_eq_error h
  obtain ⟨hflow, rfl⟩ := getElem?_zipIdx_eq_some_iff.1 hget
  have hfault := (Flow.resolve_eq_error_iff hnodup).1 herror
  have hfaulty : ¬∃ r, flow.Means names r :=
    (Flow.not_exists_means_iff hnodup position).2 ⟨e, hfault⟩
  refine ⟨position, flow, ⟨⟨flow, hflow, hfaulty⟩, ?_⟩, hflow, hfault⟩
  rintro j ⟨other, hother, hnot⟩
  by_contra hj
  obtain ⟨r, hr⟩ := hbefore j (not_le.1 hj) (other, j)
    (getElem?_zipIdx_eq_some_iff.2 ⟨hother, rfl⟩)
  exact hnot ⟨r, (Flow.resolve_eq_ok_iff hnodup).1 hr⟩

/-- Among names that are all different, `resolveAll` fails iff there is a least position of
`FaultyAt`, with the `Fault` there. -/
theorem resolveAll_eq_error_iff (hnodup : names.Nodup) :
    resolveAll names flows = .error e
      ↔ ∃ position flow, IsLeast {p | FaultyAt names flows p} position ∧
        flows[position]? = some flow ∧ flow.Fault names position e := by
  refine ⟨exists_of_resolveAll_eq_error hnodup, ?_⟩
  rintro ⟨position, flow, hleast, hflow, hfault⟩
  cases h : resolveAll names flows with
  | ok resolved =>
    obtain ⟨⟨other, hother, hnot⟩, -⟩ := hleast
    have hmeans := (resolveAll_eq_ok_iff_means hnodup).1 h
    obtain ⟨hlt, rfl⟩ := List.getElem?_eq_some_iff.1 hother
    exact absurd ⟨_, hmeans.get hlt (hmeans.length_eq ▸ hlt)⟩ hnot
  | error e' =>
    obtain ⟨position', flow', hleast', hflow', hfault'⟩ := exists_of_resolveAll_eq_error hnodup h
    obtain rfl := hleast.unique hleast'
    obtain rfl : flow = flow' := Option.some.inj (hflow.symm.trans hflow')
    rw [← Flow.resolve_eq_error_iff hnodup] at hfault hfault'
    rw [Except.error.inj (hfault'.symm.trans hfault)]

end Flows

end SankeyDiagram
