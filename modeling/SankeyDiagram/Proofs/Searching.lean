import SankeyDiagram.Proofs.Reach

/-! # The search step by step

The search with a mark for each position of the table, one look-up after the other. A look-up
outside of the table ends it without a result, and so does a bound on the number of its steps. On
tables that lead to nothing outside neither happens, whatever cycles they have, and what is found
is what the search finds that looks at its stack only.

* **`Frontier`** the marks, the stack, and the record of what was ever put on it;
  **`Frontier.look`**, **`Frontier.step`**, **`Frontier.run`** what is done with them.
* **`Frontier.Marked`** the marks are those of the nodes on record, each there once.
* **`Frontier.Marked.look_all`** what becomes of the successors of a node.
* **`Frontier.run_eq_done`** a run ends, and it finds what the search finds.
* **`Successors.searchWithin_eq_done`** hence a search decides whether a way leads to its goal. -/

namespace SankeyDiagram

/-! ## A search with marks -/

/-- How a search ends. -/
inductive Verdict where
  /-- A position that is not in the table was looked up. -/
  | outOfRange
  /-- The search would have gone on. -/
  | unfinished
  /-- The search came to a result. -/
  | done (result : Search)
deriving DecidableEq, Repr

/-- Where a search stands. -/
structure Frontier where
  /-- For each position of the table, whether its node was put on the stack. -/
  marks : Array Bool
  /-- The nodes that are still to be looked at, the next one first. -/
  stack : List NodeId
  /-- The nodes that were ever put on the stack, the latest first. -/
  pushed : List NodeId
deriving DecidableEq, Repr

namespace Frontier

/-- A search starts with its first node on the stack. -/
def initial (table : Successors) (start : NodeId) : Frontier :=
  ⟨(Array.replicate table.size false).setIfInBounds start.index true, [start], [start]⟩

/-- A node that is not marked is put on the stack. -/
def push (f : Frontier) (id : NodeId) : Frontier :=
  ⟨f.marks.setIfInBounds id.index true, id :: f.stack, id :: f.pushed⟩

/-- `push` puts a node on the stack. -/
@[simp] theorem stack_push (f : Frontier) (id : NodeId) : (f.push id).stack = id :: f.stack := rfl

/-- `push` puts a node on record. -/
@[simp] theorem pushed_push (f : Frontier) (id : NodeId) :
    (f.push id).pushed = id :: f.pushed := rfl

/-- The next one of the successors of a node: the search is over if it is the goal, and otherwise it
is put on the stack unless it is marked. -/
def look (goal : NodeId) (f : Frontier) (next : NodeId) : Except Verdict Frontier :=
  if next = goal then .error (.done ⟨true, f.pushed⟩)
  else
    match f.marks[next.index]? with
    | none => .error .outOfRange
    | some true => .ok f
    | some false => .ok (f.push next)

/-- The node on top leaves the stack, and its successors are looked at in order. -/
def step (table : Successors) (goal : NodeId) (f : Frontier) : Except Verdict Frontier :=
  match f.stack with
  | [] => .error (.done ⟨false, f.pushed⟩)
  | id :: stack =>
    match table[id.index]? with
    | none => .error .outOfRange
    | some next => next.foldlM (look goal) { f with stack }

/-- Steps until the search is over, at most as many as given. -/
def run (table : Successors) (goal : NodeId) : Nat → Frontier → Verdict
  | 0, _ => .unfinished
  | steps + 1, f =>
    match f.step table goal with
    | .error verdict => verdict
    | .ok f => run table goal steps f

end Frontier

namespace Successors

/-- A search for a node from another, with at most as many steps as given. -/
def searchWithin (table : Successors) (steps : Nat) (start goal : NodeId) : Verdict :=
  if start = goal then .done ⟨true, []⟩
  else if start.index < table.size then
    Frontier.run table goal steps (.initial table start)
  else .outOfRange

end Successors

/-! ## Marks -/

namespace Frontier

variable {table : Successors} {goal : NodeId} {f : Frontier}

/-- Just the nodes on record are marked; every node on record is in the table, and is there once. -/
structure Marked (table : Successors) (f : Frontier) : Prop where
  /-- The positions of the table have marks, for the nodes on record. -/
  marks : ∀ id, f.marks[id.index]? =
    if id.index < table.size then some (decide (id ∈ f.pushed)) else none
  /-- Nodes on record are in the table. -/
  inTable : ∀ id ∈ f.pushed, id.index < table.size
  /-- No node is on record twice. -/
  nodup : f.pushed.Nodup
  /-- The stack holds nodes on record. -/
  stack_subset : f.stack ⊆ f.pushed

namespace Marked

/-- `Marked` holds of the first frontier, with its first node on record. -/
theorem initial {start : NodeId} (h : start.index < table.size) :
    Marked table (.initial table start) where
  marks id := by
    rw [Frontier.initial, Array.getElem?_setIfInBounds, Array.size_replicate,
      Array.getElem?_replicate]
    by_cases hid : start = id
    · simp [← hid, h]
    · simp [NodeId.index_inj, hid, Ne.symm hid]
  inTable id hid := by rwa [List.mem_singleton.1 hid]
  nodup := List.nodup_singleton start
  stack_subset := List.Subset.refl _

/-- `push` keeps `Marked` for a node that is not on record. -/
theorem push {id : NodeId} (h : Marked table f) (hid : id.index < table.size)
    (hnew : id ∉ f.pushed) : Marked table (f.push id) where
  marks j := by
    have hsize : id.index < f.marks.size := by
      have hmark := h.marks id
      rw [if_pos hid] at hmark
      exact (Array.getElem?_eq_some_iff.1 hmark).1
    rw [Frontier.push, Array.getElem?_setIfInBounds, h.marks]
    by_cases hj : id = j
    · simp [← hj, hid, hsize]
    · simp [NodeId.index_inj, hj, Ne.symm hj]
  inTable j hj := by
    rcases List.mem_cons.1 hj with rfl | hj
    · exact hid
    · exact h.inTable j hj
  nodup := List.nodup_cons.2 ⟨hnew, h.nodup⟩
  stack_subset := List.cons_subset_cons id h.stack_subset

/-- Taking a node off the stack keeps `Marked`. -/
theorem pop {id : NodeId} {stack : List NodeId} (h : Marked table f)
    (hstack : f.stack = id :: stack) : Marked table { f with stack } where
  marks := h.marks
  inTable := h.inTable
  nodup := h.nodup
  stack_subset _ hj := h.stack_subset (hstack ▸ List.mem_cons_of_mem id hj)

/-- `look goal next` puts a successor in the table that is not the goal on the stack iff it is not
on record. -/
theorem look_eq {next : NodeId} (h : Marked table f) (hnext : next.index < table.size)
    (hgoal : next ≠ goal) :
    f.look goal next = .ok (if next ∈ f.pushed then f else f.push next) := by
  rw [look, if_neg hgoal, h.marks, if_pos hnext]
  by_cases hmem : next ∈ f.pushed
  · simp [hmem]
  · simp [hmem]

/-- **`look` at all successors in the table: the search is over if the goal is one of them, and
otherwise those that are `fresh` are put on the stack.** -/
theorem look_all {next : List NodeId} (goal : NodeId) (h : Marked table f)
    (hnext : ∀ id ∈ next, id.index < table.size) :
    (goal ∈ next ∧ ∃ g, Marked table g ∧
        next.foldlM (look goal) f = .error (.done ⟨true, g.pushed⟩)) ∨
      (goal ∉ next ∧ ∃ g, Marked table g ∧ next.foldlM (look goal) f = .ok g ∧
        g.stack = (Successors.fresh table f.pushed next).reverse ++ f.stack ∧
        g.pushed = (Successors.fresh table f.pushed next).reverse ++ f.pushed) := by
  induction next generalizing f with
  | nil => exact Or.inr ⟨List.not_mem_nil, f, h, rfl, rfl, rfl⟩
  | cons id next ih =>
    rw [List.forall_mem_cons] at hnext
    rw [List.foldlM_cons]
    by_cases hgoal : id = goal
    · -- nothing after the goal is looked at
      refine Or.inl ⟨hgoal ▸ List.mem_cons_self, f, h, ?_⟩
      rw [look, if_pos hgoal]
      rfl
    · have hmem : goal ∈ id :: next ↔ goal ∈ next := by simp [Ne.symm hgoal]
      rw [h.look_eq hnext.1 hgoal, hmem, Successors.fresh]
      by_cases hold : id ∈ f.pushed
      · rw [if_pos hold, if_neg fun hnew => hnew.2 hold]
        exact ih h hnext.2
      · rw [if_neg hold, if_pos ⟨hnext.1, hold⟩]
        have hpushed := ih (h.push hnext.1 hold) hnext.2
        simpa [bind, Except.bind] using hpushed

end Marked

/-! ## Runs -/

/-- Each `fresh` node on record is one less that is `unpushed`. -/
theorem unpushed_fresh (table : Successors) (pushed next : List NodeId) :
    Successors.unpushed table ((Successors.fresh table pushed next).reverse ++ pushed)
        + (Successors.fresh table pushed next).reverse.length
      = Successors.unpushed table pushed := by
  refine Successors.unpushed_append table pushed _ ?_ fun id hid => ?_
  · exact List.nodup_reverse.2 (Successors.nodup_fresh ..)
  · exact (Successors.mem_fresh.1 (List.mem_reverse.1 hid)).2

/-- `step` looks at the successors of the node on top. -/
theorem Marked.step_eq {id : NodeId} {stack : List NodeId} (h : Marked table f)
    (hstack : f.stack = id :: stack) :
    f.step table goal = (table.of id).foldlM (look goal) { f with stack } := by
  have hid : id.index < table.size :=
    h.inTable id (h.stack_subset (hstack ▸ List.mem_cons_self))
  rw [step, hstack]
  simp [Successors.of, Array.getD, hid]

/-- **From any stack `run` ends, and it finds what `explore` finds, which looks at its stack only.**
Each node that is not on record yet needs one step, so does each on the stack, and one is needed to
see that the stack is empty. -/
theorem run_eq_done (goal : NodeId) (hclosed : table.Closed) (h : Marked table f) :
    ∃ result : Search,
      (∀ steps, Successors.unpushed table f.pushed + f.stack.length < steps →
        run table goal steps f = .done result) ∧
      result.pushed.Nodup ∧ (∀ id ∈ result.pushed, id.index < table.size) ∧
      result.found = (Successors.explore table goal f.pushed f.stack).found := by
  obtain ⟨marks, stack, pushed⟩ := f
  simp only
  -- on the search without marks: both have the same stack before each step
  fun_induction Successors.explore table goal pushed stack generalizing marks with
  | case1 pushed =>
    refine ⟨⟨false, pushed⟩, fun steps hsteps => ?_, h.nodup, h.inTable, rfl⟩
    obtain ⟨steps, rfl⟩ := Nat.exists_eq_add_of_lt hsteps
    rfl
  | case2 pushed id stack next hmem =>
    -- some successors before the goal may have been pushed, which are on record too
    obtain ⟨-, g, hg, hlook⟩ | ⟨hnot, -⟩ := (h.pop rfl).look_all goal (hclosed id)
    · refine ⟨⟨true, g.pushed⟩, fun steps hsteps => ?_, hg.nodup, hg.inTable, rfl⟩
      obtain ⟨steps, rfl⟩ := Nat.exists_eq_add_of_lt hsteps
      rw [run, h.step_eq rfl, hlook]
    · exact absurd hmem hnot
  | case3 pushed id stack next hmem new ih =>
    obtain ⟨hgoal, -⟩ | ⟨-, ⟨marks, stack', pushed'⟩, hg, hlook, hstack, hpushed⟩ :=
      (h.pop rfl).look_all goal (hclosed id)
    · exact absurd hgoal hmem
    · simp only at hstack hpushed
      subst hstack hpushed
      obtain ⟨result, hrun, hresult⟩ := ih marks hg
      refine ⟨result, fun steps hsteps => ?_, hresult⟩
      -- what is new goes from the nodes not on record to the stack, and one node has left it
      have hnew : Successors.unpushed table (new ++ pushed) + new.length
          = Successors.unpushed table pushed := unpushed_fresh table pushed next
      obtain ⟨steps, rfl⟩ := Nat.exists_eq_add_of_lt hsteps
      rw [run, h.step_eq rfl, hlook]
      refine hrun _ ?_
      simp only [List.length_append, List.length_cons] at hsteps ⊢
      omega

end Frontier

/-! ## Searches -/

namespace Successors

variable {table : Successors} {start : NodeId}

/-- `Reaches arcs a b` iff a `Walk` of some length leads there. -/
theorem reaches_iff_exists_walk {arcs : List Arc} {a b : NodeId} :
    Reaches arcs a b ↔ ∃ k, Walk arcs k a b := by
  constructor
  · intro h
    induction h with
    | refl => exact ⟨0, .here a⟩
    | tail _ hbc ih =>
      obtain ⟨k, hk⟩ := ih
      exact ⟨k + 1, hk.step hbc⟩
  · rintro ⟨k, h⟩
    induction h with
    | here a => exact Reaches.refl a
    | step _ hbc ih => exact ih.trans (.of_mem hbc)

/-- When one node is on record, all others are `unpushed`. -/
theorem unpushed_singleton (h : start.index < table.size) :
    unpushed table [start] + 1 = table.size := by
  rw [unpushed_cons table h List.not_mem_nil]
  simp [unpushed]

/-- **A search in a `Closed` table decides whether a `Walk` of any length leads from a node of the
table to another.** It ends after at most `table.size + 1` steps, without a look-up outside of the
table; it puts no node on its stack twice; and it finds what `reaches` finds. -/
theorem searchWithin_eq_done (hclosed : table.Closed) (hstart : start.index < table.size)
    (goal : NodeId) :
    ∃ result : Search,
      (∀ steps, table.size < steps → table.searchWithin steps start goal = .done result) ∧
      result.pushed.Nodup ∧ (∀ id ∈ result.pushed, id.index < table.size) ∧
      result.found = table.reaches start goal ∧
      (result.found ↔ ∃ k, Walk table.arcs k start goal) := by
  have hwalk : table.reaches start goal ↔ ∃ k, Walk table.arcs k start goal := by
    rw [reaches_eq_true_iff hclosed, reaches_iff_exists_walk]
  by_cases heq : start = goal
  · have hfound : table.reaches start goal = true := by rw [reaches, search, if_pos heq]
    refine ⟨⟨true, []⟩, fun steps _ => if_pos heq, List.nodup_nil, by simp, hfound.symm, ?_⟩
    rw [← hwalk, hfound]
  · have hfound : table.reaches start goal = (explore table goal [start] [start]).found := by
      rw [reaches, search, if_neg heq]
    obtain ⟨result, hrun, hnodup, hin, hresult⟩ :=
      Frontier.run_eq_done goal hclosed (Frontier.Marked.initial hstart)
    have hresult : result.found = table.reaches start goal := hresult.trans hfound.symm
    refine ⟨result, fun steps hsteps => ?_, hnodup, hin, hresult, by rw [hresult, hwalk]⟩
    -- all nodes but the first are not on record, and the stack holds one
    have hbound : unpushed table [start] + [start].length < steps := by
      rwa [List.length_singleton, unpushed_singleton hstart]
    rw [searchWithin, if_neg heq, if_pos hstart]
    exact hrun steps hbound

/-- `table.Closed` iff its positions lead to its positions only. -/
theorem closed_iff :
    table.Closed ↔ ∀ i < table.size, ∀ next ∈ table.of ⟨i⟩, next.index < table.size := by
  refine ⟨fun h i _ => h ⟨i⟩, fun h id next hnext => ?_⟩
  by_cases hid : id.index < table.size
  · exact h id.index hid next hnext
  · simp [of, Array.getD, hid] at hnext

/-- A table with a cycle of three nodes, the first of which leads to itself and twice to the next,
and a node that nothing leads to. -/
def knot : Successors := #[[⟨1⟩, ⟨1⟩, ⟨0⟩], [⟨2⟩], [⟨0⟩, ⟨2⟩], [⟨3⟩, ⟨0⟩]]

/-- The cycle of `knot` leads around, and not out of itself. -/
theorem searchWithin_eq_done_knot :
    (∃ result : Search, (∀ steps, 4 < steps → knot.searchWithin steps ⟨0⟩ ⟨3⟩ = .done result) ∧
        result.pushed.Nodup ∧ result.found = false ∧ ¬∃ k, Walk knot.arcs k ⟨0⟩ ⟨3⟩) ∧
      ∃ k, Walk knot.arcs k ⟨3⟩ ⟨2⟩ := by
  have hclosed : knot.Closed := closed_iff.2 (by decide)
  have hfar : knot.reaches ⟨0⟩ ⟨3⟩ = false := by decide +kernel
  have hnear : knot.reaches ⟨3⟩ ⟨2⟩ = true := by decide +kernel
  obtain ⟨result, hrun, hnodup, -, hfound, hwalk⟩ :=
    searchWithin_eq_done hclosed (by decide : (⟨0⟩ : NodeId).index < knot.size) ⟨3⟩
  obtain ⟨other, -, -, -, hother, hway⟩ :=
    searchWithin_eq_done hclosed (by decide : (⟨3⟩ : NodeId).index < knot.size) ⟨2⟩
  rw [hfar] at hfound
  rw [hnear] at hother
  refine ⟨⟨result, hrun, hnodup, hfound, ?_⟩, hway.1 hother⟩
  rw [← hwalk, hfound]
  exact Bool.false_ne_true

/-- A table that leads outside of itself has no result. -/
example : searchWithin #[[⟨7⟩]] 2 ⟨0⟩ ⟨1⟩ = .outOfRange := by decide

end Successors

end SankeyDiagram
