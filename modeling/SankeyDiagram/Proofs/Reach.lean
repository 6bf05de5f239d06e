import SankeyDiagram.Proofs.Arcs
import SankeyDiagram.Reach

/-! # The search finds what is reachable

A table of successors is a graph, and the depth-first search through it answers whether a way leads
from a node to another.

* **`Successors.arcs`** the graph of a table.
* **`Successors.Exploring`** what holds of the nodes that were pushed and of the stack whenever the
  search looks at its stack.
* **`Successors.explore_found_iff`** from such a state the search finds its goal iff a way leads
  there; **`Successors.reaches_eq_true_iff`** hence so does the whole search. -/

namespace SankeyDiagram

namespace Successors

/-- The arcs of a table. -/
def arcs (table : Successors) : List Arc :=
  (List.range table.size).flatMap fun i => (table.of ⟨i⟩).map fun next => (⟨i⟩, next)

/-- All nodes that a table leads to are in the table. -/
def Closed (table : Successors) : Prop :=
  ∀ id next, next ∈ table.of id → next.index < table.size

variable {table : Successors} {start goal : NodeId}

/-- `(a, b)` is an arc of a table iff `b` is a successor of `a`. -/
theorem mem_arcs {a b : NodeId} : (a, b) ∈ table.arcs ↔ b ∈ table.of a := by
  simp only [arcs, List.mem_flatMap, List.mem_range, List.mem_map, Prod.mk.injEq]
  constructor
  · rintro ⟨i, -, next, hnext, rfl, rfl⟩
    exact hnext
  · intro h
    refine ⟨a.index, ?_, b, h, rfl, rfl⟩
    -- a position outside of the table leads nowhere
    by_contra hlt
    rw [of, Array.getD_eq_getD_getElem?, Array.getElem?_eq_none (Nat.le_of_not_lt hlt)] at h
    simp at h

/-- What holds whenever the search looks at its stack: nodes were pushed that the start reaches,
the goal is not among them, and the successors of those that left the stack were pushed too. -/
structure Exploring (table : Successors) (start goal : NodeId) (pushed stack : List NodeId) :
    Prop where
  /-- The start was pushed. -/
  start_mem : start ∈ pushed
  /-- The goal was not. -/
  goal_notMem : goal ∉ pushed
  /-- A way leads to every node that was pushed. -/
  reached : ∀ id ∈ pushed, Reaches table.arcs start id
  /-- The stack holds nodes that were pushed. -/
  stack_subset : stack ⊆ pushed
  /-- Nodes that left the stack had their successors pushed. -/
  expanded : ∀ id ∈ pushed, id ∉ stack → table.of id ⊆ pushed

namespace Exploring

/-- A search starts with `start` on the stack, and nothing else pushed. -/
theorem initial (h : start ≠ goal) : Exploring table start goal [start] [start] where
  start_mem := List.mem_singleton_self start
  goal_notMem := by simpa using Ne.symm h
  reached id hid := by
    rw [List.mem_singleton.1 hid]
    exact Reaches.refl start
  stack_subset := List.Subset.refl _
  expanded id hid hnot := absurd hid hnot

/-- A step of the search keeps `Exploring`: the node on top leaves the stack, and those of its
successors that are `fresh` take its place. -/
theorem expand {pushed stack : List NodeId} {id : NodeId} (hclosed : table.Closed)
    (h : Exploring table start goal pushed (id :: stack)) (hgoal : goal ∉ table.of id) :
    Exploring table start goal ((fresh table pushed (table.of id)).reverse ++ pushed)
      ((fresh table pushed (table.of id)).reverse ++ stack) where
  start_mem := List.mem_append_right _ h.start_mem
  goal_notMem := by
    rw [List.mem_append, List.mem_reverse, mem_fresh]
    rintro (hnew | hold)
    · exact hgoal hnew.1
    · exact h.goal_notMem hold
  reached j hj := by
    rw [List.mem_append, List.mem_reverse, mem_fresh] at hj
    rcases hj with hnew | hold
    · exact (h.reached id (h.stack_subset List.mem_cons_self)).trans (.of_mem (mem_arcs.2 hnew.1))
    · exact h.reached j hold
  stack_subset := by
    refine List.append_subset.2 ⟨List.subset_append_left .., fun j hj => ?_⟩
    exact List.mem_append_right _ (h.stack_subset (List.mem_cons_of_mem _ hj))
  expanded j hj hnot next hnext := by
    rw [List.mem_append, not_or] at hnot
    have hjold : j ∈ pushed := (List.mem_append.1 hj).resolve_left hnot.1
    rw [List.mem_append, List.mem_reverse, mem_fresh]
    by_cases hold : next ∈ pushed
    · exact Or.inr hold
    · -- a successor that was not pushed before belongs to the node on top
      have hjid : j = id := by
        by_contra hne
        have hj' : j ∉ id :: stack := by simp [hne, hnot.2]
        exact hold (h.expanded j hjold hj' hnext)
      subst hjid
      exact Or.inl ⟨hnext, hclosed _ _ hnext, hold⟩

/-- Once the stack is empty, all that `start` reaches was pushed, and `goal` was not. -/
theorem not_reaches {pushed : List NodeId} (h : Exploring table start goal pushed []) :
    ¬ Reaches table.arcs start goal := by
  intro hgoal
  have hall : ∀ id, Reaches table.arcs start id → id ∈ pushed := by
    -- along the way: with an empty stack every node that was pushed is expanded
    intro id hid
    induction hid with
    | refl => exact h.start_mem
    | tail _ hbc ih => exact h.expanded _ ih List.not_mem_nil (mem_arcs.1 hbc)
  exact h.goal_notMem (hall goal hgoal)

end Exploring

/-- From any state in `Exploring`, `explore` finds `goal` iff `start` reaches it. -/
theorem explore_found_iff (hclosed : table.Closed) {pushed stack : List NodeId}
    (h : Exploring table start goal pushed stack) :
    (explore table goal pushed stack).found ↔ Reaches table.arcs start goal := by
  -- the search ends with an empty stack or at the goal; every other step keeps the invariant
  fun_induction explore table goal pushed stack with
  | case1 pushed => simpa using h.not_reaches
  | case2 pushed id stack next hmem =>
    have hid := h.reached id (h.stack_subset List.mem_cons_self)
    simpa using hid.trans (.of_mem (mem_arcs.2 hmem))
  | case3 pushed id stack next hmem new ih => exact ih (h.expand hclosed hmem)

/-- **`table.reaches start goal` is true iff a way along the arcs of the table leads from `start` to
`goal`.** -/
theorem reaches_eq_true_iff (hclosed : table.Closed) :
    table.reaches start goal = true ↔ Reaches table.arcs start goal := by
  rw [reaches, search]
  split
  case isTrue h =>
    subst h
    simpa using Reaches.refl start
  case isFalse h => exact explore_found_iff hclosed (Exploring.initial h)

end Successors

end SankeyDiagram
