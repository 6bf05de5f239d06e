import SankeyDiagram.Proofs.Assembly

/-! # Nodes and links that belong together

The lists of links at the nodes, the ends of the links and the roots of a diagram say the same thing
three times over.

* **`Diagram.WellFormed`** they agree: links end at nodes, each stands once on each of its two
  sides and nowhere else, no two join the same nodes, and the roots are the nodes without links
  that enter them.
* **`Diagram.mem_arcs_iff_exists_link`** the arcs of a diagram, read off its links.
* **`Diagram.wellFormed_ofFlows`** the diagram of flows is well-formed. -/

namespace SankeyDiagram

variable {α : Type}

/-- The places at which `xs` has elements that pass `test`, in two ways: read off `xs.zipIdx`, and
picked from all positions below `xs.length`. -/
theorem map_snd_filter_zipIdx {β : Type} (xs : List β) (test : β → Bool) :
    (xs.zipIdx.filter fun p => test p.1).map Prod.snd
      = (List.range xs.length).filter fun i => xs[i]?.any test := by
  induction xs using List.reverseRecOn with
  | nil => rfl
  | append_singleton xs x ih =>
    have hold : ((List.range xs.length).filter fun i => (xs ++ [x])[i]?.any test)
        = (List.range xs.length).filter fun i => xs[i]?.any test := by
      refine List.filter_congr fun i hi => ?_
      rw [List.getElem?_append_left (List.mem_range.1 hi)]
    rw [List.zipIdx_append, List.filter_append, List.map_append, ih, List.length_append,
      List.length_singleton, List.range_succ, List.filter_append, hold]
    cases h : test x <;> simp [h]

namespace Intake

/-! ## Positions of links -/

/-- `linkIds links test` holds the positions of the links that pass `test`. -/
theorem mem_linkIds {links : List (Link α)} {test : Link α → Bool} {id : LinkId} :
    id ∈ linkIds links test ↔ ∃ l, links[id.index]? = some l ∧ test l = true := by
  simp only [linkIds, List.mem_map, List.mem_filter, Prod.exists, List.mk_mem_zipIdx_iff_getElem?]
  constructor
  · rintro ⟨l, i, ⟨hl, htest⟩, rfl⟩
    exact ⟨l, hl, htest⟩
  · rintro ⟨l, hl, htest⟩
    exact ⟨l, id.index, ⟨hl, htest⟩, rfl⟩

/-- `linkIds links test` picks its positions from `List.range links.length`. -/
theorem linkIds_eq_map_range (links : List (Link α)) (test : Link α → Bool) :
    linkIds links test
      = ((List.range links.length).filter fun i => links[i]?.any test).map LinkId.mk := by
  rw [← map_snd_filter_zipIdx, List.map_map]
  rfl

/-- Links that are all changed alike stand where they stood, so `linkIds` is the same. -/
theorem linkIds_map {β : Type} {change : Link α → Link β} {test : Link α → Bool}
    {other : Link β → Bool} (links : List (Link α)) (h : ∀ l, other (change l) = test l) :
    linkIds (links.map change) other = linkIds links test := by
  rw [linkIds_eq_map_range, linkIds_eq_map_range, List.length_map]
  refine congrArg _ (List.filter_congr fun i _ => ?_)
  rw [List.getElem?_map, Option.any_map]
  simp only [h]

/-- The positions in `linkIds links test` ascend. -/
theorem pairwise_linkIds (links : List (Link α)) (test : Link α → Bool) :
    (linkIds links test).Pairwise fun l m => l.index < m.index := by
  rw [linkIds_eq_map_range, List.pairwise_map]
  exact List.pairwise_lt_range.filter _

/-- `linkIds links test` holds every position once. -/
theorem nodup_linkIds (links : List (Link α)) (test : Link α → Bool) :
    (linkIds links test).Nodup := by
  refine (pairwise_linkIds links test).imp fun hlt heq => ?_
  rw [heq] at hlt
  exact lt_irrefl _ hlt

end Intake

namespace Diagram

/-- `d.nodeIds` holds the positions at which `d` has nodes. -/
theorem mem_nodeIds {d : Diagram α} {id : NodeId} : id ∈ d.nodeIds ↔ d.hasNode id := by
  rw [nodeIds, List.mem_map, hasNode_iff]
  constructor
  · rintro ⟨i, hi, rfl⟩
    exact List.mem_range.1 hi
  · intro h
    exact ⟨id.index, List.mem_range.2 h, rfl⟩

end Diagram

variable [Scalar α]

/-- `Node.unplaced name` has no links on either side. -/
@[simp] theorem Node.linksAt_unplaced (name : String) (side : Side) :
    (unplaced name : Node α).linksAt side = [] := by
  cases side <;> rfl

namespace Diagram

/-- Nodes, links and roots belong together. -/
structure WellFormed (d : Diagram α) : Prop where
  /-- Links start and end at nodes. -/
  below : ArcsBelow d.nodes.size d.arcs
  /-- A link stands on a side of a node iff its end on that side is the node. -/
  mem_linksAt : ∀ (side : Side) (id : NodeId) (l : LinkId),
    l ∈ (d.node id).linksAt side ↔ d.hasLink l ∧ (d.link l).nearEnd side = id
  /-- A link stands once on a side of a node. -/
  nodup_linksAt : ∀ (side : Side) (id : NodeId), ((d.node id).linksAt side).Nodup
  /-- No two links join the same nodes. -/
  nodup_arcs : d.arcs.Nodup
  /-- The roots are the nodes that no link enters, in order. -/
  roots_eq : d.roots = d.nodeIds.filter fun id => (d.node id).isSource

/-- Where there is no node, `d.node id` is `Node.unplaced ""`. -/
theorem node_of_not_lt (d : Diagram α) {id : NodeId} (h : ¬ id.index < d.nodes.size) :
    d.node id = .unplaced "" := by
  simp [node, Array.getD, h]

/-- Where there is no node, all diagrams of one size read the same, `Node.unplaced ""`. -/
theorem node_eq_of_not_hasNode {d e : Diagram α} {id : NodeId}
    (hsize : e.nodes.size = d.nodes.size) (hid : ¬d.hasNode id) : e.node id = d.node id := by
  rw [hasNode_iff] at hid
  rw [d.node_of_not_lt hid, e.node_of_not_lt (by rwa [hsize])]

/-- `(a, b)` is an arc of `d` iff a link of `d` leads from `a` to `b`. -/
theorem mem_arcs_iff_exists_link {d : Diagram α} {a b : NodeId} :
    (a, b) ∈ d.arcs ↔ ∃ l, d.hasLink l ∧ (d.link l).source = a ∧ (d.link l).target = b := by
  rw [arcs, List.mem_map]
  constructor
  · rintro ⟨link, hlink, harc⟩
    obtain ⟨i, hi, rfl⟩ := List.getElem_of_mem hlink
    have hi' : i < d.links.size := by simpa using hi
    refine ⟨⟨i⟩, by simpa using hi', ?_⟩
    have hlink : d.link ⟨i⟩ = d.links[i] := d.link_of_lt hi'
    rw [hlink]
    simpa [Link.arc] using harc
  · rintro ⟨l, hl, rfl, rfl⟩
    rw [hasLink_iff] at hl
    refine ⟨d.link l, ?_, rfl⟩
    rw [d.link_of_lt hl]
    simp

end Diagram

namespace Intake

/-! ## The diagram of links is well-formed -/

variable {s : Intake α} {names : List String} {flows : List (ResolvedFlow α)}

/-- `s.diagram names` has a node for every name. -/
@[simp] theorem size_nodes_diagram (s : Intake α) (names : List String) :
    (s.diagram names).nodes.size = names.length := by
  simp [diagram]

/-- On a side of `node links position name` stand the links with their near end at `position`. -/
theorem linksAt_node (links : List (Link α)) (position : Nat) (name : String) (side : Side) :
    (node links position name).linksAt side
      = linkIds links fun l => l.nearEnd side = ⟨position⟩ := by
  cases side <;> rfl

/-- The node of `s.diagram names` at a position has the name there, and the links of `s` at it. -/
theorem node_diagram {id : NodeId} (h : id.index < names.length) :
    (s.diagram names).node id = node s.links id.index names[id.index] := by
  rw [Diagram.node_of_lt _ (by simpa using h)]
  simp [diagram]

/-- The link of `s.diagram names` at a position is the link of `s` there, if there is one. -/
theorem hasLink_and_link_diagram {l : LinkId} (test : Link α → Prop) :
    (s.diagram names).hasLink l ∧ test ((s.diagram names).link l)
      ↔ ∃ link, s.links[l.index]? = some link ∧ test link := by
  have hsize : (s.diagram names).links.size = s.links.length := by simp [diagram]
  rw [Diagram.hasLink_iff, hsize]
  constructor
  · rintro ⟨hl, htest⟩
    rw [Diagram.link_of_lt _ (by rwa [hsize])] at htest
    exact ⟨_, List.getElem?_eq_getElem hl, by simpa [diagram] using htest⟩
  · rintro ⟨link, hlink, htest⟩
    obtain ⟨hl, rfl⟩ := List.getElem?_eq_some_iff.1 hlink
    refine ⟨hl, ?_⟩
    rw [Diagram.link_of_lt _ (by rwa [hsize])]
    simpa [diagram] using htest

/-- No two links of `s` join the same nodes. -/
theorem Accounts.nodup_arcs (h : s.Accounts flows) : s.arcs.Nodup := by
  rw [List.nodup_iff_count_le_one]
  intro arc
  have hcount : s.arcs.count arc = (s.linksBetween arc).length := by
    rw [arcs, List.count, List.countP_map, List.countP_eq_length_filter, linksBetween]
    refine congrArg List.length (List.filter_congr fun l _ => ?_)
    rw [Function.comp_apply, Bool.eq_iff_iff, beq_iff_eq, decide_eq_true_eq]
  rw [hcount]
  rcases h.between arc with ⟨first, later, -, hone, -⟩ | ⟨hnone, -⟩
  · rw [hone, List.length_singleton]
  · rw [hnone, List.length_nil]
    exact Nat.zero_le 1

/-- The roots of `s.diagram names` are the nodes that no link enters. -/
theorem roots_diagram (s : Intake α) (names : List String) :
    (s.diagram names).roots
      = (s.diagram names).nodeIds.filter fun id => ((s.diagram names).node id).isSource := by
  have hmap : (s.diagram names).roots
      = (((names.mapIdx (node s.links)).zipIdx.filter fun p => p.1.isSource).map Prod.snd).map
        NodeId.mk := by
    rw [List.map_map]
    rfl
  rw [hmap, map_snd_filter_zipIdx, Diagram.nodeIds, size_nodes_diagram, List.filter_map,
    List.length_mapIdx]
  refine congrArg (List.map NodeId.mk) (List.filter_congr fun i hi => ?_)
  rw [List.mem_range] at hi
  have hnode : (s.diagram names).node ⟨i⟩ = node s.links i names[i] := node_diagram hi
  simp [hnode, hi]

/-- Links that account for flows between nodes make a diagram that is `WellFormed`. -/
theorem Accounts.wellFormed (h : s.Accounts flows)
    (hn : ArcsBelow names.length (flows.map ResolvedFlow.arc)) :
    (s.diagram names).WellFormed where
  below arc harc := by
    rw [arcs_diagram] at harc
    rw [size_nodes_diagram]
    exact hn arc (h.arcs_subset harc)
  mem_linksAt side id l := by
    rw [hasLink_and_link_diagram fun link => link.nearEnd side = id]
    by_cases hid : id.index < names.length
    · rw [node_diagram hid, linksAt_node, mem_linkIds]
      simp
    · -- no link ends where there is no node
      rw [Diagram.node_of_not_lt _ (by simpa using hid), Node.linksAt_unplaced]
      refine ⟨fun hl => absurd hl List.not_mem_nil, ?_⟩
      rintro ⟨link, hlink, rfl⟩
      have harc : link.arc ∈ s.arcs := List.mem_map.2 ⟨link, List.mem_of_getElem? hlink, rfl⟩
      obtain ⟨hsource, htarget⟩ := hn _ (h.arcs_subset harc)
      cases side
      · exact absurd hsource hid
      · exact absurd htarget hid
  nodup_linksAt side id := by
    by_cases hid : id.index < names.length
    · rw [node_diagram hid, linksAt_node]
      exact nodup_linkIds ..
    · rw [Diagram.node_of_not_lt _ (by simpa using hid), Node.linksAt_unplaced]
      exact List.nodup_nil
  nodup_arcs := by
    rw [arcs_diagram]
    exact h.nodup_arcs
  roots_eq := roots_diagram s names

end Intake

/-- The diagram of `ofFlows names flows` has a node for every name, is `WellFormed` and has no
cycle. -/
theorem Diagram.wellFormed_ofFlows {names : List String} {flows : List (Flow α)} {d : Diagram α}
    (h : ofFlows names flows = .ok d) :
    d.nodes.size = names.length ∧ d.WellFormed ∧ Acyclic d.arcs := by
  obtain ⟨resolved, intake, -, hresolve, hacc, rfl, -⟩ := exists_intake h
  refine ⟨Intake.size_nodes_diagram .., hacc.wellFormed (arcsBelow_of_resolveAll hresolve), ?_⟩
  rw [Intake.arcs_diagram]
  exact hacc.acyclic

end SankeyDiagram
