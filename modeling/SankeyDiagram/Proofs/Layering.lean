import SankeyDiagram.Diagram.Layering
import SankeyDiagram.Proofs.Arena

/-! # Layers are longest walks

The sweep from the roots of a diagram without cycles, and the layers that it leads to. The frontier
after `k` steps holds the nodes to which a walk of `k` links leads from a root. Every walk can be
taken back to a root, so the last frontier that holds a node tells the length of the longest walk
to it.

* **`Diagram.mem_layer`**, **`Diagram.flatten_layers_perm`** the layers of any diagram hold every
  node once.
* **`Diagram.frontierAt`** the frontier after a number of steps;
  **`Diagram.WellFormed.mem_frontierAt`** it holds the ends of the walks from the roots.
* **`Diagram.WellFormed.frontiers_eq_map`** a sweep has one frontier for every length of a walk.
* **`Diagram.LayeredBy`** what layers by longest walks are.
* **`Diagram.ofFlows_withLayers_layeredBy`** the layout puts the diagram of flows in such layers. -/

namespace SankeyDiagram

/-! ## Lists -/

/-- The last of the positions below `n` that pass `test` is the greatest one. -/
theorem getLast?_filter_range {n k : Nat} {test : Nat → Bool}
    (h : IsGreatest {i | i < n ∧ test i = true} k) :
    ((List.range n).filter test).getLast? = some k := by
  -- the last position decides if it passes, and is of no account if not
  induction n with
  | zero => exact absurd h.1.1 (Nat.not_lt_zero k)
  | succ n ih =>
    rw [List.range_succ, List.filter_append, List.filter_singleton]
    obtain ⟨⟨hk, htest⟩, hle⟩ := h
    cases hn : test n with
    | true =>
      have hnk : n ≤ k := hle ⟨Nat.lt_succ_self n, hn⟩
      have heq : k = n := by omega
      rw [cond_true, List.getLast?_concat, heq]
    | false =>
      have hne : k ≠ n := fun heq => by simp [heq, hn] at htest
      have hlt : k < n := by omega
      rw [cond_false, List.append_nil]
      exact ih ⟨⟨hlt, htest⟩, fun i hi => hle ⟨Nat.lt_succ_of_lt hi.1, hi.2⟩⟩

namespace Diagram

section Layers

variable {α : Type}

/-- `d.nodeIds` holds every position once. -/
theorem nodup_nodeIds (d : Diagram α) : d.nodeIds.Nodup :=
  List.nodup_range.map fun _ _ h => congrArg NodeId.index h

/-- The positions in `d.nodeIds` ascend. -/
theorem pairwise_nodeIds (d : Diagram α) : d.nodeIds.Pairwise fun a b => a.index < b.index := by
  rw [nodeIds, List.pairwise_map]
  exact List.pairwise_lt_range

variable [Scalar α] {d : Diagram α} {id : NodeId} {k : Nat}

/-- `d.layer k` holds the nodes of `d` whose layer is `k`. -/
theorem mem_layer : id ∈ d.layer k ↔ d.hasNode id ∧ (d.node id).layer = k := by
  rw [layer, List.mem_filter, mem_nodeIds, decide_eq_true_eq]

/-- `d.layerBound` is the least number above the layers of all nodes. -/
theorem layerBound_le_iff : d.layerBound ≤ k ↔ ∀ id, d.hasNode id → (d.node id).layer < k := by
  have hfold : ∀ (nodes : List (Node α)) (bound : Nat),
      nodes.foldl (fun bound n => max bound (n.layer + 1)) bound ≤ k
        ↔ bound ≤ k ∧ ∀ n ∈ nodes, n.layer < k := by
    intro nodes
    -- by induction on the nodes, with any bound so far
    induction nodes with
    | nil => simp
    | cons n rest ih =>
      intro bound
      rw [List.foldl_cons, ih, max_le_iff, List.forall_mem_cons, and_assoc, Nat.succ_le_iff]
  rw [layerBound, ← Array.foldl_toList, hfold]
  constructor
  · rintro ⟨-, h⟩ id hid
    rw [hasNode_iff] at hid
    rw [d.node_of_lt hid]
    exact h _ (by simp)
  · intro h
    refine ⟨Nat.zero_le k, fun n hn => ?_⟩
    obtain ⟨i, hi, rfl⟩ := List.getElem_of_mem hn
    have hi' : i < d.nodes.size := by simpa using hi
    have hlt := h ⟨i⟩ (by simpa using hi')
    have hnode : d.node ⟨i⟩ = d.nodes[i] := d.node_of_lt hi'
    rw [hnode] at hlt
    simpa using hlt

/-- `d.layers` are `d.layerBound` many. -/
theorem length_layers (d : Diagram α) : d.layers.length = d.layerBound := by
  rw [layers, List.length_map, List.length_range]

/-- `d.layers` holds `d.layer k` for every `k` below `d.layerBound`. -/
theorem mem_layers {group : List NodeId} :
    group ∈ d.layers ↔ ∃ k < d.layerBound, d.layer k = group := by
  simp only [layers, List.mem_map, List.mem_range]

/-- At position `k` of `d.layers` stands `d.layer k`. -/
theorem getElem?_layers {group : List NodeId} :
    d.layers[k]? = some group ↔ k < d.layerBound ∧ d.layer k = group := by
  simp [List.getElem?_eq_some_iff, layers]

/-- `d.layers` together hold every node once. -/
theorem flatten_layers_perm (d : Diagram α) : d.layers.flatten.Perm d.nodeIds := by
  have hnodup : d.layers.flatten.Nodup := by
    rw [layers, List.nodup_flatten]
    constructor
    · intro group hgroup
      obtain ⟨k, -, rfl⟩ := List.mem_map.1 hgroup
      exact d.nodup_nodeIds.filter _
    · rw [List.pairwise_map]
      -- a node in two layers would have two layers
      refine List.nodup_range.imp fun hne id hj hk => hne ?_
      exact (mem_layer.1 hj).2.symm.trans (mem_layer.1 hk).2
  rw [List.perm_ext_iff_of_nodup hnodup d.nodup_nodeIds]
  intro id
  rw [List.mem_flatten, mem_nodeIds]
  constructor
  · rintro ⟨group, hgroup, hid⟩
    obtain ⟨k, -, rfl⟩ := mem_layers.1 hgroup
    exact (mem_layer.1 hid).1
  · intro hid
    have hlt := layerBound_le_iff.1 le_rfl id hid
    exact ⟨_, mem_layers.2 ⟨_, hlt, rfl⟩, mem_layer.2 ⟨hid, rfl⟩⟩

/-- The positions in `d.layer k` ascend. -/
theorem pairwise_layer (d : Diagram α) (k : Nat) :
    (d.layer k).Pairwise fun a b => a.index < b.index :=
  d.pairwise_nodeIds.filter _

end Layers

/-! ## Frontiers -/

section Frontiers

variable {α : Type} [Scalar α] {d : Diagram α} {a b : NodeId} {k n : Nat}

/-- The frontier after a number of steps from the roots. -/
def frontierAt (d : Diagram α) (k : Nat) : List NodeId := d.nextFrontier^[k] d.roots

/-- A sweep stops before the first frontier without nodes: until then its frontiers are the iterates
of `d.nextFrontier`. -/
theorem frontiers_eq {limit : Nat} {first : List NodeId} (hn : n ≤ limit)
    (hne : ∀ k < n, d.nextFrontier^[k] first ≠ []) (hnil : d.nextFrontier^[n] first = []) :
    d.frontiers limit first = (List.range n).map fun k => d.nextFrontier^[k] first := by
  -- with each frontier taken there is one less to come, and the sweep goes on from the next
  induction limit generalizing n first with
  | zero =>
    obtain rfl : n = 0 := by omega
    rfl
  | succ limit ih =>
    cases n with
    | zero =>
      have hfirst : first = [] := hnil
      rw [hfirst]
      rfl
    | succ n =>
      have hfirst : first ≠ [] := hne 0 (Nat.zero_lt_succ n)
      have hrest : d.frontiers limit (d.nextFrontier first)
          = (List.range n).map fun k => d.nextFrontier^[k] (d.nextFrontier first) :=
        ih (Nat.le_of_succ_le_succ hn) (fun k hk => hne (k + 1) (Nat.succ_lt_succ hk)) hnil
      rw [frontiers, if_neg (by simpa using hfirst), hrest, List.range_succ_eq_map,
        List.map_cons, List.map_map]
      rfl

/-- `lastFrontier?` is the greatest position at which a frontier holds `b`. -/
theorem lastFrontier?_map_range {frontier : Nat → List NodeId}
    (h : IsGreatest {i | i < n ∧ b ∈ frontier i} k) :
    lastFrontier? ((List.range n).map frontier) b = some k := by
  have hget : lastFrontier? ((List.range n).map frontier) b
      = ((List.range n).filter fun i => (frontier i).contains b).getLast? := by
    rw [lastFrontier?, ← List.getLast?_map, map_snd_filter_zipIdx, List.length_map,
      List.length_range]
    refine congrArg List.getLast? (List.filter_congr fun i hi => ?_)
    rw [List.getElem?_map, List.getElem?_range (List.mem_range.1 hi)]
    rfl
  rw [hget]
  exact getLast?_filter_range (by simpa using h)

namespace WellFormed

/-- `d.targets a` are the ends of the arcs that start at `a`. -/
theorem mem_targets (h : d.WellFormed) : b ∈ d.targets a ↔ (a, b) ∈ d.arcs := by
  rw [targets, List.mem_map, mem_arcs_iff_exists_link]
  constructor
  · rintro ⟨l, hl, rfl⟩
    obtain ⟨hlink, hsource⟩ := (h.mem_linksAt .outgoing a l).1 hl
    exact ⟨l, hlink, hsource, rfl⟩
  · rintro ⟨l, hlink, hsource, rfl⟩
    exact ⟨l, (h.mem_linksAt .outgoing a l).2 ⟨hlink, hsource⟩, rfl⟩

/-- A node is a sink iff no arc starts there. -/
theorem isSink_iff (h : d.WellFormed) : (d.node a).isSink ↔ ∀ arc ∈ d.arcs, arc.1 ≠ a := by
  have hnil : (d.node a).isSink ↔ d.targets a = [] := by
    rw [Node.isSink, List.isEmpty_iff, targets, List.map_eq_nil_iff]
  rw [hnil, List.eq_nil_iff_forall_not_mem]
  constructor
  · rintro hno ⟨a', b⟩ harc rfl
    exact hno b (h.mem_targets.2 harc)
  · intro hno b hb
    exact hno (a, b) (h.mem_targets.1 hb) rfl

/-- A node is a root iff no arc ends there. -/
theorem mem_roots_iff (h : d.WellFormed) :
    b ∈ d.roots ↔ d.hasNode b ∧ ∀ arc ∈ d.arcs, arc.2 ≠ b := by
  rw [h.roots_eq, List.mem_filter, mem_nodeIds, Node.isSource, List.isEmpty_iff,
    List.eq_nil_iff_forall_not_mem]
  refine and_congr_right fun _ => ⟨?_, ?_⟩
  · rintro hno ⟨a, b'⟩ harc rfl
    obtain ⟨l, hlink, -, htarget⟩ := mem_arcs_iff_exists_link.1 harc
    exact hno l ((h.mem_linksAt .incoming _ l).2 ⟨hlink, htarget⟩)
  · intro hno l hl
    obtain ⟨hlink, htarget⟩ := (h.mem_linksAt .incoming b l).1 hl
    exact hno _ (mem_arcs_iff_exists_link.2 ⟨l, hlink, rfl, rfl⟩) htarget

/-- `d.nextFrontier frontier` holds the ends of the arcs that start in `frontier`. -/
theorem mem_nextFrontier (h : d.WellFormed) {frontier : List NodeId} :
    b ∈ d.nextFrontier frontier ↔ ∃ a ∈ frontier, (a, b) ∈ d.arcs := by
  simp only [nextFrontier, List.mem_eraseDups, List.mem_flatMap, h.mem_targets]

/-- `d.frontierAt k` holds the ends of the walks of `k` arcs from the roots. -/
theorem mem_frontierAt (h : d.WellFormed) :
    b ∈ d.frontierAt k ↔ ∃ a ∈ d.roots, Walk d.arcs k a b := by
  induction k generalizing b with
  | zero =>
    constructor
    · intro hb
      exact ⟨b, hb, .here b⟩
    · rintro ⟨a, ha, ⟨⟩⟩
      exact ha
  | succ k ih =>
    -- a walk of one more link goes through the frontier before
    rw [frontierAt, Function.iterate_succ_apply', h.mem_nextFrontier]
    constructor
    · rintro ⟨c, hc, hcb⟩
      obtain ⟨a, ha, hac⟩ := ih.1 hc
      exact ⟨a, ha, hac.step hcb⟩
    · rintro ⟨a, ha, hac | ⟨hac, hcb⟩⟩
      exact ⟨_, ih.2 ⟨a, ha, hac⟩, hcb⟩

/-- Without cycles a walk can be taken back to a root, which does not make it shorter. -/
theorem exists_root_walk (h : d.WellFormed) (hac : Acyclic d.arcs) (ha : d.hasNode a)
    (hab : Walk d.arcs k a b) : ∃ r ∈ d.roots, ∃ j, Walk d.arcs (j + k) r b := by
  -- a walk is shorter than the number of nodes, so it can be prolonged only so many times
  induction hroom : d.nodes.size - k generalizing k a with
  | zero =>
    rw [hasNode_iff] at ha
    have hlt := hab.length_lt hac h.below ha
    omega
  | succ room ih =>
    by_cases hroot : a ∈ d.roots
    · exact ⟨a, hroot, 0, by rwa [Nat.zero_add]⟩
    · rw [h.mem_roots_iff, not_and] at hroot
      have hentered := hroot ha
      push Not at hentered
      obtain ⟨⟨c, a'⟩, hca, rfl⟩ := hentered
      have hc : d.hasNode c := by simpa using (h.below _ hca).1
      obtain ⟨r, hr, j, hwalk⟩ := ih hc (hab.cons hca) (by omega)
      exact ⟨r, hr, j + 1, by rwa [Nat.add_right_comm, Nat.add_assoc]⟩

/-- A longest walk to `b` can start at a root. -/
theorem exists_root_longestTo (h : d.WellFormed) (hac : Acyclic d.arcs) (hb : d.hasNode b)
    (hk : IsGreatest (lengthsTo d.arcs b) k) : ∃ r ∈ d.roots, Walk d.arcs k r b := by
  obtain ⟨a, hab⟩ := hk.1
  rw [hasNode_iff] at hb
  have ha := hab.start_lt h.below hb
  obtain ⟨r, hr, j, hwalk⟩ := h.exists_root_walk hac (by simpa using ha) hab
  have hle : j + k ≤ k := hk.2 ⟨r, hwalk⟩
  obtain rfl : j = 0 := by omega
  exact ⟨r, hr, by rwa [Nat.zero_add] at hwalk⟩

/-- Where there are nodes, `d.frontierAt k` holds some iff there is a walk of `k` arcs. -/
theorem frontierAt_ne_nil_iff (h : d.WellFormed) (hac : Acyclic d.arcs) (hpos : 0 < d.nodes.size) :
    d.frontierAt k ≠ [] ↔ k ∈ lengths d.arcs := by
  constructor
  · intro hne
    obtain ⟨b, hb⟩ := List.exists_mem_of_ne_nil _ hne
    obtain ⟨a, -, hab⟩ := h.mem_frontierAt.1 hb
    exact ⟨b, a, hab⟩
  · rintro ⟨b, a, hab⟩
    -- a walk without arcs may stand anywhere, and is moved to the first node
    obtain ⟨a, ha, b, hab⟩ : ∃ a, d.hasNode a ∧ ∃ b, Walk d.arcs k a b := by
      cases hab with
      | here => exact ⟨⟨0⟩, by simpa using hpos, ⟨0⟩, .here _⟩
      | step hac hcb =>
        have hlt := hac.start_lt h.below (h.below _ hcb).1
        exact ⟨a, by simpa using hlt, b, hac.step hcb⟩
    obtain ⟨r, hr, j, hwalk⟩ := h.exists_root_walk hac ha hab
    rw [Nat.add_comm] at hwalk
    obtain ⟨c, hrc, -⟩ := hwalk.split
    exact List.ne_nil_of_mem (h.mem_frontierAt.2 ⟨r, hr, hrc⟩)

/-- Without nodes `d.frontierAt k` is empty. -/
theorem frontierAt_eq_nil (h : d.WellFormed) (hempty : d.nodes.size = 0) (k : Nat) :
    d.frontierAt k = [] := by
  rw [List.eq_nil_iff_forall_not_mem]
  intro b hb
  obtain ⟨a, ha, -⟩ := h.mem_frontierAt.1 hb
  have hlt := (h.mem_roots_iff.1 ha).1
  rw [hasNode_iff] at hlt
  omega

/-- Without nodes a sweep has no frontiers. -/
theorem frontiers_eq_nil (h : d.WellFormed) (hempty : d.nodes.size = 0) (limit : Nat) :
    d.frontiers limit d.roots = [] :=
  frontiers_eq (Nat.zero_le limit) (fun k hk => absurd hk (Nat.not_lt_zero k))
    (h.frontierAt_eq_nil hempty 0)

/-- Where there are nodes, a sweep has the frontier `d.frontierAt k` for every length `k` of a walk,
however far its `limit` is beyond the number of nodes. -/
theorem frontiers_eq_map (h : d.WellFormed) (hac : Acyclic d.arcs) (hpos : 0 < d.nodes.size)
    {m limit : Nat} (hm : IsGreatest (lengths d.arcs) m) (hlimit : d.nodes.size ≤ limit) :
    d.frontiers limit d.roots = (List.range (m + 1)).map d.frontierAt := by
  have hlt : m < d.nodes.size := hac.lengths_lt h.below hpos hm.1
  have hwalk : ∀ k, d.frontierAt k ≠ [] ↔ k ≤ m := fun k => by
    rw [h.frontierAt_ne_nil_iff hac hpos, mem_lengths_iff_le hm]
  refine frontiers_eq (by omega) (fun k hk => (hwalk k).2 (Nat.le_of_lt_succ hk)) ?_
  by_contra hne
  exact Nat.not_succ_le_self m ((hwalk (m + 1)).1 hne)

/-- `d.sweep` has one frontier more than a longest walk has arcs. -/
theorem length_sweep (h : d.WellFormed) (hac : Acyclic d.arcs) (hpos : 0 < d.nodes.size)
    {m : Nat} (hm : IsGreatest (lengths d.arcs) m) : d.sweep.length = m + 1 := by
  rw [sweep, h.frontiers_eq_map hac hpos hm (Nat.le_succ _), List.length_map, List.length_range]

/-- Without nodes `d.sweep` is empty. -/
theorem length_sweep_of_empty (h : d.WellFormed) (hempty : d.nodes.size = 0) :
    d.sweep.length = 0 := by
  rw [sweep, h.frontiers_eq_nil hempty, List.length_nil]

/-- `d.sweep` has no more frontiers than there are nodes. -/
theorem length_sweep_le (h : d.WellFormed) (hac : Acyclic d.arcs) :
    d.sweep.length ≤ d.nodes.size := by
  rcases Nat.eq_zero_or_pos d.nodes.size with hempty | hpos
  · rw [h.length_sweep_of_empty hempty]
    exact Nat.zero_le _
  · obtain ⟨m, hm⟩ := hac.exists_longest h.below hpos
    rw [h.length_sweep hac hpos hm]
    exact hac.lengths_lt h.below hpos hm.1

/-- A sweep never stops because of its `limit`: every limit from the number of nodes on gives
`d.sweep`. -/
theorem frontiers_eq_sweep (h : d.WellFormed) (hac : Acyclic d.arcs) {limit : Nat}
    (hlimit : d.nodes.size ≤ limit) : d.frontiers limit d.roots = d.sweep := by
  rcases Nat.eq_zero_or_pos d.nodes.size with hempty | hpos
  · rw [sweep, h.frontiers_eq_nil hempty, h.frontiers_eq_nil hempty]
  · obtain ⟨m, hm⟩ := hac.exists_longest h.below hpos
    rw [sweep, h.frontiers_eq_map hac hpos hm hlimit,
      h.frontiers_eq_map hac hpos hm (Nat.le_succ _)]

/-- The frontiers of `d.sweep` are those `d.frontierAt k` that hold nodes. -/
theorem lt_length_sweep_iff (h : d.WellFormed) (hac : Acyclic d.arcs) :
    k < d.sweep.length ↔ d.frontierAt k ≠ [] := by
  rcases Nat.eq_zero_or_pos d.nodes.size with hempty | hpos
  · rw [h.length_sweep_of_empty hempty, h.frontierAt_eq_nil hempty]
    simp
  · obtain ⟨m, hm⟩ := hac.exists_longest h.below hpos
    rw [h.length_sweep hac hpos hm, h.frontierAt_ne_nil_iff hac hpos, mem_lengths_iff_le hm,
      Nat.lt_succ_iff]

/-- The last frontier of `d.sweep` that holds `b` stands at the length of a longest walk to `b`. -/
theorem lastFrontier?_sweep (h : d.WellFormed) (hac : Acyclic d.arcs) (hb : d.hasNode b)
    (hk : IsGreatest (lengthsTo d.arcs b) k) : lastFrontier? d.sweep b = some k := by
  have hpos : 0 < d.nodes.size := Nat.zero_lt_of_lt (d.hasNode_iff b |>.1 hb)
  obtain ⟨m, hm⟩ := hac.exists_longest h.below hpos
  have hkm : k ≤ m := hm.2 ⟨b, hk.1⟩
  rw [sweep, h.frontiers_eq_map hac hpos hm (Nat.le_succ _)]
  refine lastFrontier?_map_range ⟨⟨Nat.lt_succ_of_le hkm, ?_⟩, ?_⟩
  · exact h.mem_frontierAt.2 (h.exists_root_longestTo hac hb hk)
  · rintro j ⟨-, hj⟩
    obtain ⟨a, -, hab⟩ := h.mem_frontierAt.1 hj
    exact hk.2 ⟨a, hab⟩

end WellFormed

end Frontiers

/-! ## The layers of the layout -/

section WithLayers

variable {α : Type} [Scalar α] {d : Diagram α} {id : NodeId} (config : Config α)

/-- The layers of a diagram that is placed are the lengths of the longest walks along the links of
another: every layer but the last one holds the nodes up to which the longest walk has as many
links as layers come before, and the last one holds the nodes that no link leaves as well. -/
structure LayeredBy (placed d : Diagram α) : Prop where
  /-- The nodes are still there. -/
  size_nodes : placed.nodes.size = d.nodes.size
  /-- The links are still the same. -/
  links : placed.links = d.links
  /-- Without nodes there is no layer. -/
  empty : d.nodes.size = 0 → placed.layerCount = 0
  /-- A diagram with nodes has one layer more than the longest walk has links. -/
  longest : 0 < d.nodes.size →
    ∃ m, IsGreatest (lengths d.arcs) m ∧ placed.layerCount = m + 1
  /-- `placed` has no more layers than nodes. -/
  layerCount_le : placed.layerCount ≤ d.nodes.size
  /-- A sweep with any bound that lets through as many frontiers as there are nodes is the same. -/
  sweep_eq : ∀ limit, d.nodes.size ≤ limit → d.frontiers limit d.roots = d.sweep
  /-- The first `placed.layerCount` frontiers of the sweep hold nodes. -/
  frontier_ne_nil : ∀ k < placed.layerCount, d.frontierAt k ≠ []
  /-- The sweep ends since the frontier after these holds no nodes. -/
  frontier_eq_nil : d.frontierAt placed.layerCount = []
  /-- A node that a link leaves is in the layer of the longest walk to it. -/
  layer_of_arc : ∀ arc ∈ d.arcs, IsGreatest (lengthsTo d.arcs arc.1) (placed.node arc.1).layer
  /-- A node that no link leaves is in the last layer. -/
  layer_of_sink : ∀ id, d.hasNode id → (∀ arc ∈ d.arcs, arc.1 ≠ id) →
    (placed.node id).layer = placed.layerCount - 1
  /-- Links lead from the left to the right. -/
  layer_lt : ∀ arc ∈ d.arcs, (placed.node arc.1).layer < (placed.node arc.2).layer
  /-- `placed.layers` lists every layer. -/
  length_layers : placed.layers.length = placed.layerCount
  /-- The list of a layer holds the nodes placed in it. -/
  mem_layers : ∀ k group, placed.layers[k]? = some group →
    ∀ id, id ∈ group ↔ d.hasNode id ∧ (placed.node id).layer = k
  /-- Every layer of `placed.layers` has nodes. -/
  layers_ne_nil : ∀ group ∈ placed.layers, group ≠ []
  /-- `placed.layers` lists every node once. -/
  layers_perm : placed.layers.flatten.Perm d.nodeIds
  /-- In every layer the nodes are listed in ascending order. -/
  layers_sorted : ∀ group ∈ placed.layers, group.Pairwise fun a b => a.index < b.index

/-- `d.withLayers config` has as many nodes as `d`. -/
@[simp] theorem size_nodes_withLayers :
    (d.withLayers config).nodes.size = d.nodes.size := by
  simp [withLayers]

/-- `d.withLayers config` has its nodes at the positions of those of `d`. -/
@[simp] theorem nodeIds_withLayers : (d.withLayers config).nodeIds = d.nodeIds := by
  rw [nodeIds, size_nodes_withLayers, nodeIds]

/-- `d.withLayers config` has a node wherever `d` has one. -/
@[simp] theorem hasNode_withLayers (id : NodeId) :
    (d.withLayers config).hasNode id = d.hasNode id := by
  rw [hasNode, size_nodes_withLayers, hasNode]

/-- The layers are counted by the frontiers of `d.sweep`. -/
@[simp] theorem layerCount_withLayers : (d.withLayers config).layerCount = d.sweep.length := rfl

/-- A node keeps all but what `placeNode` sets: its layer and its horizontal place. -/
theorem node_withLayers (hid : d.hasNode id) :
    (d.withLayers config).node id
      = placeNode config d.sweep.length (placedLayer d.sweep id (d.node id)) (d.node id) := by
  rw [hasNode_iff] at hid
  rw [node_of_lt _ (by simpa using hid), d.node_of_lt hid]
  simp [withLayers]

/-- The layer of a node is `placedLayer d.sweep id (d.node id)`. -/
theorem layer_withLayers (hid : d.hasNode id) :
    ((d.withLayers config).node id).layer = placedLayer d.sweep id (d.node id) := by
  rw [node_withLayers config hid]
  rfl

namespace WellFormed

variable {config} {m : Nat}

/-- A node that an arc leaves is in the layer of its longest walk. -/
theorem layer_of_arc (h : d.WellFormed) (hac : Acyclic d.arcs) {a b : NodeId}
    (hab : (a, b) ∈ d.arcs) :
    IsGreatest (lengthsTo d.arcs a) ((d.withLayers config).node a).layer := by
  have ha : a.index < d.nodes.size := (h.below _ hab).1
  have hnode : d.hasNode a := by simpa using ha
  obtain ⟨k, hk⟩ := hac.exists_longestTo h.below ha
  have hsink : ¬ (d.node a).isSink := fun hs => h.isSink_iff.1 hs _ hab rfl
  rw [layer_withLayers config hnode, placedLayer, if_neg hsink,
    h.lastFrontier?_sweep hac hnode hk]
  exact hk

/-- A node that no arc leaves is in the last layer, `d.sweep.length - 1`. -/
theorem layer_of_sink (h : d.WellFormed) (hid : d.hasNode id)
    (hsink : ∀ arc ∈ d.arcs, arc.1 ≠ id) :
    ((d.withLayers config).node id).layer = d.sweep.length - 1 := by
  rw [layer_withLayers config hid, placedLayer, if_pos (h.isSink_iff.2 hsink)]

/-- No node is placed beyond the length of a longest walk. -/
theorem layer_le (h : d.WellFormed) (hac : Acyclic d.arcs) (hid : d.hasNode id)
    (hm : IsGreatest (lengths d.arcs) m) : ((d.withLayers config).node id).layer ≤ m := by
  by_cases hsink : ∀ arc ∈ d.arcs, arc.1 ≠ id
  · have hpos : 0 < d.nodes.size := Nat.zero_lt_of_lt (d.hasNode_iff id |>.1 hid)
    rw [h.layer_of_sink hid hsink, h.length_sweep hac hpos hm, Nat.add_sub_cancel]
  · push Not at hsink
    obtain ⟨arc, harc, rfl⟩ := hsink
    exact hm.2 ⟨arc.1, (h.layer_of_arc hac harc).1⟩

/-- Every arc leads from a layer to one further to the right. -/
theorem layer_lt (h : d.WellFormed) (hac : Acyclic d.arcs) {a b : NodeId} (hab : (a, b) ∈ d.arcs) :
    ((d.withLayers config).node a).layer < ((d.withLayers config).node b).layer := by
  have hb : d.hasNode b := by simpa using (h.below _ hab).2
  have hlongest : IsGreatest (lengthsTo d.arcs a) ((d.withLayers config).node a).layer :=
    h.layer_of_arc hac hab
  obtain ⟨c, hca⟩ := hlongest.1
  -- the walk to the start goes on to the end, which is in the last layer or in that of its own walk
  by_cases hsink : ∀ arc ∈ d.arcs, arc.1 ≠ b
  · have hpos : 0 < d.nodes.size := Nat.zero_lt_of_lt (h.below _ hab).2
    obtain ⟨m, hm⟩ := hac.exists_longest h.below hpos
    rw [h.layer_of_sink hb hsink, h.length_sweep hac hpos hm, Nat.add_sub_cancel]
    exact hm.2 ⟨b, c, hca.step hab⟩
  · push Not at hsink
    obtain ⟨⟨b', e⟩, hbe, rfl⟩ := hsink
    exact (h.layer_of_arc hac hbe).2 ⟨c, hca.step hab⟩

/-- Up to the length of a longest walk every layer holds a node. -/
theorem exists_layer_eq (h : d.WellFormed) (hac : Acyclic d.arcs) (hpos : 0 < d.nodes.size)
    (hm : IsGreatest (lengths d.arcs) m) {k : Nat} (hk : k ≤ m) :
    ∃ id, d.hasNode id ∧ ((d.withLayers config).node id).layer = k := by
  -- the node of a longest walk that comes after `k` links
  obtain ⟨j, rfl⟩ := Nat.exists_eq_add_of_le hk
  obtain ⟨b, hb⟩ := List.exists_mem_of_ne_nil _ ((h.frontierAt_ne_nil_iff hac hpos).2 hm.1)
  obtain ⟨r, hr, hrb⟩ := h.mem_frontierAt.1 hb
  obtain ⟨c, hrc, hcb⟩ := hrb.split
  cases j with
  | zero =>
    have hlt : r.index < d.nodes.size := d.hasNode_iff r |>.1 (h.mem_roots_iff.1 hr).1
    have hnode : d.hasNode b := by simpa using hrb.end_lt h.below hlt
    refine ⟨b, hnode, ?_⟩
    rw [h.layer_of_sink hnode, h.length_sweep hac hpos hm]
    · rfl
    · -- a link that leaves the end would make the walk longer
      rintro ⟨b', e⟩ hbe rfl
      have hle : k + 1 ≤ k := hm.2 ⟨e, r, hrb.step hbe⟩
      omega
  | succ j =>
    obtain ⟨e, hce⟩ := hcb.exists_first
    refine ⟨c, by simpa using (h.below _ hce).1, ?_⟩
    refine (h.layer_of_arc hac hce).unique ⟨⟨r, hrc⟩, ?_⟩
    rintro i ⟨a, hac'⟩
    have hle : i + (j + 1) ≤ k + (j + 1) := hm.2 ⟨b, a, hac'.append hcb⟩
    omega

/-- There are as many layers as frontiers of `d.sweep`. -/
theorem layerBound_withLayers (h : d.WellFormed) (hac : Acyclic d.arcs) :
    (d.withLayers config).layerBound = d.sweep.length := by
  rcases Nat.eq_zero_or_pos d.nodes.size with hempty | hpos
  · rw [h.length_sweep_of_empty hempty, ← Nat.le_zero, layerBound_le_iff]
    intro id hid
    rw [hasNode_withLayers, hasNode_iff] at hid
    omega
  · obtain ⟨m, hm⟩ := hac.exists_longest h.below hpos
    rw [h.length_sweep hac hpos hm]
    -- no layer is beyond the longest walk, and the end of this walk is in the last one
    refine Nat.le_antisymm (layerBound_le_iff.2 fun id hid => ?_) ?_
    · rw [hasNode_withLayers] at hid
      exact Nat.lt_succ_of_le (h.layer_le hac hid hm)
    · have hlast : ∃ id, d.hasNode id ∧ ((d.withLayers config).node id).layer = m :=
        h.exists_layer_eq hac hpos hm le_rfl
      obtain ⟨id, hid, hlayer⟩ := hlast
      rw [← hasNode_withLayers config] at hid
      have hlt := layerBound_le_iff.1 le_rfl id hid
      rw [hlayer] at hlt
      exact hlt

/-- Every layer below `d.sweep.length` holds a node. -/
theorem layer_ne_nil (h : d.WellFormed) (hac : Acyclic d.arcs) {k : Nat}
    (hk : k < d.sweep.length) : (d.withLayers config).layer k ≠ [] := by
  have hpos : 0 < d.nodes.size := (Nat.zero_lt_of_lt hk).trans_le (h.length_sweep_le hac)
  obtain ⟨m, hm⟩ := hac.exists_longest h.below hpos
  rw [h.length_sweep hac hpos hm] at hk
  have hplaced : ∃ id, d.hasNode id ∧ ((d.withLayers config).node id).layer = k :=
    h.exists_layer_eq hac hpos hm (Nat.le_of_lt_succ hk)
  obtain ⟨id, hid, hlayer⟩ := hplaced
  exact List.ne_nil_of_mem (mem_layer.2 ⟨by rwa [hasNode_withLayers], hlayer⟩)

/-- Without cycles `d.withLayers config` puts the nodes of `d` in layers by longest walks. -/
theorem layeredBy (h : d.WellFormed) (hac : Acyclic d.arcs) (config : Config α) :
    (d.withLayers config).LayeredBy d where
  size_nodes := size_nodes_withLayers config
  links := rfl
  empty hempty := h.length_sweep_of_empty hempty
  longest hpos := by
    obtain ⟨m, hm⟩ := hac.exists_longest h.below hpos
    exact ⟨m, hm, h.length_sweep hac hpos hm⟩
  layerCount_le := h.length_sweep_le hac
  sweep_eq _ hlimit := h.frontiers_eq_sweep hac hlimit
  frontier_ne_nil _ hk := (h.lt_length_sweep_iff hac).1 hk
  frontier_eq_nil := by
    by_contra hne
    exact Nat.lt_irrefl _ ((h.lt_length_sweep_iff hac).2 hne)
  layer_of_arc _ harc := h.layer_of_arc hac harc
  layer_of_sink _ hid hsink := h.layer_of_sink hid hsink
  layer_lt _ harc := h.layer_lt hac harc
  length_layers := by
    rw [length_layers, h.layerBound_withLayers hac, layerCount_withLayers]
  mem_layers k group hgroup id := by
    obtain ⟨-, rfl⟩ := getElem?_layers.1 hgroup
    rw [mem_layer, hasNode_withLayers]
  layers_ne_nil group hgroup := by
    obtain ⟨k, hk, rfl⟩ := mem_layers.1 hgroup
    rw [h.layerBound_withLayers hac] at hk
    exact h.layer_ne_nil hac hk
  layers_perm := by
    have hperm := (d.withLayers config).flatten_layers_perm
    rwa [nodeIds_withLayers] at hperm
  layers_sorted group hgroup := by
    obtain ⟨k, -, rfl⟩ := mem_layers.1 hgroup
    exact pairwise_layer _ k

end WellFormed

end WithLayers

end Diagram

/-! ## A detour

Two ways from a node to another, one of them by a third, and a second target of the first. -/

/-- The nodes of the detour. -/
def detourNames : List String := ["a", "b", "c", "d"]

/-- The flows of the detour. -/
def detourFlows : List (Flow Rat) :=
  [⟨.named "a", .named "b", 1⟩, ⟨.named "b", .named "c", 1⟩, ⟨.named "a", .named "c", 2⟩,
    ⟨.named "a", .named "d", 3⟩]

/-- The diagram of the detour. -/
def detourDiagram : Diagram Rat where
  nodes := #[{ Node.unplaced "a" with outgoing := [⟨0⟩, ⟨2⟩, ⟨3⟩] },
    { Node.unplaced "b" with outgoing := [⟨1⟩], incoming := [⟨0⟩] },
    { Node.unplaced "c" with incoming := [⟨1⟩, ⟨2⟩] },
    { Node.unplaced "d" with incoming := [⟨3⟩] }]
  links := #[.unplaced ⟨0⟩ ⟨1⟩ 1 0, .unplaced ⟨1⟩ ⟨2⟩ 1 1, .unplaced ⟨0⟩ ⟨2⟩ 2 2,
    .unplaced ⟨0⟩ ⟨3⟩ 3 3]
  circularLinks := []
  roots := [⟨0⟩]
  layerCount := 0
  warnings := []

/-! ## Main statement -/

namespace Diagram

section Main

variable {α : Type} [Scalar α] {d : Diagram α}

/-- **The layout puts the nodes of the diagram of `ofFlows` in layers by longest walks**, as
`LayeredBy` states. -/
theorem ofFlows_withLayers_layeredBy {names : List String} {flows : List (Flow α)}
    (h : ofFlows names flows = .ok d) (config : Config α) :
    (d.withLayers config).LayeredBy d := by
  obtain ⟨-, hwf, hac⟩ := wellFormed_ofFlows h
  exact hwf.layeredBy hac config

/-- In `detourDiagram` the end of the two ways stands behind the node between, in the layer
`[⟨2⟩, ⟨3⟩]` of the other sink. -/
theorem ofFlows_withLayers_layeredBy_detour :
    ofFlows detourNames detourFlows = .ok detourDiagram ∧
      (detourDiagram.withLayers .standard).layers = [[⟨0⟩], [⟨1⟩], [⟨2⟩, ⟨3⟩]] ∧
      (detourDiagram.withLayers .standard).LayeredBy detourDiagram := by
  have hdetour : ofFlows detourNames detourFlows = .ok detourDiagram := by decide +kernel
  refine ⟨hdetour, ?_, ofFlows_withLayers_layeredBy hdetour .standard⟩
  decide +kernel

end Main

end Diagram

end SankeyDiagram
