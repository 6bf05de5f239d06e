import SankeyDiagram.Diagram.Curve
import SankeyDiagram.Proofs.Redrawing
import SankeyDiagram.Proofs.Session

/-! # Look-up

Diagrams that layouts make, and those that sessions hold, never name a node or a link that does not
exist. Settings do not count here, nor do places: both may be anything.

* **`Diagram.Sound`** what carries this from stage to stage.
* **`Diagram.Coherent`** what diagrams say about their nodes and links agrees.
* **`Diagram.HasLookups`** all nodes and links exist that stages, curves, layers and questions for
  links look up.
* **`Session.coherent_hasLookups`** both hold of the diagrams between stages, and in sessions. -/

namespace SankeyDiagram

variable {α : Type} [Scalar α]

namespace Diagram

variable {d e : Diagram α} {names : List String} {flows : List (Flow α)}

/-! ## What carries over -/

/-- Nodes are those of the names, nodes and links belong together and make no cycle, and there are
no more layers than nodes. -/
structure Sound (names : List String) (d : Diagram α) : Prop where
  /-- Nodes are in the order of the names. -/
  names_eq : d.nodes.toList.map Node.name = names
  /-- Nodes and links belong together. -/
  wellFormed : d.WellFormed
  /-- Links make no cycle. -/
  acyclic : Acyclic d.arcs
  /-- Flows that are left out start and end at nodes. -/
  leftOut_below : ArcsBelow d.nodes.size (d.circularLinks.map CircularLink.arc)
  /-- `d` has no more layers than nodes. -/
  layerBound_le : d.layerBound ≤ d.nodes.size

/-- The diagram of `ofFlows names flows` is `Sound`. -/
theorem sound_ofFlows (h : ofFlows names flows = .ok d) : d.Sound names := by
  obtain ⟨-, hwf, hac⟩ := wellFormed_ofFlows h
  obtain ⟨resolved, intake, -, hresolve, hacc, rfl, -⟩ := exists_intake h
  refine ⟨?_, hwf, hac, ?_, layerBound_le_iff.2 fun id hid => ?_⟩
  · apply List.ext_getElem <;> simp [Intake.diagram, Intake.node, Node.unplaced]
  · intro arc harc
    obtain ⟨c, hc, rfl⟩ := List.mem_map.1 harc
    obtain ⟨flow, hflow, hleft⟩ := hacc.exists_leftOut hc
    rw [Intake.size_nodes_diagram, hleft, ResolvedFlow.arc_leftOut]
    exact arcsBelow_of_resolveAll hresolve _
      (List.mem_map_of_mem (List.mem_of_getElem? hflow))
  · -- nodes that are not placed are in layer zero
    rw [hasNode_iff] at hid
    rw [Intake.node_diagram (by simpa using hid)]
    exact Nat.zero_lt_of_lt hid

namespace Sound

/-- `Sound` passes on to a diagram that is redrawn in no more layers than there are nodes. -/
theorem of_redraws (hd : d.Sound names) (h : e.Redraws d) (hbound : e.layerBound ≤ d.nodes.size) :
    e.Sound names where
  names_eq := h.map_name.trans hd.names_eq
  wellFormed := h.wellFormed hd.wellFormed
  acyclic := by
    rw [h.arcs]
    exact hd.acyclic
  leftOut_below := by
    rw [h.size_nodes, h.circularLinks]
    exact hd.leftOut_below
  layerBound_le := by
    rw [h.size_nodes]
    exact hbound

/-- `Sound` passes on to a diagram that is redrawn in the same layers. -/
theorem of_layer_eq (hd : d.Sound names) (h : e.Redraws d)
    (hlayer : ∀ id, d.hasNode id → (e.node id).layer = (d.node id).layer) : e.Sound names := by
  refine hd.of_redraws h (layerBound_le_iff.2 fun id hid => ?_)
  rw [h.hasNode] at hid
  rw [hlayer id hid]
  exact layerBound_le_iff.1 hd.layerBound_le id hid

/-- `Sound` passes on to diagrams with the same `flattened`. -/
theorem of_flattened (hd : d.Sound names) (h : e.flattened = d.flattened) : e.Sound names :=
  hd.of_layer_eq (redraws_of_flattened h) fun id _ => layer_node_of_flattened h id

/-- `withValues` keeps `Sound`. -/
theorem withValues (h : d.Sound names) : d.withValues.Sound names :=
  h.of_layer_eq d.redraws_withValues fun id hid => by rw [node_withValues d hid]

/-- `withLayers` keeps `Sound`: there are no more layers than nodes that a walk can pass. -/
theorem withLayers (h : d.Sound names) (config : Config α) :
    (d.withLayers config).Sound names := by
  refine h.of_redraws (d.redraws_withLayers config) ?_
  rw [h.wellFormed.layerBound_withLayers h.acyclic]
  exact h.wellFormed.length_sweep_le h.acyclic

/-- `withColumns` keeps `Sound`. -/
theorem withColumns (h : d.Sound names) (config : Config α) (rounds : Nat) :
    (d.withColumns config rounds).Sound names := by
  have hsizes : (d.withSizes config).Sound names :=
    h.of_layer_eq (d.redraws_withSizes config) fun id hid => by rw [node_withSizes d config hid]
  exact hsizes.of_flattened (d.flattened_withColumns config rounds)

/-- `withSlots` keeps `Sound`. -/
theorem withSlots (h : d.Sound names) : d.withSlots.Sound names :=
  h.of_layer_eq d.redraws_withSlots fun id _ => by rw [node_withSlots]

/-- `setTop` keeps `Sound`. -/
theorem setTop (h : d.Sound names) (id : NodeId) (y : α) : (d.setTop id y).Sound names :=
  h.of_flattened (flattened_setTop d id y)

end Sound

/-- The diagrams of a layout: the one that is laid out, and the one after each of the stages. -/
def stages (d : Diagram α) (config : Config α) (rounds : Nat) : List (Diagram α) :=
  [d, d.withValues, d.withValues.withLayers config,
    (d.withValues.withLayers config).withColumns config rounds, d.placed config rounds]

/-- The last of `d.stages` is `d.placed`. -/
theorem placed_mem_stages (d : Diagram α) (config : Config α) (rounds : Nat) :
    d.placed config rounds ∈ d.stages config rounds := by
  simp [stages]

/-- All `stages` of a diagram that is `Sound` are. -/
theorem Sound.stages (h : d.Sound names) (config : Config α) (rounds : Nat) :
    ∀ e ∈ d.stages config rounds, e.Sound names := by
  have hvalues := h.withValues
  have hlayers := hvalues.withLayers config
  have hcolumns := hlayers.withColumns config rounds
  simp only [Diagram.stages, List.forall_mem_cons]
  exact ⟨h, hvalues, hlayers, hcolumns, hcolumns.withSlots, by simp⟩

/-! ## What agrees -/

/-- What a diagram says about its nodes and links agrees. -/
structure Coherent (names : List String) (d : Diagram α) : Prop where
  /-- Nodes are in the order of the names. -/
  names_eq : d.nodes.toList.map Node.name = names
  /-- Links start and end at nodes. -/
  hasEnds : ∀ l, d.hasLink l → d.hasNode (d.link l).source ∧ d.hasNode (d.link l).target
  /-- Flows of `d.circularLinks` start and end at nodes. -/
  leftOut_hasEnds : ∀ c ∈ d.circularLinks, d.hasNode c.source ∧ d.hasNode c.target
  /-- The links of `linksAt` exist. -/
  hasLink : ∀ side id, ∀ l ∈ (d.node id).linksAt side, d.hasLink l
  /-- A link stands once among those that leave its source, once among those that enter its target,
  and nowhere else. -/
  count_eq : ∀ side id l, d.hasLink l →
    ((d.node id).linksAt side).count l = if (d.link l).nearEnd side = id then 1 else 0
  /-- No two links have the same source and the same target. -/
  unique : ∀ l m, d.hasLink l → d.hasLink m → (d.link l).source = (d.link m).source →
    (d.link l).target = (d.link m).target → l = m
  /-- The roots are the nodes that no link enters, in order. -/
  roots_eq : d.roots = d.nodeIds.filter fun id => (d.node id).incoming.isEmpty

/-- The links of a well-formed diagram start and end at nodes. -/
theorem WellFormed.hasEnds (h : d.WellFormed) {l : LinkId} (hl : d.hasLink l) :
    d.hasNode (d.link l).source ∧ d.hasNode (d.link l).target := by
  rw [hasNode_iff, hasNode_iff]
  exact h.below _ (mem_arcs_iff_exists_link.2 ⟨l, hl, rfl, rfl⟩)

/-- At the position of a link in `d.arcs` stands its arc. -/
theorem getElem?_arcs {l : LinkId} (hl : d.hasLink l) :
    d.arcs[l.index]? = some (d.link l).arc := by
  rw [hasLink_iff] at hl
  rw [arcs, List.getElem?_map, Array.getElem?_toList, Array.getElem?_eq_getElem hl,
    d.link_of_lt hl]
  rfl

/-- A diagram that is `Sound` is `Coherent`. -/
theorem Sound.coherent (h : d.Sound names) : d.Coherent names where
  names_eq := h.names_eq
  hasEnds l := h.wellFormed.hasEnds
  leftOut_hasEnds c hc := by
    rw [hasNode_iff, hasNode_iff]
    exact h.leftOut_below _ (List.mem_map_of_mem hc)
  hasLink side id l hl := ((h.wellFormed.mem_linksAt side id l).1 hl).1
  count_eq side id l hl := by
    have hmem := h.wellFormed.mem_linksAt side id l
    rw [(h.wellFormed.nodup_linksAt side id).count]
    by_cases hend : (d.link l).nearEnd side = id
    · rw [if_pos hend, if_pos (hmem.2 ⟨hl, hend⟩)]
    · rw [if_neg hend, if_neg fun hl => hend (hmem.1 hl).2]
  unique l m hl hm hsource htarget := by
    -- links with the same ends have one arc, which does not stand at two positions
    have harc : (d.link l).arc = (d.link m).arc := Prod.ext hsource htarget
    have hget : d.arcs[l.index]? = d.arcs[m.index]? := by
      rw [getElem?_arcs hl, getElem?_arcs hm, harc]
    have hlt : l.index < d.arcs.length := by simpa [arcs] using hl
    exact congrArg LinkId.mk ((List.getElem?_inj hlt h.wellFormed.nodup_arcs).1 hget)
  roots_eq := h.wellFormed.roots_eq

/-! ## What is looked up -/

/-- All nodes and links exist that are looked up in a diagram. -/
structure HasLookups (d : Diagram α) : Prop where
  /-- `withValues` looks up the links on both sides of nodes. -/
  hasFlows : d.hasFlows
  /-- `sweep` looks up the nodes of its frontiers, their links and where these lead. -/
  hasSweep : d.hasSweep
  /-- `pulled` looks up the links on a side of a node, and where these lead. -/
  hasPull : ∀ side id, d.hasNode id → d.hasPull side (d.node id)
  /-- `withColumns` looks up what its pulls do, in any number of rounds, as long as there are no
  more nodes than `maxLayers`; no list of names is longer than that. -/
  hasColumns : d.nodes.size ≤ maxLayers → ∀ rounds, d.hasColumns rounds
  /-- `withSlots` looks up the links on both sides of nodes, and where these lead. -/
  hasSlots : d.hasSlots
  /-- `Bend.curves` looks up the nodes that links join. -/
  hasAllEnds : d.hasAllEnds
  /-- `linkBetween?` looks up the links that leave its first node. -/
  linkBetween : ∀ source target, d.hasNode source → (d.linkBetween? source target).isSome
  /-- The layer of a node is a position of `d.layers`. -/
  layer_lt : ∀ id, d.hasNode id → (d.node id).layer < d.layers.length
  /-- `d.layers` has no more layers than there are nodes. -/
  layers_le : d.layers.length ≤ d.nodes.size

/-- All of `d.nodes` pass `test` iff `d.node id` does wherever there is a node. -/
theorem all_nodes_iff {test : Node α → Bool} :
    d.nodes.all test ↔ ∀ id, d.hasNode id → test (d.node id) := by
  rw [Array.all_eq_true]
  constructor
  · intro h id hid
    rw [hasNode_iff] at hid
    rw [d.node_of_lt hid]
    exact h id.index hid
  · intro h i hi
    have hnode : d.node ⟨i⟩ = d.nodes[i] := d.node_of_lt hi
    rw [← hnode]
    exact h ⟨i⟩ (d.hasNode_iff _ |>.2 hi)

namespace WellFormed

/-- The links on a side of a node of a well-formed diagram exist. -/
theorem all_hasLink (h : d.WellFormed) (side : Side) (id : NodeId) :
    ((d.node id).linksAt side).all d.hasLink :=
  List.all_eq_true.2 fun l hl => ((h.mem_linksAt side id l).1 hl).1

/-- The links on a side of a node of a well-formed diagram exist, and so do the nodes that they lead
to. -/
theorem hasFarEnds (h : d.WellFormed) (side : Side) (id : NodeId) :
    d.hasFarEnds side ((d.node id).linksAt side) := by
  refine List.all_eq_true.2 fun l hl => ?_
  have hlink := ((h.mem_linksAt side id l).1 hl).1
  rw [Bool.and_eq_true]
  refine ⟨hlink, ?_⟩
  cases side with
  | outgoing => exact (h.hasEnds hlink).2
  | incoming => exact (h.hasEnds hlink).1

/-- A well-formed diagram passes `hasPull` at every node. -/
theorem hasPull (h : d.WellFormed) (side : Side) (id : NodeId) : d.hasPull side (d.node id) := by
  rw [Diagram.hasPull, Bool.and_eq_true, Bool.or_eq_true]
  exact ⟨h.all_hasLink side id, Or.inr (h.hasFarEnds side id)⟩

/-- In a well-formed diagram `hasColumns` comes down to `hasLayers`: it fails only where there are
too many layers. -/
theorem hasColumns_eq (h : d.WellFormed) (rounds : Nat) : d.hasColumns rounds = d.hasLayers := by
  have hpulls : d.nodes.all fun n => d.hasPull .outgoing n && d.hasPull .incoming n := by
    rw [all_nodes_iff]
    intro id _
    rw [Bool.and_eq_true]
    exact ⟨h.hasPull .outgoing id, h.hasPull .incoming id⟩
  rw [Diagram.hasColumns, hpulls, Bool.or_true, Bool.and_true]

/-- A well-formed diagram passes `hasAllEnds`. -/
theorem hasAllEnds (h : d.WellFormed) : d.hasAllEnds := by
  rw [Diagram.hasAllEnds, Array.all_eq_true]
  intro i hi
  have hlink : d.link ⟨i⟩ = d.links[i] := d.link_of_lt hi
  rw [← hlink, Diagram.hasEnds, Bool.and_eq_true]
  exact h.hasEnds (d.hasLink_iff _ |>.2 hi)

/-- A well-formed diagram passes `hasOrder` on both sides of every node. -/
theorem hasOrder (h : d.WellFormed) (side : Side) (id : NodeId) :
    d.hasOrder side ((d.node id).linksAt side) := by
  rw [Diagram.hasOrder, Bool.and_eq_true, Bool.or_eq_true]
  exact ⟨h.all_hasLink side id, Or.inr (h.hasFarEnds side id)⟩

/-- A sweep from nodes of a well-formed diagram meets nodes only. -/
theorem hasNode_of_mem_frontiers (h : d.WellFormed) {limit : Nat} {frontier group : List NodeId}
    (hfrontier : ∀ id ∈ frontier, d.hasNode id) (hgroup : group ∈ d.frontiers limit frontier) :
    ∀ id ∈ group, d.hasNode id := by
  -- on the limit; links lead from nodes to nodes, so the next frontier holds nodes again
  induction limit generalizing frontier with
  | zero => cases hgroup
  | succ limit ih =>
    rw [frontiers] at hgroup
    split at hgroup
    · cases hgroup
    · rcases List.mem_cons.1 hgroup with rfl | hlater
      · exact hfrontier
      · refine ih (fun id hid => ?_) hlater
        obtain ⟨a, -, harc⟩ := h.mem_nextFrontier.1 hid
        rw [hasNode_iff]
        exact (h.below _ harc).2

/-- A well-formed diagram passes `hasSweep`. -/
theorem hasSweep (h : d.WellFormed) : d.hasSweep := by
  have hroots : ∀ id ∈ d.roots, d.hasNode id := by
    intro id hid
    rw [h.roots_eq] at hid
    exact mem_nodeIds.1 (List.mem_filter.1 hid).1
  refine List.all_eq_true.2 fun group hgroup => List.all_eq_true.2 fun id hid => ?_
  rw [Bool.and_eq_true]
  exact ⟨h.hasNode_of_mem_frontiers hroots hgroup id hid, h.hasFarEnds .outgoing id⟩

/-- In a well-formed diagram `d.linkBetween? source target` answers for every node `source`. -/
theorem isSome_linkBetween (h : d.WellFormed) {source : NodeId} (target : NodeId)
    (hid : d.hasNode source) : (d.linkBetween? source target).isSome := by
  -- the search stops without an answer only at a link that does not exist
  have hfirst : ∀ ids : List LinkId, (∀ l ∈ ids, d.hasLink l) →
      (d.firstLinkTo? target ids).isSome := by
    intro ids hids
    induction ids with
    | nil => rfl
    | cons l rest ih =>
      rw [List.forall_mem_cons] at hids
      rw [firstLinkTo?, if_pos hids.1]
      split
      · rfl
      · exact ih hids.2
  rw [linkBetween?, if_pos hid]
  exact hfirst _ (List.all_eq_true.1 (h.all_hasLink .outgoing source))

end WellFormed

/-- A diagram that is `Sound` has all of `HasLookups`. -/
theorem Sound.hasLookups (h : d.Sound names) : d.HasLookups where
  hasFlows := all_nodes_iff.2 fun id _ => by
    rw [Bool.and_eq_true]
    exact ⟨h.wellFormed.all_hasLink .outgoing id, h.wellFormed.all_hasLink .incoming id⟩
  hasSweep := h.wellFormed.hasSweep
  hasPull side id _ := h.wellFormed.hasPull side id
  hasColumns hsize rounds := by
    rw [h.wellFormed.hasColumns_eq]
    exact decide_eq_true (h.layerBound_le.trans hsize)
  hasSlots := all_nodes_iff.2 fun id _ => by
    rw [Bool.and_eq_true]
    exact ⟨h.wellFormed.hasOrder .outgoing id, h.wellFormed.hasOrder .incoming id⟩
  hasAllEnds := h.wellFormed.hasAllEnds
  linkBetween _ target := h.wellFormed.isSome_linkBetween target
  layer_lt id hid := by
    rw [length_layers]
    exact layerBound_le_iff.1 le_rfl id hid
  layers_le := by
    rw [length_layers]
    exact h.layerBound_le

end Diagram

/-! ## Main statement -/

namespace Session

/-- Layouts make diagrams `Sound`, and edits keep them so. -/
theorem kept_sound : Kept fun names _ (d : Diagram α) => d.Sound names where
  placed _ _ d config rounds h :=
    (Diagram.sound_ofFlows h).stages config rounds _ (d.placed_mem_stages config rounds)
  withSlots _ _ _ h := h.withSlots
  setTop _ _ _ id y h := h.setTop id y

/-- **Whatever the settings, the `stages` of a layout are `Coherent` and have all of `HasLookups`.
So is and has the diagram of a session, whatever was done in it.** -/
theorem coherent_hasLookups :
    (∀ (names : List String) (flows : List (Flow α)) (config : Config α) (rounds : Nat)
        (d : Diagram α), Diagram.ofFlowsPlaced names flows config rounds = .ok d →
      ∃ first, Diagram.ofFlows names flows = .ok first ∧ d = first.placed config rounds ∧
        ∀ e ∈ first.stages config rounds, e.Coherent names ∧ e.HasLookups) ∧
    (∀ (s₀ : Session α) (actions : List (Action α)) (d : Diagram α), s₀.IsNew →
      (s₀.performAll actions).diagram = some d →
      d.Coherent (s₀.performAll actions).names ∧ d.HasLookups) := by
  refine ⟨?_, ?_⟩
  · intro names flows config rounds d h
    rw [Diagram.ofFlowsPlaced] at h
    cases hfirst : Diagram.ofFlows names flows with
    | error reason =>
      rw [hfirst] at h
      cases h
    | ok first =>
      rw [hfirst] at h
      refine ⟨first, rfl, (Except.ok.inj h).symm, fun e he => ?_⟩
      have hsound := (Diagram.sound_ofFlows hfirst).stages config rounds e he
      exact ⟨hsound.coherent, hsound.hasLookups⟩
  · intro s₀ actions d hnew hd
    -- `Sound` holds after a layout, and stacking and moving keep it
    have hsound := performAll_shows kept_sound hnew.shows actions d hd
    exact ⟨hsound.coherent, hsound.hasLookups⟩

/-- A height that is `.nan` does no harm, and neither does a node that is moved there. -/
theorem coherent_hasLookups_nan :
    (∃ d : Diagram Binary64,
      Diagram.ofFlowsPlaced ["a", "b"] [⟨.named "a", .position 1, 1⟩]
        { Config.standard with height := .nan } 2 = .ok d ∧ d.Coherent ["a", "b"] ∧ d.HasLookups) ∧
    ∃ d, ((standard : Session Binary64).performAll (editing ++ [.moveNode ⟨0⟩ .nan])).diagram
        = some d ∧ d.Coherent ["a", "b"] ∧ d.HasLookups := by
  obtain ⟨hplaced, hheld⟩ := coherent_hasLookups (α := Binary64)
  refine ⟨?_, ?_⟩
  · cases hd : Diagram.ofFlowsPlaced ["a", "b"] [⟨.named "a", .position 1, 1⟩]
        { (Config.standard : Config Binary64) with height := .nan } 2 with
    | error reason =>
      have hok : (Diagram.ofFlowsPlaced ["a", "b"] [⟨.named "a", .position 1, 1⟩]
        { (Config.standard : Config Binary64) with height := .nan } 2).toBool := by decide +kernel
      rw [hd] at hok
      cases hok
    | ok d =>
      obtain ⟨first, -, rfl, hstages⟩ := hplaced _ _ _ _ _ hd
      exact ⟨_, rfl, hstages _ (first.placed_mem_stages _ _)⟩
  · have hsome : ((standard : Session Binary64).performAll
        (editing ++ [.moveNode ⟨0⟩ .nan])).diagram.isSome := by decide +kernel
    have hnames : ((standard : Session Binary64).performAll
        (editing ++ [.moveNode ⟨0⟩ .nan])).names = ["a", "b"] := by decide +kernel
    obtain ⟨d, hd⟩ := Option.isSome_iff_exists.1 hsome
    have hcoherent := hheld standard _ d (Or.inl rfl) hd
    rw [hnames] at hcoherent
    exact ⟨d, hd, hcoherent⟩

end Session

end SankeyDiagram
