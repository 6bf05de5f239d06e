import SankeyDiagram.Proofs.Agreement

/-! # Passes of pulls

What a pass of pulls does, told without the order in which it gets to the nodes of a layer. Links
lead from layer to layer, so a node is pulled once the nodes are where they stay that its links lead
to, and the nodes of its own layer do not matter.

* **`Diagram.Layered`** links lead from the left to the right; **`Diagram.Relocates`** a diagram is
  drawn elsewhere but in the same layers, and so it stays.
* **`Diagram.PulledBy`** every node is pulled to where its links lead, from the places after the
  pass; **`Diagram.PulledBy.unique`** this tells all places.
* **`Diagram.pulledBy_foldl`** pulls do this in any order that gets to the far ends of links first.
* **`Diagram.ofFlows_relaxedAlike`** so a pass does not depend on the order of nodes in layers. -/

namespace SankeyDiagram

variable {α : Type} [Scalar α]

namespace Diagram

variable {d e f g : Diagram α} {side : Side} {strength : α} {id other : NodeId}

/-! ## Layers and links -/

/-- Nodes and links belong together, and links lead from the left to the right. -/
structure Layered (e : Diagram α) : Prop where
  /-- Nodes and links belong together. -/
  wellFormed : e.WellFormed
  /-- A link starts in a layer before that in which it ends. -/
  layer_lt : ∀ arc ∈ e.arcs, (e.node arc.1).layer < (e.node arc.2).layer

/-- A diagram shows the nodes and links of another in the same layers, at any heights and in any
sizes. -/
structure Relocates (e d : Diagram α) : Prop where
  /-- The nodes and links are the same. -/
  redraws : e.Redraws d
  /-- The layers are the same. -/
  layer_eq : ∀ id, (e.node id).layer = (d.node id).layer

/-- `Layered` carries over to a diagram that `Relocates`. -/
theorem Layered.relocates (hd : d.Layered) (h : e.Relocates d) : e.Layered where
  wellFormed := h.redraws.wellFormed hd.wellFormed
  layer_lt := by
    rw [h.redraws.arcs]
    simp only [h.layer_eq]
    exact hd.layer_lt

/-- `Relocates` is transitive. -/
theorem Relocates.trans (hfe : f.Relocates e) (hed : e.Relocates d) : f.Relocates d where
  redraws := hfe.redraws.trans hed.redraws
  layer_eq id := (hfe.layer_eq id).trans (hed.layer_eq id)

/-- Diagrams with one `flattened` are `Relocates` of each other. -/
theorem relocates_of_flattened (h : e.flattened = d.flattened) : e.Relocates d :=
  ⟨redraws_of_flattened h, layer_node_of_flattened h⟩

/-- `withSizes` leaves nodes in their layers: `(d.withSizes config).Relocates d`. -/
theorem relocates_withSizes (d : Diagram α) (config : Config α) :
    (d.withSizes config).Relocates d where
  redraws := d.redraws_withSizes config
  layer_eq id := Node.layer_eq_of_unsized (d.unsized_withSizes config id)

/-- Columns that arrange `d.withSizes config` leave nodes in the layers of `d`. -/
theorem relocates_of_arranges {c : Columns α} {config : Config α}
    (h : c.Arranges (d.withSizes config)) : c.diagram.Relocates d :=
  (relocates_of_flattened h.flattened).trans (d.relocates_withSizes config)

/-- `withLayers` makes a diagram of `ofFlows` `Layered`. -/
theorem layered_ofFlows {names : List String} {flows : List (Flow α)}
    (h : ofFlows names flows = .ok d) (config : Config α) :
    (d.withValues.withLayers config).Layered := by
  obtain ⟨-, hwf, hac⟩ := wellFormed_ofFlows h
  have hwf' : d.withValues.WellFormed := d.redraws_withValues.wellFormed hwf
  refine ⟨(d.withValues.redraws_withLayers config).wellFormed hwf', ?_⟩
  rw [(d.withValues.redraws_withLayers config).arcs]
  rintro ⟨a, b⟩ harc
  refine hwf'.layer_lt ?_ harc
  rw [d.redraws_withValues.arcs]
  exact hac

/-- In a `Layered` diagram links lead to nodes. -/
theorem Layered.hasNode_farEnd (h : e.Layered) {l : LinkId} (hl : l ∈ (e.node id).linksAt side) :
    e.hasNode ((e.link l).farEnd side) := by
  obtain ⟨hlink, -⟩ := (h.wellFormed.mem_linksAt side id l).1 hl
  have hends := h.wellFormed.below _ (mem_arcs_iff_exists_link.2 ⟨l, hlink, rfl, rfl⟩)
  rw [hasNode_iff]
  cases side with
  | outgoing => exact hends.2
  | incoming => exact hends.1

/-- How many layers a pass of pulls on a side goes through before it gets to a node: one from the
right for the side where links leave, and one from the left for the other. -/
def pullTurn (e : Diagram α) (side : Side) (id : NodeId) : Nat :=
  match side with
  | .outgoing => e.layerBound - (e.node id).layer
  | .incoming => (e.node id).layer

/-- A pass gets to where links lead before it gets to the nodes from which they lead there, by
`pullTurn`. -/
theorem Layered.pullTurn_lt (h : e.Layered) {l : LinkId} (hl : l ∈ (e.node id).linksAt side) :
    e.pullTurn side ((e.link l).farEnd side) < e.pullTurn side id := by
  obtain ⟨hlink, rfl⟩ := (h.wellFormed.mem_linksAt side id l).1 hl
  have harc : ((e.link l).source, (e.link l).target) ∈ e.arcs :=
    mem_arcs_iff_exists_link.2 ⟨l, hlink, rfl, rfl⟩
  have hlt : (e.node (e.link l).source).layer < (e.node (e.link l).target).layer :=
    h.layer_lt _ harc
  cases side with
  | incoming => exact hlt
  | outgoing =>
    have hbound : (e.node (e.link l).target).layer < e.layerBound :=
      layerBound_le_iff.1 le_rfl _ (h.hasNode_farEnd hl)
    show e.layerBound - (e.node (e.link l).target).layer
      < e.layerBound - (e.node (e.link l).source).layer
    omega

/-! ## What a pass does -/

/-- Where the links on a side pull the upper edge of a node to, if they lead to nodes as another
diagram has them. -/
def pulledTop (e g : Diagram α) (side : Side) (strength : α) (id : NodeId) : α :=
  match g.weightedCenter? side ((e.node id).linksAt side) with
  | some goal => (e.node id).y + (goal - (e.node id).center) * strength
  | none => (e.node id).y

/-- Every node is pulled once, toward where its links lead in the end; nothing but upper edges is
changed. -/
structure PulledBy (g e : Diagram α) (side : Side) (strength : α) : Prop where
  /-- `g` differs from `e` in upper edges alone. -/
  flattened : g.flattened = e.flattened
  /-- Every upper edge of `g` is at its `pulledTop` by the links on the side. -/
  y_eq : ∀ id, (g.node id).y = e.pulledTop g side strength id

/-- Diagrams with one `flattened` have the same links. -/
theorem link_of_flattened (h : g.flattened = f.flattened) (l : LinkId) : g.link l = f.link l := by
  have hlinks : g.links = f.links := by
    show g.flattened.links = f.flattened.links
    rw [h]
  rw [link, hlinks, link]

/-- Diagrams with one `flattened` have the same sums. -/
theorem flow_of_flattened (h : g.flattened = f.flattened) (ids : List LinkId) :
    g.flow ids = f.flow ids := by
  rw [flow, flow]
  simp only [link_of_flattened h]

/-- `weightedCenter?` reads the nodes to which links lead, and the values of these. -/
theorem weightedCenter?_congr (h : g.flattened = f.flattened) {ids : List LinkId}
    (hnode : ∀ l ∈ ids, g.node ((f.link l).farEnd side) = f.node ((f.link l).farEnd side)) :
    g.weightedCenter? side ids = f.weightedCenter? side ids := by
  have hcenters : (ids.map fun l =>
        (g.node ((f.link l).farEnd side)).center * ((f.link l).value / f.flow ids))
      = ids.map fun l =>
        (f.node ((f.link l).farEnd side)).center * ((f.link l).value / f.flow ids) :=
    List.map_congr_left fun l hl => by rw [hnode l hl]
  rw [weightedCenter?, weightedCenter?, flow_of_flattened h]
  simp only [link_of_flattened h, hcenters]

/-- **Only one diagram is `PulledBy` given links**: what every node is pulled to tells all
places. -/
theorem PulledBy.unique (he : e.Layered) (hg : g.PulledBy e side strength)
    (hf : f.PulledBy e side strength) : g = f := by
  have hflat : g.flattened = f.flattened := hg.flattened.trans hf.flattened.symm
  refine eq_of_flattened hflat fun id => ?_
  -- on the layers that a pass goes through before it gets to the node
  induction hturn : e.pullTurn side id using Nat.strong_induction_on generalizing id with
  | _ n ih =>
    have hcenter : g.weightedCenter? side ((e.node id).linksAt side)
        = f.weightedCenter? side ((e.node id).linksAt side) := by
      refine weightedCenter?_congr hflat fun l hl => node_eq_of_flattened hflat (ih _ ?_ _ rfl)
      rw [link_of_flattened hf.flattened, ← hturn]
      exact he.pullTurn_lt hl
    rw [hg.y_eq, hf.y_eq, pulledTop, hcenter, pulledTop]

/-- `pulledTop` is the upper edge of a blank where there is no node. -/
theorem pulledTop_of_not_hasNode (hid : ¬e.hasNode id) :
    e.pulledTop g side strength id = (e.node id).y := by
  have hnone : g.weightedCenter? side [] = none := by simp [weightedCenter?]
  rw [hasNode_iff] at hid
  rw [pulledTop, e.node_of_not_lt hid, Node.linksAt_unplaced, hnone]

/-! ## One pull -/

/-- `pulled` moves no other node. -/
theorem node_pulled_of_ne (h : other ≠ id) :
    (pulled side strength g id).node other = g.node other := by
  rw [pulled]
  split
  · exact node_setTop_of_ne h
  · rfl

/-- `pulled` moves a node to its `pulledTop`. -/
theorem y_pulled_self (hid : g.hasNode id) :
    ((pulled side strength g id).node id).y = g.pulledTop g side strength id := by
  rw [pulled, pulledTop]
  cases g.weightedCenter? side ((g.node id).linksAt side) with
  | some goal => exact congrArg Node.y (node_setTop_self hid)
  | none => rfl

/-- `pulledTop` does not read a node to which no link leads. -/
theorem pulledTop_pulled (h : ∀ l ∈ (e.node other).linksAt side, (g.link l).farEnd side ≠ id) :
    e.pulledTop (pulled side strength g id) side strength other
      = e.pulledTop g side strength other := by
  have hcenter : (pulled side strength g id).weightedCenter? side ((e.node other).linksAt side)
      = g.weightedCenter? side ((e.node other).linksAt side) :=
    weightedCenter?_congr (flattened_pulled ..) fun l hl => node_pulled_of_ne (h l hl)
  rw [pulledTop, hcenter, pulledTop]

/-- Pulls that get to the far ends of links first put the nodes that they got to at their
`pulledTop` in the final diagram, and leave all others. -/
theorem pulledBy_foldl (he : e.Layered) {order : List NodeId} (hnodes : ∀ id ∈ order, e.hasNode id)
    (hnodup : order.Nodup)
    (hsorted : order.Pairwise fun a b => e.pullTurn side a ≤ e.pullTurn side b) :
    (∀ id ∈ order, ((order.foldl (pulled side strength) e).node id).y
      = e.pulledTop (order.foldl (pulled side strength) e) side strength id) ∧
    ∀ id ∉ order, (order.foldl (pulled side strength) e).node id = e.node id := by
  -- from the end of the order: the last pull must not disturb where earlier ones led
  induction order using List.reverseRecOn with
  | nil => exact ⟨fun id hid => absurd hid List.not_mem_nil, fun id _ => rfl⟩
  | append_singleton order last ih =>
    rw [List.forall_mem_append, List.forall_mem_singleton] at hnodes
    rw [List.nodup_append', List.disjoint_singleton] at hnodup
    rw [List.pairwise_append] at hsorted
    obtain ⟨hpulled, hkept⟩ := ih hnodes.1 hnodup.1 hsorted.1
    have hflat : (order.foldl (pulled side strength) e).flattened = e.flattened :=
      flattened_foldl (flattened_pulled side strength) order e
    rw [List.foldl_append, List.foldl_cons, List.foldl_nil]
    -- the last node is not where links lead from itself or from a node before it
    have hahead : ∀ id ∈ order ++ [last], ∀ l ∈ (e.node id).linksAt side,
        ((order.foldl (pulled side strength) e).link l).farEnd side ≠ last := by
      intro id hid l hl hfar
      have hlt := he.pullTurn_lt hl
      rw [link_of_flattened hflat] at hfar
      rw [hfar] at hlt
      rcases List.mem_append.1 hid with hid | hid
      · exact hlt.not_ge (hsorted.2.2 id hid last (List.mem_singleton_self last))
      · rw [List.mem_singleton.1 hid] at hlt
        exact lt_irrefl _ hlt
    constructor
    · intro id hid
      rw [pulledTop_pulled (hahead id hid)]
      rcases List.mem_append.1 hid with hmem | hmem
      · have hne : id ≠ last := by
          rintro rfl
          exact hnodup.2.2 hmem
        rw [node_pulled_of_ne hne, hpulled id hmem]
      · -- the last node has not been moved until its own pull
        obtain rfl := List.mem_singleton.1 hmem
        have hnode := hkept id hnodup.2.2
        rw [y_pulled_self (by rw [hasNode_of_flattened hflat]; exact hnodes.2), pulledTop, hnode,
          pulledTop]
    · intro id hid
      rw [List.mem_append, List.mem_singleton, not_or] at hid
      rw [node_pulled_of_ne hid.2, hkept id hid.1]

/-! ## The order of a pass -/

/-- Layers in the order in which a pass of pulls on a side goes through them. -/
def passOrder (side : Side) (layers : List (List NodeId)) : List (List NodeId) :=
  match side with
  | .outgoing => layers.reverse
  | .incoming => layers

/-- `relaxed` pulls the nodes of all layers one after another. -/
theorem relaxed_eq_foldl (e : Diagram α) (side : Side) (strength : α)
    (layers : List (List NodeId)) :
    e.relaxed side strength layers = layers.flatten.foldl (pulled side strength) e :=
  List.foldl_flatten.symm

section Layers

variable {layers : List (List NodeId)} (hlayers : List.Forall₂ List.Perm layers e.layers)
include hlayers

/-- A column holds the nodes of its layer. -/
theorem mem_column {k : Nat} (hk : k < layers.length) :
    id ∈ layers[k] ↔ e.hasNode id ∧ (e.node id).layer = k := by
  have hk' : k < e.layers.length := hlayers.length_eq ▸ hk
  have hlayer : e.layers[k] = e.layer k := (getElem?_layers.1 (List.getElem?_eq_getElem hk')).2.symm
  have hperm : layers[k].Perm e.layers[k] := hlayers.get hk hk'
  rw [hperm.mem_iff, hlayer, mem_layer]

/-- `passOrder` gets to every node once. -/
theorem flatten_passOrder_perm : (passOrder side layers).flatten.Perm e.nodeIds := by
  have hflatten : layers.flatten.Perm e.nodeIds :=
    (List.Perm.flatten_congr hlayers).trans e.flatten_layers_perm
  cases side with
  | outgoing => exact (List.reverse_perm layers).flatten.trans hflatten
  | incoming => exact hflatten

/-- `passOrder` ascends in `pullTurn`. -/
theorem pairwise_pullTurn_passOrder :
    (passOrder side layers).flatten.Pairwise fun a b => e.pullTurn side a ≤ e.pullTurn side b := by
  have hacross : layers.Pairwise fun l m =>
      ∀ a ∈ l, ∀ b ∈ m, (e.node a).layer < (e.node b).layer := by
    rw [List.pairwise_iff_getElem]
    intro i j hi hj hij a ha b hb
    rw [((mem_column hlayers hi).1 ha).2, ((mem_column hlayers hj).1 hb).2]
    exact hij
  have hwithin : ∀ l ∈ layers, ∀ a ∈ l, ∀ b ∈ l, e.pullTurn side a = e.pullTurn side b := by
    intro l hl a ha b hb
    obtain ⟨k, hk, rfl⟩ := List.getElem_of_mem hl
    have hlayer : (e.node a).layer = (e.node b).layer := by
      rw [((mem_column hlayers hk).1 ha).2, ((mem_column hlayers hk).1 hb).2]
    cases side with
    | outgoing => rw [pullTurn, pullTurn, hlayer]
    | incoming => exact hlayer
  -- to the left a pass goes through the layers in reverse, and turns count from the last one
  rw [List.pairwise_flatten]
  cases side with
  | outgoing =>
    refine ⟨fun l hl => ?_, List.pairwise_reverse.2 (hacross.imp ?_)⟩
    · exact List.pairwise_of_forall_mem_list fun a ha b hb =>
        (hwithin l (List.mem_reverse.1 hl) a ha b hb).le
    · intro l m hlt b hb a ha
      exact Nat.sub_le_sub_left (hlt a ha b hb).le e.layerBound
  | incoming =>
    refine ⟨fun l hl => ?_, hacross.imp ?_⟩
    · exact List.pairwise_of_forall_mem_list fun a ha b hb => (hwithin l hl a ha b hb).le
    · intro l m hlt a ha b hb
      exact (hlt a ha b hb).le

/-- **A pass pulls every node once, toward where its links lead in the end: its result is
`PulledBy`.** -/
theorem pulledBy_relaxed (he : e.Layered) (strength : α) :
    (e.relaxed side strength (passOrder side layers)).PulledBy e side strength where
  flattened := flattened_relaxed ..
  y_eq id := by
    have hperm : (passOrder side layers).flatten.Perm e.nodeIds := flatten_passOrder_perm hlayers
    have hmem : ∀ id, id ∈ (passOrder side layers).flatten ↔ e.hasNode id := by
      intro id
      rw [hperm.mem_iff, mem_nodeIds]
    obtain ⟨hpulled, hkept⟩ := pulledBy_foldl he (fun id => (hmem id).1)
      (hperm.nodup_iff.2 e.nodup_nodeIds) (pairwise_pullTurn_passOrder hlayers)
    rw [relaxed_eq_foldl]
    by_cases hid : e.hasNode id
    · exact hpulled id ((hmem id).2 hid)
    · -- beyond the nodes nothing is moved, and nothing pulls
      rw [hkept id fun hin => hid ((hmem id).1 hin), pulledTop_of_not_hasNode hid]

end Layers

/-! ## Main statement -/

/-- A pass of pulls does the same to a diagram for two orders of the nodes in its layers. -/
structure RelaxedAlike (e : Diagram α) (strength : α) (first second : List (List NodeId)) :
    Prop where
  /-- `relaxedLeftward` gives one diagram for both orders. -/
  leftward_eq : ((⟨e, first⟩ : Columns α).relaxedLeftward strength).diagram
    = ((⟨e, second⟩ : Columns α).relaxedLeftward strength).diagram
  /-- `relaxedRightward` gives one diagram for both orders. -/
  rightward_eq : ((⟨e, first⟩ : Columns α).relaxedRightward strength).diagram
    = ((⟨e, second⟩ : Columns α).relaxedRightward strength).diagram
  /-- `relaxedLeftward` pulls nodes toward the places that the targets of their links get, and
  changes nothing but upper edges. -/
  leftward : ((⟨e, first⟩ : Columns α).relaxedLeftward strength).diagram.PulledBy e .outgoing
    strength
  /-- `relaxedRightward` pulls nodes toward the places that the sources of their links get, and
  changes nothing but upper edges. -/
  rightward : ((⟨e, first⟩ : Columns α).relaxedRightward strength).diagram.PulledBy e .incoming
    strength

/-- Passes through rearranged layers of a `Layered` diagram are `RelaxedAlike`. -/
theorem Layered.relaxedAlike (he : e.Layered) (strength : α) {first second : List (List NodeId)}
    (hfirst : List.Forall₂ List.Perm first e.layers)
    (hsecond : List.Forall₂ List.Perm second e.layers) : e.RelaxedAlike strength first second where
  leftward_eq := (pulledBy_relaxed hfirst he strength).unique he
    (pulledBy_relaxed hsecond he strength)
  rightward_eq := (pulledBy_relaxed hfirst he strength).unique he
    (pulledBy_relaxed hsecond he strength)
  leftward := pulledBy_relaxed hfirst he strength
  rightward := pulledBy_relaxed hfirst he strength

/-- **A pass of pulls does not depend on the order of the nodes in layers, wherever the layout has
put the nodes of `ofFlows` by then.** -/
theorem ofFlows_relaxedAlike {names : List String} {flows : List (Flow α)}
    (h : ofFlows names flows = .ok d) (config : Config α)
    (he : e.Relocates (d.withValues.withLayers config)) (strength : α)
    {first second : List (List NodeId)} (hfirst : List.Forall₂ List.Perm first e.layers)
    (hsecond : List.Forall₂ List.Perm second e.layers) :
    e.RelaxedAlike strength first second :=
  ((layered_ofFlows h config).relocates he).relaxedAlike strength hfirst hsecond

/-- The columns of the detour with heights. -/
def detourColumns : Columns Rat :=
  ((detourDiagram.withValues.withLayers .standard).withSizes .standard).columns

/-- `detourColumns` holds the nodes of the detour in their layers. -/
theorem relocates_detourColumns :
    detourColumns.diagram.Relocates (detourDiagram.withValues.withLayers .standard) :=
  relocates_of_arranges (.columns _)

/-- The two sinks of the detour are pulled alike in both orders. -/
theorem ofFlows_relaxedAlike_detour :
    ofFlows detourNames detourFlows = .ok detourDiagram ∧
      detourColumns.diagram.Relocates (detourDiagram.withValues.withLayers .standard) ∧
      List.Forall₂ List.Perm detourColumns.layers detourColumns.diagram.layers ∧
      List.Forall₂ List.Perm [[⟨0⟩], [⟨1⟩], [⟨3⟩, ⟨2⟩]] detourColumns.diagram.layers ∧
      detourColumns.diagram.RelaxedAlike (1 / 2) detourColumns.layers
        [[⟨0⟩], [⟨1⟩], [⟨3⟩, ⟨2⟩]] := by
  have hdetour : ofFlows detourNames detourFlows = .ok detourDiagram := by decide +kernel
  have hfirst : List.Forall₂ List.Perm detourColumns.layers detourColumns.diagram.layers :=
    (Columns.Arranges.columns _).perm
  have hlayers : detourColumns.diagram.layers = [[⟨0⟩], [⟨1⟩], [⟨2⟩, ⟨3⟩]] := by decide +kernel
  have hsecond : List.Forall₂ List.Perm [[⟨0⟩], [⟨1⟩], [⟨3⟩, ⟨2⟩]]
      detourColumns.diagram.layers := by
    rw [hlayers]
    exact .cons (.refl _) (.cons (.refl _) (.cons (.swap ..) .nil))
  exact ⟨hdetour, relocates_detourColumns, hfirst, hsecond,
    ofFlows_relaxedAlike hdetour .standard relocates_detourColumns (1 / 2) hfirst hsecond⟩

end Diagram

end SankeyDiagram
