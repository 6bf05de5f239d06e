import Mathlib.Data.List.ReduceOption
import SankeyDiagram.Proofs.Agreement
import SankeyDiagram.Proofs.Lookup
import SankeyDiagram.Proofs.Pulling

/-! # Checked look-up

A copy of the layout in which every look-up of a node or a link can fail, as `d.nodes[id.index]?`
does where there is no node. Each stage of the copy is the stage of the layout wherever the nodes
and links exist that the stage is said to look up, and fails elsewhere.

* **`Checks`** an answer is a value where a test passes, and fails elsewhere; **`Checks.bind`**,
  **`Checks.mapM`**, **`Checks.foldlM`** computations one after another pass together.
* **`Diagram.Checked.checks_withValues`**, **`Diagram.Checked.checks_withLayers`**,
  **`Diagram.Checked.checks_withColumns`**, **`Diagram.Checked.checks_withSlots`**,
  **`Diagram.Checked.checks_curves`** the stages of the copy pass `Diagram.hasFlows`,
  `Diagram.hasSweep`, `Diagram.hasColumns`, `Diagram.hasSlots` and `Diagram.hasAllEnds`.
* **`Diagram.Checked.placed_of_ofFlows`** in a layout of names and flows no look-up fails. -/

namespace SankeyDiagram

/-! ## Answers that can fail -/

/-- `answer` is `some value` if `test` passes, and `none` otherwise. -/
def Checks {β : Type} (answer : Option β) (test : Bool) (value : β) : Prop :=
  answer = if test then some value else none

namespace Checks

variable {β γ : Type} {answer : Option β} {test other : Bool} {value : β}

/-- An answer is `some value` where its test passes. -/
theorem eq_some (h : Checks answer test value) (htest : test) : answer = some value := by
  rw [h, if_pos htest]

/-- The test of an answer in another form. -/
theorem of_test_eq (h : Checks answer test value) (htest : test = other) :
    Checks answer other value :=
  htest ▸ h

/-- The value of an answer in another form. -/
theorem of_value_eq {same : β} (h : Checks answer test value) (hvalue : value = same) :
    Checks answer test same :=
  hvalue ▸ h

/-- `answer >>= f` passes where `answer` does and `f` does on its value. -/
theorem bind {f : β → Option γ} {next : γ} (h : Checks answer test value)
    (hf : Checks (f value) other next) : Checks (answer >>= f) (test && other) next := by
  rw [Checks, h]
  cases test with
  | false => rfl
  | true => exact hf

/-- `do return g (← answer)` passes where `answer` does. -/
theorem map (h : Checks answer test value) (g : β → γ) :
    Checks (answer >>= fun x => pure (g x)) test (g value) := by
  have hpure : Checks (some (g value)) true (g value) := rfl
  exact (h.bind hpure).of_test_eq (Bool.and_true test)

/-- `xs.mapM f` passes where `f` does on all items of `xs`. -/
theorem mapM {f : β → Option γ} {p : β → Bool} {g : β → γ} (xs : List β)
    (h : ∀ x ∈ xs, Checks (f x) (p x) (g x)) : Checks (xs.mapM f) (xs.all p) (xs.map g) := by
  induction xs with
  | nil => rfl
  | cons x rest ih =>
    rw [List.forall_mem_cons] at h
    rw [List.mapM_cons, List.all_cons, List.map_cons]
    exact h.1.bind ((ih h.2).map (g x :: ·))

/-- `xs.mapM f` passes if `f` does on all items of `xs`. -/
theorem mapM_of_forall {f : β → Option γ} {g : β → γ} (xs : List β)
    (h : ∀ x ∈ xs, Checks (f x) true (g x)) : Checks (xs.mapM f) true (xs.map g) :=
  (Checks.mapM xs h).of_test_eq (List.all_eq_true.2 fun _ _ => rfl)

/-- `xs.foldlM f` passes where `f` does on all items of `xs`, if its test is the same on all values
that have a property, and its steps keep the property. -/
theorem foldlM {f : β → γ → Option β} {p : γ → Bool} {g : β → γ → β} {I : β → Prop}
    (xs : List γ) (h : ∀ b, I b → ∀ x ∈ xs, Checks (f b x) (p x) (g b x))
    (hstep : ∀ b, I b → ∀ x, I (g b x)) {start : β} (hstart : I start) :
    Checks (xs.foldlM f start) (xs.all p) (xs.foldl g start) := by
  induction xs generalizing start with
  | nil => rfl
  | cons x rest ih =>
    rw [List.foldlM_cons, List.all_cons, List.foldl_cons]
    exact (h start hstart x List.mem_cons_self).bind
      (ih (fun b hb y hy => h b hb y (List.mem_cons_of_mem _ hy)) (hstep start hstart x))

end Checks

variable {α : Type} [Scalar α]

namespace Diagram

variable {d e : Diagram α}

/-! ## Look-up of a node or a link -/

/-- The node at a position, if there is one. -/
def node? (d : Diagram α) (id : NodeId) : Option (Node α) := d.nodes[id.index]?

/-- The link at a position, if there is one. -/
def link? (d : Diagram α) (id : LinkId) : Option (Link α) := d.links[id.index]?

/-- `node?` fails iff there is no such node. -/
theorem checks_node? (d : Diagram α) (id : NodeId) :
    Checks (d.node? id) (d.hasNode id) (d.node id) := by
  rw [Checks, node?, hasNode]
  by_cases h : id.index < d.nodes.size
  · simp [h, d.node_of_lt h]
  · simp [h]

/-- `link?` fails iff there is no such link. -/
theorem checks_link? (d : Diagram α) (id : LinkId) :
    Checks (d.link? id) (d.hasLink id) (d.link id) := by
  rw [Checks, link?, hasLink]
  by_cases h : id.index < d.links.size
  · simp [h, d.link_of_lt h]
  · simp [h]

namespace Checked

/-! ## Values -/

/-- The sum of the values of some links. -/
def flow (d : Diagram α) (ids : List LinkId) : Option α := do
  let links ← ids.mapM d.link?
  return Scalar.sum (links.map Link.value)

/-- A node with the larger of the flows that enter and that leave it as its value. -/
def withValue (d : Diagram α) (n : Node α) : Option (Node α) := do
  let outflow ← flow d n.outgoing
  let inflow ← flow d n.incoming
  return { n with value := Scalar.larger outflow inflow }

/-- The stage `Diagram.withValues`. -/
def withValues (d : Diagram α) : Option (Diagram α) := do
  let nodes ← d.nodes.toList.mapM (withValue d)
  return { d with nodes := nodes.toArray }

/-- A sum of values looks up each link. -/
theorem checks_flow (d : Diagram α) (ids : List LinkId) :
    Checks (flow d ids) (ids.all d.hasLink) (d.flow ids) := by
  have hlinks := Checks.mapM ids fun id _ => d.checks_link? id
  refine (hlinks.map fun links => Scalar.sum (links.map Link.value)).of_value_eq ?_
  rw [Diagram.flow, List.map_map]
  rfl

/-- The value of a node looks up the links on its two sides. -/
theorem checks_withValue (d : Diagram α) (n : Node α) :
    Checks (withValue d n) (n.outgoing.all d.hasLink && n.incoming.all d.hasLink)
      { n with value := Scalar.larger (d.flow n.outgoing) (d.flow n.incoming) } := by
  rw [withValue]
  exact (checks_flow d n.outgoing).bind ((checks_flow d n.incoming).map _)

/-- `Diagram.hasFlows` tests what `Diagram.withValues` looks up. -/
theorem checks_withValues (d : Diagram α) : Checks (withValues d) d.hasFlows d.withValues := by
  have hnodes := Checks.mapM d.nodes.toList fun n _ => checks_withValue d n
  refine ((hnodes.map fun nodes => { d with nodes := nodes.toArray }).of_value_eq ?_).of_test_eq ?_
  · rw [Diagram.withValues, ← Array.toList_map, Array.toArray_toList]
  · rw [hasFlows, Array.all_toList]

/-! ## Layers -/

/-- The nodes that the links of a node lead to. -/
def targets (d : Diagram α) (id : NodeId) : Option (List NodeId) := do
  let n ← d.node? id
  n.outgoing.mapM fun l => do
    let link ← d.link? l
    let _ ← d.node? link.target
    return link.target

/-- The nodes that the links of a frontier lead to, each where it comes first. -/
def nextFrontier (d : Diagram α) (frontier : List NodeId) : Option (List NodeId) := do
  let reached ← frontier.mapM (targets d)
  return reached.flatten.eraseDups

/-- The frontiers of a sweep from a first one on. -/
def frontiers (d : Diagram α) : Nat → List NodeId → Option (List (List NodeId))
  | 0, _ => some []
  | limit + 1, frontier =>
    if frontier.isEmpty then some []
    else do
      let next ← nextFrontier d frontier
      let later ← frontiers d limit next
      return frontier :: later

/-- The stage `Diagram.withLayers`. -/
def withLayers (d : Diagram α) (config : Config α) : Option (Diagram α) := do
  let frontiers ← frontiers d (d.nodes.size + 1) d.roots
  return { d with
    layerCount := frontiers.length
    nodes := d.nodes.mapIdx fun i n =>
      placeNode config frontiers.length (placedLayer frontiers ⟨i⟩ n) n }

/-- Whether a node exists, and where its links lead. -/
def hasTargets (d : Diagram α) (id : NodeId) : Bool :=
  d.hasNode id && d.hasFarEnds .outgoing (d.node id).outgoing

/-- The targets of a node look up its outgoing links. -/
theorem checks_targets (d : Diagram α) (id : NodeId) :
    Checks (targets d id) (hasTargets d id) (d.targets id) :=
  (d.checks_node? id).bind <| Checks.mapM _ fun l _ =>
    (d.checks_link? l).bind ((d.checks_node? (d.link l).target).map fun _ => (d.link l).target)

/-- The next frontier looks up the targets of the nodes in this one. -/
theorem checks_nextFrontier (d : Diagram α) (frontier : List NodeId) :
    Checks (nextFrontier d frontier) (frontier.all (hasTargets d)) (d.nextFrontier frontier) := by
  have hreached := Checks.mapM frontier fun id _ => checks_targets d id
  refine (hreached.map fun reached => reached.flatten.eraseDups).of_value_eq ?_
  rw [Diagram.nextFrontier, List.flatMap_def]

/-- A sweep looks up the targets of the nodes in all its frontiers. -/
theorem checks_frontiers (d : Diagram α) (limit : Nat) (frontier : List NodeId) :
    Checks (frontiers d limit frontier) ((d.frontiers limit frontier).all (·.all (hasTargets d)))
      (d.frontiers limit frontier) := by
  -- on the limit; a frontier is looked up before the next one is known
  induction limit generalizing frontier with
  | zero => rfl
  | succ limit ih =>
    rw [frontiers, Diagram.frontiers]
    split
    · rfl
    · rw [List.all_cons]
      exact (checks_nextFrontier d frontier).bind ((ih _).map (frontier :: ·))

/-- `Diagram.hasSweep` tests what `Diagram.withLayers` looks up. -/
theorem checks_withLayers (d : Diagram α) (config : Config α) :
    Checks (withLayers d config) d.hasSweep (d.withLayers config) := by
  rw [withLayers]
  exact (checks_frontiers d (d.nodes.size + 1) d.roots).map _

/-! ## Sizes -/

/-- The layers, for which there has to be room. -/
def layers (d : Diagram α) : Option (List (List NodeId)) :=
  if d.hasLayers then some d.layers else none

/-- The scale that a layer allows, if flow passes through it. -/
def layerScale? (d : Diagram α) (config : Config α) (layer : List NodeId) :
    Option (Option α) := do
  let nodes ← layer.mapM d.node?
  let peak := (nodes.map Node.value).foldl Scalar.larger 0
  return if peak ≤ 0 then none
    else
      let relative := Scalar.sum (nodes.map fun n => n.value / peak)
      some ((config.height - gaps config layer) / peak / relative * fullness)

/-- The scale that all layers with flow allow, and at least zero. -/
def scale (d : Diagram α) (config : Config α) (layers : List (List NodeId)) : Option α := do
  let scales ← layers.mapM (layerScale? d config)
  return Scalar.larger ((smallest? scales.reduceOption).getD 0) 0

/-- The warning for a layer at a position, if it is too high. -/
def layerWarning? (d : Diagram α) (config : Config α) (layer : List NodeId) (position : Nat) :
    Option (Option (Warning α)) := do
  let nodes ← layer.mapM d.node?
  let required := Scalar.sum (nodes.map Node.dy) + gaps config layer
  return if config.height + tolerance < required then
    some (.layerOverflow position required config.height) else none

/-- The sizes of `Diagram.withSizes`. -/
def withSizes (d : Diagram α) (config : Config α) (layers : List (List NodeId)) :
    Option (Diagram α) := do
  let scale ← scale d config layers
  let warnings ← layers.zipIdx.mapM fun (layer, position) =>
    layerWarning? (d.scaled scale) config layer position
  return { d.scaled scale with warnings := warnings.reduceOption }

/-- `layer.mapM d.node?` looks up nodes that exist. -/
theorem checks_nodes {layer : List NodeId} (hnodes : ∀ id ∈ layer, d.hasNode id) :
    Checks (layer.mapM d.node?) true (layer.map d.node) :=
  Checks.mapM_of_forall layer fun id hid => (d.checks_node? id).of_test_eq (hnodes id hid)

/-- The nodes in `d.layers` exist. -/
theorem hasNode_of_mem_layers {layer : List NodeId} (hlayer : layer ∈ d.layers) :
    ∀ id ∈ layer, d.hasNode id := by
  obtain ⟨k, -, rfl⟩ := mem_layers.1 hlayer
  exact fun id hid => (mem_layer.1 hid).1

/-- `d.scale config` looks up the nodes of layers alone, and so does not fail. -/
theorem checks_scale (d : Diagram α) (config : Config α) :
    Checks (scale d config d.layers) true (d.scale config) := by
  have hscale : ∀ layer ∈ d.layers,
      Checks (layerScale? d config layer) true (d.layerScale? config layer) := by
    intro layer hlayer
    refine ((checks_nodes (hasNode_of_mem_layers hlayer)).map _).of_value_eq ?_
    simp only [List.map_map]
    rfl
  refine ((Checks.mapM_of_forall d.layers hscale).map fun scales =>
    Scalar.larger ((smallest? scales.reduceOption).getD 0) 0).of_value_eq ?_
  rw [Diagram.scale, List.reduceOption, List.filterMap_map]
  rfl

/-- `withSizes` over `d.layers` does not fail. -/
theorem checks_withSizes (d : Diagram α) (config : Config α) :
    Checks (withSizes d config d.layers) true (d.withSizes config) := by
  have hlayers : (d.scaled (d.scale config)).layers = d.layers := layers_withSizes d config
  -- warnings look up the nodes of layers, which sizes leave as they are
  have hwarning : ∀ p ∈ d.layers.zipIdx,
      Checks (layerWarning? (d.scaled (d.scale config)) config p.1 p.2) true
        ((d.scaled (d.scale config)).layerWarning? config p.1 p.2) := by
    intro p hp
    have hlayer : p.1 ∈ (d.scaled (d.scale config)).layers := by
      rw [hlayers]
      exact List.fst_mem_of_mem_zipIdx hp
    refine ((checks_nodes (hasNode_of_mem_layers hlayer)).map _).of_value_eq ?_
    simp only [List.map_map]
    rfl
  have hwarnings := Checks.mapM_of_forall d.layers.zipIdx hwarning
  refine (checks_scale d config).bind ((hwarnings.map fun warnings =>
    { d.scaled (d.scale config) with warnings := warnings.reduceOption }).of_value_eq ?_)
  rw [Diagram.withSizes, layerWarnings, hlayers, List.reduceOption, List.filterMap_map]
  rfl

/-! ## Order -/

/-- Some items in the order of keys that are looked up; items with one key keep their order. -/
def sortedBy {β : Type} (key : β → Option α) (xs : List β) : Option (List β) := do
  let keyed ← xs.mapM fun x => do
    let y ← key x
    return (y, x)
  return (keyed.mergeSort fun a b => Scalar.precedes a.1 b.1).map Prod.snd

/-- `sortedBy key xs` looks up each key once, and sorts as a comparison that looks up both does. -/
theorem checks_sortedBy {β : Type} {key : β → Option α} {ok : β → Bool} {keyOf : β → α}
    (xs : List β) (h : ∀ x ∈ xs, Checks (key x) (ok x) (keyOf x)) :
    Checks (sortedBy key xs) (xs.all ok)
      (xs.mergeSort fun a b => Scalar.precedes (keyOf a) (keyOf b)) := by
  have hkeyed := Checks.mapM xs fun x hx => (h x hx).map fun y => (y, x)
  refine (hkeyed.map fun keyed =>
    (keyed.mergeSort fun a b => Scalar.precedes a.1 b.1).map Prod.snd).of_value_eq ?_
  rw [← List.map_mergeSort (r := fun a b => Scalar.precedes (keyOf a) (keyOf b)) (by simp),
    List.map_map]
  simp [Function.comp_def]

/-! ## Columns -/

/-- Some nodes from the top down. -/
def fromTop (d : Diagram α) (layer : List NodeId) : Option (List NodeId) :=
  sortedBy (fun id => do
    let n ← d.node? id
    return n.y) layer

/-- The diagram with some nodes packed in their order. -/
def packed (config : Config α) (d : Diagram α) (layer : List NodeId) : Option (Diagram α) := do
  let nodes ← layer.mapM d.node?
  let boxes := Box.pack config.nodePadding config.height (nodes.map fun n => ⟨n.y, n.dy⟩)
  return d.setTops (layer.zip (boxes.map Box.top))

/-- The layers sorted from the top down and packed. -/
def settled (config : Config α) (c : Columns α) : Option (Columns α) := do
  let layers ← c.layers.mapM (fromTop c.diagram)
  let diagram ← layers.foldlM (packed config) c.diagram
  return ⟨diagram, layers⟩

/-- The mean of the centers of the nodes that some links lead to; none if there is no flow. -/
def weightedCenter? (d : Diagram α) (side : Side) (ids : List LinkId) : Option (Option α) := do
  let total ← flow d ids
  if ids.isEmpty ∨ total ≤ 0 then return none
  else
    let terms ← ids.mapM fun id => do
      let link ← d.link? id
      let far ← d.node? (link.farEnd side)
      return far.center * (link.value / total)
    return some (Scalar.sum terms)

/-- The diagram with a node moved a part of the way to where its links pull it. -/
def pulled (side : Side) (strength : α) (d : Diagram α) (id : NodeId) : Option (Diagram α) := do
  let n ← d.node? id
  let goal ← weightedCenter? d side (n.linksAt side)
  return match goal with
    | some goal => d.setTop id (n.y + (goal - n.center) * strength)
    | none => d

/-- One pass of pulls. -/
def relaxed (side : Side) (strength : α) (layers : List (List NodeId)) (d : Diagram α) :
    Option (Diagram α) :=
  layers.foldlM (fun d layer => layer.foldlM (pulled side strength) d) d

/-- A round: both passes, with the layers settled after each. -/
def round (config : Config α) (strength : α) (c : Columns α) : Option (Columns α) := do
  let leftward ← relaxed .outgoing strength c.layers.reverse c.diagram
  let between ← settled config { c with diagram := leftward }
  let rightward ← relaxed .incoming strength between.layers between.diagram
  settled config { between with diagram := rightward }

/-- A number of rounds. -/
def rounds (config : Config α) : Nat → α → Columns α → Option (Columns α)
  | 0, _, c => some c
  | count + 1, strength, c => do
    let weaker := strength * Columns.decay
    let next ← round config weaker c
    rounds config count weaker next

/-- The stage `Diagram.withColumns`. -/
def withColumns (d : Diagram α) (config : Config α) (count : Nat) : Option (Diagram α) := do
  let layers ← layers d
  let sized ← withSizes d config layers
  let first ← settled config ⟨sized, layers⟩
  let last ← rounds config count 1 first
  return last.diagram

/-- `settled` does not fail on columns that arrange the nodes of `d`. -/
theorem checks_settled {c : Columns α} (config : Config α) (h : c.Arranges d) :
    Checks (settled config c) true (c.settled config) := by
  have hnodes : ∀ layer ∈ c.layers, ∀ id ∈ layer, c.diagram.hasNode id := by
    intro layer hlayer id hid
    exact mem_nodeIds.1 (h.flatten_perm.mem_iff.1 (List.mem_flatten_of_mem hlayer hid))
  have hsorted : ∀ layer ∈ c.layers,
      Checks (fromTop c.diagram layer) true (c.diagram.fromTop layer) := by
    intro layer hlayer
    refine (checks_sortedBy layer fun id _ => (c.diagram.checks_node? id).map Node.y).of_test_eq ?_
    exact List.all_eq_true.2 (hnodes layer hlayer)
  have hlayers := Checks.mapM_of_forall c.layers hsorted
  have hpacked : ∀ g : Diagram α, g.flattened = c.diagram.flattened →
      ∀ layer ∈ c.layers.map c.diagram.fromTop,
        Checks (packed config g layer) true (Diagram.packed config g layer) := by
    intro g hg layer hlayer
    obtain ⟨unsorted, hunsorted, rfl⟩ := List.mem_map.1 hlayer
    refine ((checks_nodes fun id hid => ?_).map _).of_value_eq ?_
    · rw [hasNode_of_flattened hg]
      exact hnodes unsorted hunsorted id ((List.mergeSort_perm _ _).mem_iff.1 hid)
    · simp only [List.map_map]
      rfl
  -- packing moves upper edges alone, so that later layers hold the same nodes
  have hfold := Checks.foldlM _ hpacked
    (fun g hg layer => (flattened_packed config g layer).trans hg) rfl
  rw [settled]
  refine (hlayers.bind (hfold.map _)).of_test_eq ?_
  exact List.all_eq_true.2 fun _ _ => rfl

/-- A mean of centers looks up the far ends of links if these have flow. -/
theorem checks_weightedCenter? (d : Diagram α) (side : Side) (ids : List LinkId) :
    Checks (weightedCenter? d side ids)
      (ids.all d.hasLink && (decide (ids.isEmpty ∨ d.flow ids ≤ 0) || d.hasFarEnds side ids))
      (d.weightedCenter? side ids) := by
  rw [weightedCenter?, Diagram.weightedCenter?]
  refine (checks_flow d ids).bind ?_
  -- without flow far ends are not looked up
  by_cases h : ids.isEmpty ∨ d.flow ids ≤ 0
  · rw [if_pos h, if_pos h, decide_eq_true h]
    rfl
  · rw [if_neg h, if_neg h, decide_eq_false h, Bool.false_or]
    have hterm : ∀ id ∈ ids, Checks (do
        let link ← d.link? id
        let far ← d.node? (link.farEnd side)
        return far.center * (link.value / d.flow ids))
        (d.hasLink id && d.hasNode ((d.link id).farEnd side))
        ((d.node ((d.link id).farEnd side)).center * ((d.link id).value / d.flow ids)) :=
      fun id _ => (d.checks_link? id).bind ((d.checks_node? _).map _)
    exact (Checks.mapM ids hterm).map fun terms => some (Scalar.sum terms)

/-- Whether a node exists, and the nodes and links that pull it. -/
def hasPullAt (d : Diagram α) (side : Side) (id : NodeId) : Bool :=
  d.hasNode id && d.hasPull side (d.node id)

/-- A pull looks up the links on its side and, if they have flow, their far ends. -/
theorem checks_pulled (side : Side) (strength : α) (d : Diagram α) (id : NodeId) :
    Checks (pulled side strength d id) (hasPullAt d side id)
      (Diagram.pulled side strength d id) := by
  rw [pulled]
  refine (d.checks_node? id).bind (((checks_weightedCenter? d side _).map _).of_value_eq ?_)
  rfl

/-- `hasPullAt` is the same where the same nodes and links are drawn elsewhere. -/
theorem hasPullAt_of_redraws (h : e.Redraws d) {side : Side} {id : NodeId}
    (hlinks : (e.node id).linksAt side = (d.node id).linksAt side) :
    hasPullAt e side id = hasPullAt d side id := by
  have hvalue : e.flow ((d.node id).linksAt side) = d.flow ((d.node id).linksAt side) := by
    simp only [Diagram.flow, h.value_link]
  have hfar : ∀ l, (e.link l).farEnd side = (d.link l).farEnd side := by
    intro l
    cases side with
    | outgoing => exact h.nearEnd .incoming l
    | incoming => exact h.nearEnd .outgoing l
  have hlink : e.hasLink = d.hasLink := funext h.hasLink
  simp only [hasPullAt, hasPull, hasFarEnds, hlinks, hvalue, hfar, h.hasNode, hlink]

/-- `hasPullAt` does not read upper edges. -/
theorem hasPullAt_of_flattened (h : e.flattened = d.flattened) (side : Side) (id : NodeId) :
    hasPullAt e side id = hasPullAt d side id := by
  have hnode := congrArg (fun d => (d.node id).linksAt side) h
  simp only [node_flattened] at hnode
  refine hasPullAt_of_redraws (redraws_of_flattened h) ?_
  cases side <;> exact hnode

/-- A pass tests `hasPullAt` for the nodes of all layers, at whatever heights these are
meanwhile. -/
theorem checks_relaxed (side : Side) (strength : α) (layers : List (List NodeId)) :
    Checks (relaxed side strength layers d) (layers.all (·.all (hasPullAt d side)))
      (d.relaxed side strength layers) := by
  refine Checks.foldlM (I := fun g => g.flattened = d.flattened) layers ?_ ?_ rfl
  · intro g hg layer _
    refine Checks.foldlM (I := fun g => g.flattened = d.flattened) layer ?_ ?_ hg
    · intro g hg id _
      rw [← hasPullAt_of_flattened hg]
      exact checks_pulled side strength g id
    · exact fun g hg id => (flattened_pulled side strength g id).trans hg
  · exact fun g hg layer =>
      (flattened_foldl (flattened_pulled side strength) layer g).trans hg

/-- Whether all nodes and links exist that a round looks up. -/
def hasPulls (d : Diagram α) : Bool :=
  d.nodeIds.all (hasPullAt d .outgoing) && d.nodeIds.all (hasPullAt d .incoming)

/-- `hasPulls` is `hasPull` on the two sides of all nodes. -/
theorem hasPulls_eq (d : Diagram α) :
    hasPulls d = d.nodes.all fun n => d.hasPull .outgoing n && d.hasPull .incoming n := by
  have hat : ∀ side id, d.hasNode id → (hasPullAt d side id ↔ d.hasPull side (d.node id)) := by
    intro side id hid
    rw [hasPullAt, hid, Bool.true_and]
  rw [Bool.eq_iff_iff, all_nodes_iff, hasPulls, Bool.and_eq_true, List.all_eq_true,
    List.all_eq_true]
  constructor
  · rintro ⟨hout, hin⟩ id hid
    rw [Bool.and_eq_true, ← hat _ id hid, ← hat _ id hid]
    exact ⟨hout id (mem_nodeIds.2 hid), hin id (mem_nodeIds.2 hid)⟩
  · intro h
    refine ⟨fun id hid => ?_, fun id hid => ?_⟩
    · exact (hat _ id (mem_nodeIds.1 hid)).2 (Bool.and_eq_true _ _ ▸ h id (mem_nodeIds.1 hid)).1
    · exact (hat _ id (mem_nodeIds.1 hid)).2 (Bool.and_eq_true _ _ ▸ h id (mem_nodeIds.1 hid)).2

/-- A pass through columns tests `hasPullAt` for all nodes. -/
theorem all_hasPullAt {c : Columns α} (h : c.Arranges d) (side : Side) :
    c.layers.all (·.all (hasPullAt c.diagram side)) = d.nodeIds.all (hasPullAt d side) := by
  have hat : hasPullAt c.diagram side = hasPullAt d side :=
    funext fun id => hasPullAt_of_flattened h.flattened side id
  have hids : c.diagram.nodeIds = d.nodeIds := by
    rw [nodeIds, nodeIds, size_nodes_of_flattened h.flattened]
  rw [← List.all_flatten, h.flatten_perm.all_eq, hat, hids]

/-- A round tests `hasPulls`, once for each direction. -/
theorem checks_round {c : Columns α} (h : c.Arranges d) (config : Config α) (strength : α) :
    Checks (round config strength c) (hasPulls d) (c.round config strength) := by
  have hleft := h.relaxedLeftward strength
  have hbetween := hleft.settled config
  have hright := hbetween.relaxedRightward strength
  have hleftward := (checks_relaxed .outgoing strength c.layers.reverse).of_test_eq
    (List.all_reverse.trans (all_hasPullAt h .outgoing))
  have hrightward := (checks_relaxed .incoming strength _).of_test_eq
    (all_hasPullAt hbetween .incoming)
  rw [round]
  refine (hleftward.bind ((checks_settled config hleft).bind
    (hrightward.bind (checks_settled config hright)))).of_test_eq ?_
  rw [Bool.true_and, Bool.and_true, hasPulls]

/-- Any number of rounds tests `hasPulls` as one does, and no rounds test nothing. -/
theorem checks_rounds {c : Columns α} (h : c.Arranges d) (config : Config α) (count : Nat)
    (strength : α) :
    Checks (rounds config count strength c) (count == 0 || hasPulls d)
      (c.relaxed config count strength) := by
  induction count generalizing c strength with
  | zero => rfl
  | succ count ih =>
    have hnext : (c.round config (strength * Columns.decay)).Arranges d :=
      (((h.relaxedLeftward _).settled config).relaxedRightward _).settled config
    rw [rounds, Columns.relaxed]
    refine ((checks_round h config _).bind (ih hnext _)).of_test_eq ?_
    cases hasPulls d <;> simp

/-- `withSizes` leaves `hasPulls` as it is. -/
theorem hasPulls_withSizes (d : Diagram α) (config : Config α) :
    hasPulls (d.withSizes config) = hasPulls d := by
  have hredraws := d.redraws_withSizes config
  have hat : ∀ side, hasPullAt (d.withSizes config) side = hasPullAt d side := by
    intro side
    funext id
    by_cases hid : d.hasNode id
    · refine hasPullAt_of_redraws hredraws ?_
      rw [node_withSizes d config hid]
      cases side <;> rfl
    · rw [hasPullAt, hasPullAt, hredraws.hasNode, Bool.eq_false_iff.2 hid, Bool.false_and,
        Bool.false_and]
  rw [hasPulls, hasPulls, hredraws.nodeIds, hat, hat]

/-- `Diagram.hasColumns` tests what `Diagram.withColumns` looks up. -/
theorem checks_withColumns (d : Diagram α) (config : Config α) (count : Nat) :
    Checks (withColumns d config count) (d.hasColumns count) (d.withColumns config count) := by
  -- layers are counted first, then sizes are given, and then nodes are moved
  have hlayers : Checks (layers d) d.hasLayers d.layers := rfl
  have hcolumns : (⟨d.withSizes config, d.layers⟩ : Columns α) = (d.withSizes config).columns := by
    rw [columns, layers_withSizes]
  have harranges := Columns.Arranges.columns (d.withSizes config)
  have hfirst := checks_settled config harranges
  have hrounds := checks_rounds (harranges.settled config) config count 1
  rw [← hcolumns] at hfirst hrounds
  rw [withColumns]
  refine ((hlayers.bind ((checks_withSizes d config).bind (hfirst.bind
    (hrounds.map Columns.diagram)))).of_value_eq ?_).of_test_eq ?_
  · rw [hcolumns]
    rfl
  · rw [Bool.true_and, Bool.true_and, hasPulls_withSizes, hasPulls_eq]
    rfl

/-! ## Slots -/

/-- The center of the node that a link leads to from a side. -/
def farCenter (d : Diagram α) (side : Side) (id : LinkId) : Option α := do
  let link ← d.link? id
  let far ← d.node? (link.farEnd side)
  return far.center

/-- Some links from the top down by the nodes that they lead to, which are only looked up if there
is something to compare. -/
def fromTopEnd (d : Diagram α) (side : Side) (ids : List LinkId) : Option (List LinkId) :=
  if ids.length < 2 then some ids else sortedBy (farCenter d side) ids

/-- A node with the links on both sides in their order. -/
def withOrder (d : Diagram α) (n : Node α) : Option (Node α) := do
  let outgoing ← fromTopEnd d .outgoing n.outgoing
  let incoming ← fromTopEnd d .incoming n.incoming
  return { n with outgoing, incoming }

/-- The diagram with the links on both sides of every node in their order. -/
def withLinkOrder (d : Diagram α) : Option (Diagram α) := do
  let nodes ← d.nodes.toList.mapM (withOrder d)
  return { d with nodes := nodes.toArray }

/-- The diagram with some links one directly below the other on a side, from an offset on. -/
def stacked (d : Diagram α) (side : Side) (offset : α) : List LinkId → Option (Diagram α)
  | [] => some d
  | id :: below => do
    let link ← d.link? id
    stacked (d.setSlot side id offset) side (offset + link.dy) below

/-- The diagram with the links on both sides of a node stacked. -/
def withStacks (d : Diagram α) (n : Node α) : Option (Diagram α) := do
  let left ← stacked d .outgoing 0 n.outgoing
  stacked left .incoming 0 n.incoming

/-- The stage `Diagram.withSlots`. -/
def withSlots (d : Diagram α) : Option (Diagram α) := do
  let ordered ← withLinkOrder d
  ordered.nodes.toList.foldlM withStacks ordered

/-- `fromTopEnd` looks up far ends only to compare, so not in a list of fewer than two links. -/
theorem checks_fromTopEnd (d : Diagram α) (side : Side) (ids : List LinkId) :
    Checks (fromTopEnd d side ids) (decide (ids.length < 2) || d.hasFarEnds side ids)
      (d.fromTopEnd side ids) := by
  rw [fromTopEnd]
  split
  case isTrue h =>
    have hsorted : d.fromTopEnd side ids = ids := by
      match ids, h with
      | [], _ => exact List.mergeSort_nil
      | [id], _ => exact List.mergeSort_singleton id
    rw [decide_eq_true h, hsorted]
    rfl
  case isFalse h =>
    rw [decide_eq_false h, Bool.false_or]
    exact checks_sortedBy ids fun id _ => (d.checks_link? id).bind ((d.checks_node? _).map _)

/-- `withLinkOrder` looks up the far ends of links that are not alone on a side. -/
theorem checks_withLinkOrder (d : Diagram α) :
    Checks (withLinkOrder d)
      (d.nodes.all fun n =>
        (decide (n.outgoing.length < 2) || d.hasFarEnds .outgoing n.outgoing)
          && (decide (n.incoming.length < 2) || d.hasFarEnds .incoming n.incoming))
      d.withLinkOrder := by
  have hnode : ∀ n ∈ d.nodes.toList, Checks (withOrder d n) _ _ := fun n _ =>
    (checks_fromTopEnd d .outgoing n.outgoing).bind
      ((checks_fromTopEnd d .incoming n.incoming).map fun incoming =>
        { n with outgoing := d.fromTopEnd .outgoing n.outgoing, incoming })
  refine (((Checks.mapM _ hnode).map fun nodes =>
    { d with nodes := nodes.toArray }).of_value_eq ?_).of_test_eq ?_
  · rw [Diagram.withLinkOrder, ← Array.toList_map, Array.toArray_toList]
  · rw [Array.all_toList]

/-- `stacked` looks up each link of a stack. -/
theorem checks_stacked (d : Diagram α) (side : Side) (offset : α) (ids : List LinkId) :
    Checks (stacked d side offset ids) (ids.all d.hasLink) (d.stacked side offset ids) := by
  induction ids generalizing d offset with
  | nil => rfl
  | cons id below ih =>
    have hlink : (d.setSlot side id offset).hasLink = d.hasLink :=
      funext (redraws_of_unslotted (unslotted_setSlot d side id offset)).hasLink
    rw [stacked, Diagram.stacked, List.all_cons]
    exact (d.checks_link? id).bind ((ih _ _).of_test_eq (by rw [hlink]))

/-- `withStacks` looks up the links on the two sides of a node. -/
theorem checks_withStacks (d : Diagram α) (n : Node α) :
    Checks (withStacks d n) (n.outgoing.all d.hasLink && n.incoming.all d.hasLink)
      (d.withStacks n) := by
  have hlink : (d.stacked .outgoing 0 n.outgoing).hasLink = d.hasLink :=
    funext (redraws_of_unslotted (unslotted_stacked d .outgoing 0 n.outgoing)).hasLink
  rw [withStacks, Diagram.withStacks]
  exact (checks_stacked d .outgoing 0 n.outgoing).bind
    ((checks_stacked _ .incoming 0 n.incoming).of_test_eq (by rw [hlink]))

/-- `Diagram.hasSlots` tests what `Diagram.withSlots` looks up. -/
theorem checks_withSlots (d : Diagram α) : Checks (withSlots d) d.hasSlots d.withSlots := by
  have hfold := Checks.foldlM (f := withStacks) (g := Diagram.withStacks)
    (p := fun n => n.outgoing.all d.hasLink && n.incoming.all d.hasLink)
    (I := fun g => g.unslotted = d.withLinkOrder.unslotted) d.withLinkOrder.nodes.toList
    (fun g hg n _ => by
      have hlink : g.hasLink = d.hasLink :=
        funext ((redraws_of_unslotted hg).trans d.redraws_withLinkOrder).hasLink
      rw [← hlink]
      exact checks_withStacks g n)
    (fun g hg n => (unslotted_withStacks g n).trans hg) rfl
  rw [withSlots]
  refine ((checks_withLinkOrder d).bind hfold).of_test_eq ?_
  -- a list has the same links in any order
  have hstacks : d.withLinkOrder.nodes.toList.all
        (fun n => n.outgoing.all d.hasLink && n.incoming.all d.hasLink)
      = d.nodes.toList.all fun n => n.outgoing.all d.hasLink && n.incoming.all d.hasLink := by
    rw [Diagram.withLinkOrder, Array.toList_map, List.all_map]
    congr 1
    funext n
    exact congrArg₂ _ (List.mergeSort_perm _ _).all_eq (List.mergeSort_perm _ _).all_eq
  rw [hstacks, hasSlots, ← Array.all_toList, ← Array.all_toList, Bool.eq_iff_iff]
  simp only [hasOrder, Bool.and_eq_true, List.all_eq_true (l := d.nodes.toList)]
  constructor
  · rintro ⟨hends, hlinks⟩ n hn
    exact ⟨⟨(hlinks n hn).1, (hends n hn).1⟩, ⟨(hlinks n hn).2, (hends n hn).2⟩⟩
  · intro h
    exact ⟨fun n hn => ⟨(h n hn).1.2, (h n hn).2.2⟩, fun n hn => ⟨(h n hn).1.1, (h n hn).2.1⟩⟩

/-! ## Curves -/

/-- The curve of a link. -/
def curve (bend : Bend α) (d : Diagram α) (l : Link α) : Option (Curve α) := do
  let source ← d.node? l.source
  let target ← d.node? l.target
  let top := source.y + l.sy + l.dy / ((2 : Nat) : α)
  let bottom := target.y + l.ty + l.dy / ((2 : Nat) : α)
  return {
    start := ⟨source.right, top⟩
    control1 := ⟨Bend.between source.right target.x bend.curvature, top⟩
    control2 := ⟨Bend.between source.right target.x (1 - bend.curvature), bottom⟩
    finish := ⟨target.x, bottom⟩ }

/-- The curves of all links in their order. -/
def curves (bend : Bend α) (d : Diagram α) : Option (List (Curve α)) :=
  d.links.toList.mapM (curve bend d)

/-- `Diagram.hasAllEnds` tests what `Bend.curves` looks up. -/
theorem checks_curves (bend : Bend α) (d : Diagram α) :
    Checks (curves bend d) d.hasAllEnds (bend.curves d) := by
  have hcurve : ∀ l ∈ d.links.toList, Checks (curve bend d l) (d.hasEnds l) (bend.curve d l) := by
    intro l _
    rw [curve]
    exact (d.checks_node? l.source).bind ((d.checks_node? l.target).map _)
  refine (Checks.mapM _ hcurve).of_test_eq ?_
  rw [hasAllEnds, Array.all_toList]

/-! ## Layouts -/

/-- The layout `Diagram.placed`. -/
def placed (d : Diagram α) (config : Config α) (count : Nat) : Option (Diagram α) := do
  let valued ← withValues d
  let layered ← withLayers valued config
  let arranged ← withColumns layered config count
  withSlots arranged

/-- `placed` looks up in each stage what the diagram of the stage before it names. -/
theorem checks_placed (d : Diagram α) (config : Config α) (count : Nat) :
    Checks (placed d config count)
      (d.hasFlows && (d.withValues.hasSweep && ((d.withValues.withLayers config).hasColumns count
        && ((d.withValues.withLayers config).withColumns config count).hasSlots)))
      (d.placed config count) :=
  (checks_withValues d).bind <| (checks_withLayers _ config).bind <|
    (checks_withColumns _ config count).bind (checks_withSlots _)

/-- **In a layout of names and flows no look-up fails: the checked `placed` is
`some (d.placed config count)`**, as long as there are no more names than `maxLayers`. -/
theorem placed_of_ofFlows {names : List String} {flows : List (Flow α)}
    (h : ofFlows names flows = .ok d) (hnames : names.length ≤ maxLayers) (config : Config α)
    (count : Nat) : placed d config count = some (d.placed config count) := by
  have hsound := sound_ofFlows h
  have hvalues := hsound.withValues
  have hlayers := hvalues.withLayers config
  have hsize : (d.withValues.withLayers config).nodes.size ≤ maxLayers := by
    rw [← Array.length_toList, ← List.length_map (f := Node.name), hlayers.names_eq]
    exact hnames
  refine (checks_placed d config count).eq_some ?_
  have hslots := (hlayers.withColumns config count).hasLookups.hasSlots
  rw [hsound.hasLookups.hasFlows, hvalues.hasLookups.hasSweep,
    hlayers.hasLookups.hasColumns hsize count, hslots]
  rfl

end Checked

/-- Where `d.HasLookups` holds, no stage of the checked copy fails on `d`, and no curve. -/
theorem HasLookups.eq_some (h : d.HasLookups) (config : Config α) (bend : Bend α) :
    Checked.withValues d = some d.withValues ∧
    Checked.withLayers d config = some (d.withLayers config) ∧
    (d.nodes.size ≤ maxLayers → ∀ count,
      Checked.withColumns d config count = some (d.withColumns config count)) ∧
    Checked.withSlots d = some d.withSlots ∧ Checked.curves bend d = some (bend.curves d) :=
  ⟨(Checked.checks_withValues d).eq_some h.hasFlows,
    (Checked.checks_withLayers d config).eq_some h.hasSweep,
    fun hsize count =>
      (Checked.checks_withColumns d config count).eq_some (h.hasColumns hsize count),
    (Checked.checks_withSlots d).eq_some h.hasSlots,
    (Checked.checks_curves bend d).eq_some h.hasAllEnds⟩

end Diagram

/-- Whatever was done in a session, `withSlots` and `curves` of its diagram look up what exists. -/
theorem Session.performAll_eq_some {s₀ : Session α} (h : s₀.IsNew) (actions : List (Action α))
    {d : Diagram α} (hd : (s₀.performAll actions).diagram = some d) :
    Diagram.Checked.withSlots d = some d.withSlots ∧
      ∀ bend, Diagram.Checked.curves bend d = some (bend.curves d) := by
  have hlookups := (performAll_shows kept_sound h.shows actions d hd).hasLookups
  exact ⟨(Diagram.Checked.checks_withSlots d).eq_some hlookups.hasSlots,
    fun bend => (Diagram.Checked.checks_curves bend d).eq_some hlookups.hasAllEnds⟩

end SankeyDiagram
