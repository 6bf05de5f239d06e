import SankeyDiagram.Proofs.Comparison
import SankeyDiagram.Proofs.OwnFlows
import SankeyDiagram.Proofs.Pulling
import SankeyDiagram.Proofs.Renumbering

/-! # Totals of flows

A layout adds up the flows on the sides of nodes again and again: once to examine the diagram that
flows make, once for the values of nodes, and in every pass of pulls. Here each stage keeps a record
of what it adds up. It is the same each time, in the same order; so no total is anything that the
examination has not seen.

* **`Total`** what is added up; **`Recorded`** a result with the totals that were taken for it.
* **`Recorded.overflowingFlow?`**, **`Recorded.withValues`**, **`Recorded.pulled`**,
  **`Recorded.placed`** the stages that take totals, with their record.
* **`Recorded.result_placed`** they have the results that they have without a record.
* **`Recorded.totals_placed_perm`** totals are taken once for the values and once in every round.
* **`Diagram.AddsUpAsExamined`** hence all totals are those that were examined:
  **`Diagram.ofFlows_addsUpAsExamined`**. -/

namespace SankeyDiagram

/-! ## Results with a record -/

/-- What is added up at a side of a node. -/
structure Total (α : Type) where
  /-- The node. -/
  node : NodeId
  /-- The side of the node. -/
  side : Side
  /-- The values of the links there, in the order in which they are added. -/
  summands : List α
deriving DecidableEq, Repr

/-- A result, with the totals that were taken for it, in order. -/
structure Recorded (α β : Type) where
  /-- The result. -/
  result : β
  /-- The totals. -/
  totals : List (Total α)

namespace Recorded

variable {α β γ : Type}

instance : Monad (Recorded α) where
  pure b := ⟨b, []⟩
  bind a f := ⟨(f a.result).result, a.totals ++ (f a.result).totals⟩

/-- `pure b` has the result `b`. -/
@[simp] theorem result_pure (b : β) : (pure b : Recorded α β).result = b := rfl

/-- `pure b` takes no totals. -/
@[simp] theorem totals_pure (b : β) : (pure b : Recorded α β).totals = [] := rfl

/-- The result of `a >>= f` is that of `f` on the result of `a`. -/
@[simp] theorem result_bind (a : Recorded α β) (f : β → Recorded α γ) :
    (a >>= f).result = (f a.result).result := rfl

/-- `a >>= f` takes the totals of `a`, and then those of `f`. -/
@[simp] theorem totals_bind (a : Recorded α β) (f : β → Recorded α γ) :
    (a >>= f).totals = a.totals ++ (f a.result).totals := rfl

/-- `foldlM` has the result of the fold without a record. -/
theorem result_foldlM (f : β → γ → Recorded α β) (xs : List γ) (b : β) :
    (xs.foldlM f b).result = xs.foldl (fun b x => (f b x).result) b := by
  induction xs generalizing b with
  | nil => rfl
  | cons x xs ih => rw [List.foldlM_cons, result_bind, ih, List.foldl_cons]

/-- A fold whose steps take `taken x` from wherever they start takes these one after another. -/
theorem totals_foldlM {f : β → γ → Recorded α β} {p : β → Prop} {taken : γ → List (Total α)}
    (hstep : ∀ b x, p b → (f b x).totals = taken x ∧ p (f b x).result) (xs : List γ) {b : β}
    (hb : p b) : (xs.foldlM f b).totals = xs.flatMap taken := by
  induction xs generalizing b with
  | nil => rfl
  | cons x xs ih =>
    obtain ⟨htaken, hnext⟩ := hstep b x hb
    rw [List.foldlM_cons, totals_bind, htaken, ih hnext, List.flatMap_cons]

instance : LawfulMonad (Recorded α) :=
  .mk' _ (fun a => congrArg (Recorded.mk a.result) (List.append_nil a.totals)) (fun _ _ => rfl)
    fun _ _ _ => congrArg (Recorded.mk _) (List.append_assoc ..)

/-- `mapM` has the results of the items. -/
theorem result_mapM (f : β → Recorded α γ) (xs : List β) :
    (xs.mapM f).result = xs.map fun x => (f x).result := by
  induction xs with
  | nil => rfl
  | cons x xs ih =>
    rw [List.mapM_cons, result_bind, result_bind, ih, result_pure, List.map_cons]

/-- `mapM` takes the totals of the items one after another. -/
theorem totals_mapM (f : β → Recorded α γ) (xs : List β) :
    (xs.mapM f).totals = xs.flatMap fun x => (f x).totals := by
  induction xs with
  | nil => rfl
  | cons x xs ih =>
    rw [List.mapM_cons, totals_bind, totals_bind, ih, totals_pure, List.append_nil,
      List.flatMap_cons]

end Recorded

variable {α : Type} [Scalar α]

namespace Total

/-- The sum of the summands. -/
def amount (t : Total α) : α := Scalar.sum t.summands

/-- A total is taken. -/
def take (t : Total α) : Recorded α α := ⟨t.amount, [t]⟩

/-- `t.take` has the amount of `t` as its result. -/
@[simp] theorem result_take (t : Total α) : t.take.result = t.amount := rfl

end Total

namespace Diagram

variable {d e : Diagram α}

/-- `d.nodeIds.map d.node` are the nodes of `d`. -/
theorem map_node_nodeIds (d : Diagram α) : d.nodeIds.map d.node = d.nodes.toList := by
  apply List.ext_getElem
  · simp [nodeIds]
  · intro i hi hi'
    rw [List.length_map, nodeIds, List.length_map, List.length_range] at hi
    have hnode : d.node ⟨i⟩ = d.nodes[i] := d.node_of_lt hi
    simp [nodeIds, hnode]

/-- The total at a side of a node. -/
def total (d : Diagram α) (side : Side) (id : NodeId) : Total α :=
  ⟨id, side, ((d.node id).linksAt side).map fun l => (d.link l).value⟩

/-- The totals at both sides of all nodes. -/
def totals (d : Diagram α) : List (Total α) :=
  d.nodeIds.flatMap fun id => [d.total .outgoing id, d.total .incoming id]

/-- `d.total side id` is the flow through the links on that side. -/
theorem amount_total (d : Diagram α) (side : Side) (id : NodeId) :
    (d.total side id).amount = d.flow ((d.node id).linksAt side) := rfl

/-- `d.totals` has a total for each side of each node. -/
theorem mem_totals {t : Total α} :
    t ∈ d.totals ↔ ∃ id, d.hasNode id ∧ ∃ side, t = d.total side id := by
  simp only [totals, List.mem_flatMap, mem_nodeIds, List.mem_cons, List.not_mem_nil, or_false]
  refine exists_congr fun id => and_congr_right fun _ => ⟨?_, ?_⟩
  · rintro (h | h)
    · exact ⟨.outgoing, h⟩
    · exact ⟨.incoming, h⟩
  · rintro ⟨side | side, h⟩
    · exact Or.inl h
    · exact Or.inr h

/-- `d.totals`, taken side by side. -/
theorem totals_perm (d : Diagram α) :
    (d.nodeIds.map (d.total .outgoing) ++ d.nodeIds.map (d.total .incoming)).Perm d.totals := by
  rw [List.map_eq_flatMap, List.map_eq_flatMap]
  exact List.flatMap_append_perm ..

end Diagram

/-! ## Stages with a record -/

namespace Recorded

/-- The first of some nodes with a side on which the flows add up beyond the ordinary numbers: no
total is taken after that one. -/
def overflowingFlow? (d : Diagram α) : List NodeId → Recorded α (Option String)
  | [] => return none
  | id :: rest => do
    let leaving ← (d.total .outgoing id).take
    if Scalar.isFinite leaving then
      let entering ← (d.total .incoming id).take
      if Scalar.isFinite entering then
        overflowingFlow? d rest
      else return some (d.node id).name
    else return some (d.node id).name

/-- A node with its value. -/
def valued (d : Diagram α) (id : NodeId) : Recorded α (Node α) := do
  let leaving ← (d.total .outgoing id).take
  let entering ← (d.total .incoming id).take
  return { d.node id with value := Scalar.larger leaving entering }

/-- The diagram with the values of nodes. -/
def withValues (d : Diagram α) : Recorded α (Diagram α) := do
  let nodes ← d.nodeIds.mapM (valued d)
  return { d with nodes := nodes.toArray }

/-- The mean of centers that a side of a node is pulled to. -/
def weightedCenter? (side : Side) (d : Diagram α) (id : NodeId) : Recorded α (Option α) := do
  let ids := (d.node id).linksAt side
  let total ← (d.total side id).take
  return if ids.isEmpty ∨ total ≤ 0 then none
    else some (Scalar.sum (ids.map fun l =>
      (d.node ((d.link l).farEnd side)).center * ((d.link l).value / total)))

/-- The diagram with a node pulled. -/
def pulled (side : Side) (strength : α) (d : Diagram α) (id : NodeId) :
    Recorded α (Diagram α) := do
  let n := d.node id
  match ← weightedCenter? side d id with
  | some goal => return d.setTop id (n.y + (goal - n.center) * strength)
  | none => return d

/-- The diagram with the nodes of some layers pulled, layer by layer. -/
def relaxed (side : Side) (strength : α) (layers : List (List NodeId)) (d : Diagram α) :
    Recorded α (Diagram α) :=
  layers.foldlM (fun d layer => layer.foldlM (pulled side strength) d) d

/-- A round of both passes. -/
def round (config : Config α) (strength : α) (c : Columns α) : Recorded α (Columns α) := do
  let leftward ← relaxed .outgoing strength c.layers.reverse c.diagram
  let settled := Columns.settled config { c with diagram := leftward }
  let rightward ← relaxed .incoming strength settled.layers settled.diagram
  return Columns.settled config { settled with diagram := rightward }

/-- A number of rounds; the strength given is that of the round before them. -/
def rounds (config : Config α) : Nat → α → Columns α → Recorded α (Columns α)
  | 0, _, c => return c
  | n + 1, strength, c => do
    let weaker := strength * Columns.decay
    let next ← round config weaker c
    rounds config n weaker next

/-- The diagram with everything that is computed put in. -/
def placed (config : Config α) (n : Nat) (d : Diagram α) : Recorded α (Diagram α) := do
  let valued ← withValues d
  let sized := (valued.withLayers config).withSizes config
  let columns ← rounds config n 1 (sized.columns.settled config)
  return columns.diagram.withSlots

/-! ## Results -/

variable {d e : Diagram α} {side : Side} {strength : α} {config : Config α} {c : Columns α}

/-- `overflowingFlow?` with a record has the result of the one without. -/
theorem result_overflowingFlow? (d : Diagram α) :
    (overflowingFlow? d d.nodeIds).result = d.overflowingFlow? := by
  have hfrom : ∀ ids : List NodeId, (overflowingFlow? d ids).result
      = ((ids.map d.node).find? fun n => !Scalar.isFinite (d.flow n.outgoing)
          || !Scalar.isFinite (d.flow n.incoming)).map (·.name) := by
    intro ids
    induction ids with
    | nil => rfl
    | cons id rest ih =>
      have hleaving : (d.total .outgoing id).amount = d.flow (d.node id).outgoing :=
        d.amount_total .outgoing id
      have hentering : (d.total .incoming id).amount = d.flow (d.node id).incoming :=
        d.amount_total .incoming id
      rw [overflowingFlow?, result_bind, Total.result_take, hleaving, List.map_cons,
        List.find?_cons]
      -- the links that enter are examined only if those that leave passed
      cases Scalar.isFinite (d.flow (d.node id).outgoing) with
      | false => rfl
      | true =>
        rw [if_pos rfl, result_bind, Total.result_take, hentering]
        cases Scalar.isFinite (d.flow (d.node id).incoming) with
        | false => rfl
        | true => exact ih
  rw [hfrom, Diagram.overflowingFlow?, d.map_node_nodeIds]

/-- `withValues` with a record has the result of the one without. -/
theorem result_withValues (d : Diagram α) : (withValues d).result = d.withValues := by
  have hvalued : (fun id => (valued d id).result) = (fun n : Node α =>
      { n with value := Scalar.larger (d.flow n.outgoing) (d.flow n.incoming) }) ∘ d.node := rfl
  rw [withValues, result_bind, result_mapM, result_pure, Diagram.withValues, hvalued,
    ← List.map_map, d.map_node_nodeIds, ← Array.toList_map, Array.toArray_toList]

/-- `weightedCenter?` with a record has the result of the one without. -/
theorem result_weightedCenter? (id : NodeId) :
    (weightedCenter? side d id).result = d.weightedCenter? side ((d.node id).linksAt side) := rfl

/-- `pulled` with a record has the result of the one without. -/
theorem result_pulled (id : NodeId) :
    (pulled side strength d id).result = d.pulled side strength id := by
  rw [pulled, Diagram.pulled, result_bind, result_weightedCenter?]
  cases d.weightedCenter? side ((d.node id).linksAt side) with
  | none => rfl
  | some goal => rfl

/-- `relaxed` with a record has the result of the one without. -/
theorem result_relaxed (layers : List (List NodeId)) :
    (relaxed side strength layers d).result = d.relaxed side strength layers := by
  simp only [relaxed, result_foldlM, result_pulled, Diagram.relaxed]

/-- `round` with a record has the result of the one without. -/
theorem result_round : (round config strength c).result = c.round config strength := by
  simp only [round, result_bind, result_relaxed, result_pure]
  rfl

/-- `rounds` with a record has the result of `Columns.relaxed`. -/
theorem result_rounds (n : Nat) :
    (rounds config n strength c).result = c.relaxed config n strength := by
  induction n generalizing strength c with
  | zero => rfl
  | succ n ih => rw [rounds, result_bind, ih, result_round, Columns.relaxed]

/-- **`placed` with a record has the result of the one without.** -/
theorem result_placed (config : Config α) (n : Nat) (d : Diagram α) :
    (placed config n d).result = d.placed config n := by
  rw [placed, result_bind, result_withValues, result_bind, result_rounds, result_pure]
  rfl

end Recorded

/-! ## What stages keep of totals -/

namespace Diagram

variable {d e : Diagram α}

/-- `total` is the same in a diagram that is redrawn with links in the same order. -/
theorem Redraws.total_eq (h : e.Redraws d)
    (hlinks : ∀ side id, (e.node id).linksAt side = (d.node id).linksAt side) :
    e.total = d.total := by
  funext side id
  rw [total, total, hlinks, List.map_congr_left fun l _ => h.value_link l]

/-- Diagrams with one `flattened` have the same totals. -/
theorem total_of_flattened (h : e.flattened = d.flattened) : e.total = d.total :=
  (redraws_of_flattened h).total_eq (linksAt_of_flattened h)

/-- The diagram whose columns are formed has the totals of `d`. -/
theorem total_sized (d : Diagram α) (config : Config α) :
    ((d.withValues.withLayers config).withSizes config).total = d.total := by
  have hvalues := d.redraws_withValues.total_eq d.linksAt_withValues
  have hlayers := (d.withValues.redraws_withLayers config).total_eq
    (d.withValues.linksAt_withLayers config)
  have hsizes := ((d.withValues.withLayers config).redraws_withSizes config).total_eq
    ((d.withValues.withLayers config).linksAt_withSizes config)
  rw [hsizes, hlayers, hvalues]

/-- The diagram whose columns are formed has the nodes of `d`. -/
theorem nodeIds_sized (d : Diagram α) (config : Config α) :
    ((d.withValues.withLayers config).withSizes config).nodeIds = d.nodeIds := by
  have hdraw := (((d.withValues.withLayers config).redraws_withSizes config).trans
    (d.withValues.redraws_withLayers config)).trans d.redraws_withValues
  exact hdraw.nodeIds

end Diagram

/-! ## Records -/

/-- Columns that arrange `d` hold each of `d.nodeIds` once. -/
theorem Columns.Arranges.flatten_layers_perm {c : Columns α} {d : Diagram α} (h : c.Arranges d) :
    c.layers.flatten.Perm d.nodeIds := by
  rw [← (Diagram.redraws_of_flattened h.flattened).nodeIds]
  exact h.flatten_perm

namespace Recorded

variable {d e : Diagram α} {side : Side} {strength : α} {config : Config α} {c : Columns α}

/-- `overflowingFlow?` takes all of `d.totals` if none is beyond the ordinary numbers. -/
theorem totals_overflowingFlow? (h : d.overflowingFlow? = none) :
    (overflowingFlow? d d.nodeIds).totals = d.totals := by
  have hfinite := Diagram.overflowingFlow?_eq_none_iff.1 h
  -- by induction on the nodes: no total ends the search, so that all are taken
  have hfrom : ∀ ids : List NodeId, (∀ id ∈ ids, d.hasNode id) → (overflowingFlow? d ids).totals
      = ids.flatMap fun id => [d.total .outgoing id, d.total .incoming id] := by
    intro ids hids
    induction ids with
    | nil => rfl
    | cons id rest ih =>
      rw [List.forall_mem_cons] at hids
      have hleaving : Scalar.isFinite (d.total .outgoing id).amount := (hfinite id hids.1).1
      have hentering : Scalar.isFinite (d.total .incoming id).amount := (hfinite id hids.1).2
      rw [overflowingFlow?, totals_bind, Total.result_take, if_pos hleaving, totals_bind,
        Total.result_take, if_pos hentering, ih hids.2]
      rfl
  exact hfrom d.nodeIds fun id => Diagram.mem_nodeIds.1

/-- `withValues` takes `d.totals`. -/
theorem totals_withValues (d : Diagram α) : (withValues d).totals = d.totals := by
  rw [withValues, totals_bind, totals_mapM, totals_pure, List.append_nil]
  rfl

/-- `pulled` takes one total of its node. -/
theorem totals_pulled (id : NodeId) : (pulled side strength d id).totals = [d.total side id] := by
  have hcenter : (weightedCenter? side d id).totals = [d.total side id] := rfl
  rw [pulled, totals_bind, hcenter, result_weightedCenter?]
  cases d.weightedCenter? side ((d.node id).linksAt side) with
  | none => rfl
  | some goal => rfl

/-- The nodes of a layer are pulled with one total each, as it was before any was moved. -/
theorem totals_layer (h : e.flattened = d.flattened) (layer : List NodeId) :
    (layer.foldlM (pulled side strength) e).totals = layer.map (d.total side) := by
  rw [List.map_eq_flatMap]
  refine totals_foldlM (p := fun f => f.flattened = d.flattened) (fun f id hf => ⟨?_, ?_⟩) layer h
  · rw [totals_pulled, Diagram.total_of_flattened hf]
  · rw [result_pulled, Diagram.flattened_pulled, hf]

/-- Pulling the nodes of a layer changes nothing that `flattened` shows. -/
theorem flattened_layer (layer : List NodeId) :
    (layer.foldlM (pulled side strength) d).result.flattened = d.flattened := by
  rw [result_foldlM]
  simp only [result_pulled]
  exact Diagram.flattened_foldl (Diagram.flattened_pulled side strength) layer d

/-- `relaxed` takes one total of each node of its layers, in order. -/
theorem totals_relaxed (h : e.flattened = d.flattened) (layers : List (List NodeId)) :
    (relaxed side strength layers e).totals = layers.flatten.map (d.total side) := by
  have hlayer : ∀ (f : Diagram α) (layer : List NodeId), f.flattened = d.flattened →
      (layer.foldlM (pulled side strength) f).totals = layer.map (d.total side) ∧
        (layer.foldlM (pulled side strength) f).result.flattened = d.flattened :=
    fun f layer hf => ⟨totals_layer hf layer, (flattened_layer layer).trans hf⟩
  rw [relaxed, totals_foldlM hlayer layers h, List.map_flatten]
  rfl

/-- `round` takes the totals at one side of all nodes, and then at the other. -/
theorem totals_round (h : c.Arranges d) :
    (round config strength c).totals = c.layers.reverse.flatten.map (d.total .outgoing)
      ++ ((c.relaxedLeftward strength).settled config).layers.flatten.map (d.total .incoming) := by
  have hsettled := (h.relaxedLeftward strength).settled config
  have hleft : (relaxed .outgoing strength c.layers.reverse c.diagram).totals
      = c.layers.reverse.flatten.map (d.total .outgoing) := totals_relaxed h.flattened _
  have hright : (relaxed .incoming strength ((c.relaxedLeftward strength).settled config).layers
        ((c.relaxedLeftward strength).settled config).diagram).totals
      = ((c.relaxedLeftward strength).settled config).layers.flatten.map (d.total .incoming) :=
    totals_relaxed hsettled.flattened _
  rw [← hleft, ← hright]
  simp only [round, totals_bind, result_relaxed, totals_pure, List.append_nil]
  rfl

/-- `round` takes `d.totals`, in some order. -/
theorem totals_round_perm (h : c.Arranges d) : (round config strength c).totals.Perm d.totals := by
  have hleft : c.layers.reverse.flatten.Perm d.nodeIds :=
    (List.reverse_perm c.layers).flatten.trans h.flatten_layers_perm
  have hright := ((h.relaxedLeftward strength).settled config).flatten_layers_perm
  rw [totals_round h]
  exact ((hleft.map _).append (hright.map _)).trans d.totals_perm

/-- `rounds` takes `d.totals` once in each round. -/
theorem totals_rounds_perm (h : c.Arranges d) (n : Nat) :
    (rounds config n strength c).totals.Perm (List.replicate n d.totals).flatten := by
  induction n generalizing strength c with
  | zero => exact .refl _
  | succ n ih =>
    have hnext : (c.round config (strength * Columns.decay)).Arranges d :=
      (((h.relaxedLeftward _).settled config).relaxedRightward _).settled config
    rw [rounds, totals_bind, result_round, List.replicate_succ, List.flatten_cons]
    exact (totals_round_perm h).append (ih hnext)

/-- **`placed` takes `d.totals` once for values, and once more in each round.** -/
theorem totals_placed_perm (config : Config α) (n : Nat) (d : Diagram α) :
    (placed config n d).totals.Perm (List.replicate (n + 1) d.totals).flatten := by
  have hcolumns := (Columns.Arranges.columns
    ((d.withValues.withLayers config).withSizes config)).settled config
  have hsized : ((d.withValues.withLayers config).withSizes config).totals = d.totals := by
    rw [Diagram.totals, d.nodeIds_sized, d.total_sized, Diagram.totals]
  have hrounds : (rounds config n 1 _).totals.Perm _ := totals_rounds_perm hcolumns n
  rw [hsized] at hrounds
  rw [placed, totals_bind, totals_withValues, totals_bind, result_withValues, totals_pure,
    List.append_nil, List.replicate_succ, List.flatten_cons]
  exact hrounds.append_left d.totals

end Recorded

/-! ## Amounts -/

namespace Diagram

variable {d : Diagram α} {names : List String} {flows : List (Flow α)}

/-- The value of a node is the larger of its two totals. -/
theorem value_placed (d : Diagram α) (config : Config α) (rounds : Nat) {id : NodeId}
    (hid : d.hasNode id) : ((d.placed config rounds).node id).value
      = Scalar.larger (d.total .outgoing id).amount (d.total .incoming id).amount := by
  have hcolumns := congrArg (fun e => (e.node id).value)
    ((d.withValues.withLayers config).flattened_withColumns config rounds)
  have hlayered : (d.withValues.withLayers config).hasNode id := by
    rw [hasNode_withLayers, d.redraws_withValues.hasNode, hid]
  simp only [node_flattened] at hcolumns
  rw [placed, node_withSlots, hcolumns, node_withSizes _ config hlayered, value_withLayers,
    node_withValues d hid]
  rfl

/-- The links of `ofFlows` carry amounts. -/
theorem isAmount_link (hadd : ∀ a b : α, ¬a < 0 → ¬b < 0 → ¬a + b < 0)
    (h : ofFlows names flows = .ok d) {l : LinkId} (hl : d.hasLink l) :
    Scalar.IsAmount (d.link l).value := by
  obtain ⟨-, resolved, intake, hresolve, htake, rfl, -⟩ := ofFlows_eq_ok_iff.1 h
  have hamounts : intake.Amounts := .of_resolveAll hadd hresolve htake
  rw [hasLink_iff] at hl
  rw [link_of_lt _ hl]
  exact hamounts _ (by simp [Intake.diagram])

end Diagram

/-! ## Totals of words -/

namespace Binary64

/-- `¬Scalar.sum xs < 0` for words that are not below zero, however it is rounded. -/
theorem not_sum_lt_zero {xs : List Binary64} (h : ∀ x ∈ xs, ¬x < 0) : ¬Scalar.sum xs < 0 := by
  induction xs using List.reverseRecOn with
  | nil => decide
  | append_singleton xs x ih =>
    rw [Scalar.sum_append_singleton]
    exact not_add_lt_zero (ih fun y hy => h y (List.mem_append_left _ hy)) (h x (by simp))

/-- An amount is not below zero. -/
theorem zero_le_of_isAmount {x : Binary64} (h : Scalar.IsAmount x) : 0 ≤ x := by
  have hnan : ¬x.isNaN := not_isNaN_of_isFinite h.1
  have hzero : ¬(0 : Binary64).isNaN := by decide
  by_contra hle
  rcases (not_le_iff 0 x).1 hle with h0 | hx | hlt
  · exact hzero h0
  · exact hnan hx
  · exact h.2 hlt

end Binary64

namespace Diagram

variable {d : Diagram Binary64} {names : List String} {flows : List (Flow Binary64)}

/-- The totals of `ofFlows` are amounts. -/
theorem isAmount_total (h : ofFlows names flows = .ok d) {id : NodeId} (hid : d.hasNode id)
    (side : Side) : Scalar.IsAmount (d.total side id).amount := by
  have hexamined : d.overflowingFlow? = none := by
    obtain ⟨-, resolved, intake, -, -, rfl, hnone⟩ := ofFlows_eq_ok_iff.1 h
    exact hnone
  have hfinite := overflowingFlow?_eq_none_iff.1 hexamined id hid
  constructor
  · cases side with
    | outgoing => exact hfinite.1
    | incoming => exact hfinite.2
  · refine Binary64.not_sum_lt_zero fun x hx => ?_
    obtain ⟨l, hl, rfl⟩ := List.mem_map.1 hx
    have hwf := (wellFormed_ofFlows h).2.1
    have hlink := ((hwf.mem_linksAt side id l).1 hl).1
    exact (isAmount_link (fun _ _ => Binary64.not_add_lt_zero) h hlink).2

/-- What a layout adds up is what was examined when flows were taken in. -/
structure AddsUpAsExamined (d : Diagram Binary64) (config : Config Binary64) (rounds : Nat) :
    Prop where
  /-- Examined were the totals at both sides of all nodes, and none was found to be infinite. -/
  examined : Recorded.overflowingFlow? d d.nodeIds = ⟨none, d.totals⟩
  /-- The layout that keeps a record is the layout. -/
  result : (Recorded.placed config rounds d).result = d.placed config rounds
  /-- The layout takes just the totals that were examined: the same values in the same order, at
  each side of each node once for the value of the node and once in every round. -/
  perm : (Recorded.placed config rounds d).totals.Perm
    (List.replicate (rounds + 1) d.totals).flatten
  /-- Every total of the layout was examined, is an ordinary number, and is not below zero. -/
  total : ∀ t ∈ (Recorded.placed config rounds d).totals,
    t ∈ (Recorded.overflowingFlow? d d.nodeIds).totals ∧ Scalar.isFinite t.amount ∧ 0 ≤ t.amount
  /-- The values of nodes are ordinary numbers that are not below zero. -/
  value : ∀ id, d.hasNode id → Scalar.isFinite ((d.placed config rounds).node id).value ∧
    0 ≤ ((d.placed config rounds).node id).value

/-- **Every total that the layout of `ofFlows` takes, for the values of nodes as for pulls in any
round, is a total that `overflowingFlow?` examined when the flows were taken in**: that of the same
side of the same node, with the same values in the same order. So it is an ordinary number that is
not below zero, and so is the value of every node. -/
theorem ofFlows_addsUpAsExamined (h : ofFlows names flows = .ok d) (config : Config Binary64)
    (rounds : Nat) : d.AddsUpAsExamined config rounds := by
  have hnone : d.overflowingFlow? = none := by
    obtain ⟨-, resolved, intake, -, -, rfl, hnone⟩ := ofFlows_eq_ok_iff.1 h
    exact hnone
  have hexamined : Recorded.overflowingFlow? d d.nodeIds = ⟨none, d.totals⟩ :=
    congrArg₂ Recorded.mk ((Recorded.result_overflowingFlow? d).trans hnone)
      (Recorded.totals_overflowingFlow? hnone)
  have hperm := Recorded.totals_placed_perm config rounds d
  refine ⟨hexamined, Recorded.result_placed config rounds d, hperm, fun t ht => ?_,
    fun id hid => ?_⟩
  · -- each total of the layout is one of those that were examined
    have hmem : t ∈ d.totals := by
      obtain ⟨copy, hcopy, ht⟩ := List.mem_flatten.1 (hperm.mem_iff.1 ht)
      rwa [List.eq_of_mem_replicate hcopy] at ht
    obtain ⟨id, hid, side, rfl⟩ := mem_totals.1 hmem
    have hamount := isAmount_total h hid side
    exact ⟨by rwa [hexamined], hamount.1, Binary64.zero_le_of_isAmount hamount⟩
  · -- the larger of two totals is one of them
    have hamount : Scalar.IsAmount ((d.placed config rounds).node id).value := by
      rw [d.value_placed config rounds hid, Scalar.larger]
      have houtgoing := isAmount_total h hid .outgoing
      have hincoming := isAmount_total h hid .incoming
      split
      · exact hincoming
      · split
        · exact houtgoing
        · exact hincoming
    exact ⟨hamount.1, Binary64.zero_le_of_isAmount hamount⟩

/-- Two flows from the first node, one more beside the first of them, and one on from its end. -/
def mergingFlows : List (Flow Binary64) :=
  [⟨.named "a", .named "b", 0.1⟩, ⟨.named "a", .named "c", 0.2⟩, ⟨.named "a", .named "b", 0.3⟩,
    ⟨.named "b", .named "c", 0.7⟩]

/-- In `mergingFlows`, the link that absorbs a flow after another was put beside it stays the first
that is added. -/
theorem ofFlows_addsUpAsExamined_merging :
    ∃ d, ofFlows ["a", "b", "c"] mergingFlows = .ok d ∧
      d.totals = [⟨⟨0⟩, .outgoing, [0.4, 0.2]⟩, ⟨⟨0⟩, .incoming, []⟩, ⟨⟨1⟩, .outgoing, [0.7]⟩,
        ⟨⟨1⟩, .incoming, [0.4]⟩, ⟨⟨2⟩, .outgoing, []⟩, ⟨⟨2⟩, .incoming, [0.2, 0.7]⟩] ∧
      (Recorded.placed .standard 2 d).totals.length = 18 ∧ d.AddsUpAsExamined .standard 2 := by
  have htotals : (ofFlows ["a", "b", "c"] mergingFlows).map totals
      = .ok [⟨⟨0⟩, .outgoing, [0.4, 0.2]⟩, ⟨⟨0⟩, .incoming, []⟩, ⟨⟨1⟩, .outgoing, [0.7]⟩,
        ⟨⟨1⟩, .incoming, [0.4]⟩, ⟨⟨2⟩, .outgoing, []⟩, ⟨⟨2⟩, .incoming, [0.2, 0.7]⟩] := by
    decide +kernel
  cases hflows : ofFlows ["a", "b", "c"] mergingFlows with
  | error reason =>
    rw [hflows] at htotals
    cases htotals
  | ok d =>
    rw [hflows] at htotals
    have htotals := Except.ok.inj htotals
    have hadds := ofFlows_addsUpAsExamined hflows .standard 2
    refine ⟨d, rfl, htotals, ?_, hadds⟩
    rw [hadds.perm.length_eq, htotals]
    rfl

end Diagram

end SankeyDiagram
