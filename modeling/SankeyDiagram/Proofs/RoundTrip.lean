import SankeyDiagram.Document.Diagram
import SankeyDiagram.Document.Request
import SankeyDiagram.Proofs.Readers

/-! # Reading what was written

Documents are written and read by separate rules. Reading undoes writing, for requests, settings,
warnings and diagrams and for all that they hold, unless something is lost in a number: a word that
is not read back from its own text, or a whole number beyond 64 bits.

* **`Config.undoes`**, **`Overrides.undoes`**, **`Endpoint.undoes`**, **`Request.undoes`**,
  **`Warning.undoes`**, **`Diagram.undoes`** readers give back what was written.
* **`readText_write`** they do from both texts of a document. -/

namespace SankeyDiagram

/-! ## Settings -/

/-- Settings are given back. -/
theorem Config.undoes : Undoes Config.read Config.write :=
  .record (r := record)
    [Undoes.float.part "width" width, Undoes.float.part "height" height,
      Undoes.float.part "node_width" nodeWidth, Undoes.float.part "node_padding" nodePadding,
      Undoes.count.part "iterations" iterations, Undoes.float.part "curvature" curvature]
    rfl (by decide) fun _ => by simp [Undoes.part]

/-- `Overrides.read` undoes `Overrides.write`: values that are not set are written as no value, and
come back as not set. -/
theorem Overrides.undoes : Undoes Overrides.read Overrides.write := by
  have hfloat := Undoes.float.optional fun _ h => (by cases h)
  have hcount := Undoes.count.optional fun _ h => (by cases h)
  have hsize := Undoes.float.pairOf.optional fun _ h => (by cases h)
  exact .record (r := record)
    [hfloat.part "width" width, hfloat.part "nodeWidth" nodeWidth,
      hfloat.part "nodePadding" nodePadding, hsize.part "size" size,
      hcount.part "iterations" iterations, hfloat.part "curvature" curvature]
    rfl (by decide) fun _ => by simp [Undoes.part]

/-! ## Requests -/

/-- `NodeName.read` undoes `NodeName.write`. -/
theorem NodeName.undoes : Undoes NodeName.read NodeName.write :=
  .record (r := record) [Undoes.string.part "name" id]
    rfl (by decide) fun _ => by simp [Undoes.part]

/-- `Endpoint.read` undoes `Endpoint.write`: a position comes back as a position and a name as a
name, whatever the name is made of. -/
theorem Endpoint.undoes (depth : Nat) : Undoes (Endpoint.read depth) Endpoint.write := by
  intro e he
  cases e with
  | position index =>
    have hdraft : ofDraft? (.ofJson (.nat index)) = some (.position index) := by
      rw [Json.nat, Draft.ofJson, ofDraft?, NumberText.numeral?_ofInt he.int]
      dsimp only
      rw [if_neg (by omega), Int.toNat_natCast]
    rw [write] at he ⊢
    rw [read, Draft.needAll_nat he, hdraft]
    rfl
  | named name => rfl

/-- `Flow.read` undoes `Flow.write`. -/
theorem Flow.undoes (depth : Nat) : Undoes (Flow.read depth) Flow.write := by
  have hnodup : ((record depth).fields.map Field.name).Nodup := by
    show ["source", "target", "value"].Nodup
    decide
  exact .record (r := record depth)
    [(Endpoint.undoes (depth + 1)).part "source" source,
      (Endpoint.undoes (depth + 1)).part "target" target, Undoes.float.part "value" value]
    rfl hnodup fun _ => by simp [Undoes.part]

/-- `Request.read` undoes `Request.write`. -/
theorem Request.undoes : Undoes Request.read Request.write :=
  .record (r := record)
    [NodeName.undoes.listOf.part "nodes" names, (Flow.undoes 2).listOf.part "links" flows,
      Overrides.undoes.part "options" overrides]
    rfl (by decide) fun _ => by simp [Undoes.part]

/-! ## Diagrams -/

/-- `NodeId.read` undoes `NodeId.write`. -/
theorem NodeId.undoes : Undoes NodeId.read NodeId.write :=
  Undoes.count.map NodeId.mk NodeId.index fun _ => rfl

/-- `LinkId.read` undoes `LinkId.write`. -/
theorem LinkId.undoes : Undoes LinkId.read LinkId.write :=
  Undoes.count.map LinkId.mk LinkId.index fun _ => rfl

/-- `Node.read` undoes `Node.write`. -/
theorem Node.undoes : Undoes Node.read Node.write :=
  .record (r := record)
    [Undoes.string.part "name" name, Undoes.count.part "layer" layer, Undoes.float.part "x" x,
      Undoes.float.part "dx" dx, Undoes.float.part "y" y, Undoes.float.part "dy" dy,
      Undoes.float.part "value" value, LinkId.undoes.listOf.part "source_links" outgoing,
      LinkId.undoes.listOf.part "target_links" incoming]
    rfl (by decide) fun _ => by simp [Undoes.part]

/-- `Link.read` undoes `Link.write`. -/
theorem Link.undoes : Undoes Link.read Link.write :=
  .record (r := record)
    [NodeId.undoes.part "source" source, NodeId.undoes.part "target" target,
      Undoes.float.part "value" value, Undoes.float.part "dy" dy, Undoes.float.part "sy" sy,
      Undoes.float.part "ty" ty, Undoes.count.part "merged" fun l => l.merged.toNat,
      Undoes.count.part "input_index" inputIndex]
    rfl (by decide) fun _ => by simp [Undoes.part]

/-- `CircularLink.read` undoes `CircularLink.write`. -/
theorem CircularLink.undoes : Undoes CircularLink.read CircularLink.write :=
  .record (r := record)
    [NodeId.undoes.part "source" source, NodeId.undoes.part "target" target,
      Undoes.float.part "value" value, Undoes.count.part "input_index" inputIndex]
    rfl (by decide) fun _ => by simp [Undoes.part]

/-- The document of a layer that is too high, besides the kind. -/
def Warning.Overflow.members (o : Overflow) : List (String × Json) :=
  [("layer", .nat o.layer), ("required", .float o.required), ("available", .float o.available)]

/-- `Warning.record` undoes the members of a warning without its kind. -/
theorem Warning.Overflow.undoes : Undoes Warning.record.read fun o => .object o.members :=
  .record (r := record)
    [Undoes.count.part "layer" Overflow.layer, Undoes.float.part "required" Overflow.required,
      Undoes.float.part "available" Overflow.available]
    rfl (by decide) fun _ => by simp [Undoes.part]

/-- `readTagged` puts aside members that are not the kind. -/
theorem Warning.readTagged_ofMembers {depth : Nat} {hasKind : Bool}
    {members : List (String × Json)} (hkind : ∀ member ∈ members, member.1 ≠ "kind")
    (hneed : ∀ member ∈ members, Draft.needAll depth (.ofJson member.2) = .ok ()) :
    readTagged depth hasKind (Draft.ofMembers members)
      = .ok (hasKind, Draft.ofMembers members) := by
  induction members with
  | nil => rfl
  | cons member rest ih =>
    rw [List.forall_mem_cons] at hkind hneed
    rw [Draft.ofMembers, readTagged, if_neg hkind.1, hneed.1, ih hkind.2 hneed.2]
    rfl

/-- `Warning.read` undoes `Warning.write`. -/
theorem Warning.undoes (depth : Nat) : Undoes (Warning.read depth) Warning.write := by
  rintro ⟨layer, required, available⟩ h
  let o : Overflow := ⟨layer, required, available⟩
  have hmembers : ∀ member ∈ ("kind", .text "layer_overflow") :: o.members, member.2.Legible :=
    Json.legible_object_iff.1 h
  rw [List.forall_mem_cons] at hmembers
  have hread : record.readObject (Draft.ofMembers o.members) none = .ok o :=
    Overflow.undoes o (Json.legible_object_iff.2 hmembers.2)
  have hlegible := hmembers.2
  simp only [Overflow.members, List.forall_mem_cons] at hlegible
  obtain ⟨hlayer, hrequired, havailable, -⟩ := hlegible
  have hneed : ∀ member ∈ o.members, Draft.needAll (depth + 1) (.ofJson member.2) = .ok () := by
    simp [Overflow.members, Draft.needAll_nat hlayer, Draft.needAll_float hrequired,
      Draft.needAll_float havailable]
  -- the kind is read first, and what is put aside then are the parts of the layer
  have htagged : readTagged (depth + 1) false ((some "kind", .text (some "layer_overflow")) ::
      Draft.ofMembers o.members) = .ok (true, Draft.ofMembers o.members) :=
    readTagged_ofMembers (by simp [Overflow.members]) hneed
  show readObject (depth + 1) ((some "kind", .text (some "layer_overflow")) ::
    Draft.ofMembers o.members) none = _
  rw [readObject, htagged]
  show ofOverflow <$> record.readObject (Draft.ofMembers o.members) none = _
  rw [hread]
  rfl

/-- `Diagram.read` undoes `Diagram.write`. -/
theorem Diagram.undoes : Undoes Diagram.read Diagram.write :=
  .record (r := record)
    [Node.undoes.listOf.part "nodes" fun d => d.nodes.toList,
      Link.undoes.listOf.part "links" fun d => d.links.toList,
      CircularLink.undoes.listOf.part "circular_links" circularLinks,
      NodeId.undoes.listOf.part "roots" roots, Undoes.count.part "layer_count" layerCount,
      (Warning.undoes 2).listOf.part "warnings" warnings]
    rfl (by decide) fun _ => by simp [Undoes.part]

/-! ## Texts of documents -/

/-- `read` gives back every value from both of its texts, if these are `Legible`. -/
def RoundTrips {α : Type} (read : Draft → Except Fault α) (write : α → Json) : Prop :=
  ∀ a, (write a).Legible →
    readText read (write a).compact = .ok a ∧ readText read (write a).pretty = .ok a

/-- A reader that `Undoes` a writer makes the two round-trip, in both texts. -/
theorem Undoes.roundTrips {α : Type} {read : Draft → Except Fault α} {write : α → Json}
    (h : Undoes read write) : RoundTrips read write :=
  fun _ ha => h.readText ha

/-- **What was written is read back, by `RoundTrips`: requests and the names, flows, endpoints and
overrides in them, settings, warnings and diagrams.** -/
theorem readText_write :
    RoundTrips Request.read Request.write ∧ RoundTrips NodeName.read NodeName.write ∧
      (∀ depth, RoundTrips (Flow.read depth) Flow.write) ∧
      (∀ depth, RoundTrips (Endpoint.read depth) Endpoint.write) ∧
      RoundTrips Overrides.read Overrides.write ∧ RoundTrips Config.read Config.write ∧
      (∀ depth, RoundTrips (Warning.read depth) Warning.write) ∧
      RoundTrips Diagram.read Diagram.write :=
  ⟨Request.undoes.roundTrips, NodeName.undoes.roundTrips,
    fun depth => (Flow.undoes depth).roundTrips, fun depth => (Endpoint.undoes depth).roundTrips,
    Overrides.undoes.roundTrips, Config.undoes.roundTrips,
    fun depth => (Warning.undoes depth).roundTrips, Diagram.undoes.roundTrips⟩

/-- A name made of digits, one with characters that are escaped, and a size. -/
def labelled : Request :=
  ⟨["0", "\"\\\n\x01é"], [⟨.named "0", .position 1, 0.25⟩, ⟨.position 1, .named "0", 2e100⟩],
    { Overrides.none with size := some (600.0, 300.0) }⟩

/-- A node that its layer is too low for. -/
def crowded : Diagram Binary64 :=
  { Diagram.empty with
    nodes := #[{ Node.unplaced "a" with dy := 510.5, y := -0.125, incoming := [⟨3⟩] }]
    circularLinks := [⟨⟨0⟩, ⟨0⟩, 1e-7, 2⟩], roots := [⟨0⟩], layerCount := 1
    warnings := [.layerOverflow 0 510.5 500.0] }

/-- `labelled` and `crowded` are read back, one from each kind of text; the name `"0"` stays a name,
and the position `1` a position. -/
theorem readText_write_labelled :
    labelled.write.Legible ∧ crowded.write.Legible ∧
      readText Request.read labelled.write.compact = .ok labelled ∧
      readText Diagram.read crowded.write.pretty = .ok crowded ∧
      labelled.flows.map Flow.source = [.named "0", .position 1] := by
  have hlabelled : labelled.write.Legible := by decide +kernel
  have hcrowded : crowded.write.Legible := by decide +kernel
  obtain ⟨hrequest, -, -, -, -, -, -, hdiagram⟩ := readText_write
  exact ⟨hlabelled, hcrowded, (hrequest labelled hlabelled).1, (hdiagram crowded hcrowded).2, rfl⟩

end SankeyDiagram
