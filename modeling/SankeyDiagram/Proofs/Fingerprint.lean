import SankeyDiagram.Fingerprint
import SankeyDiagram.Proofs.Arena
import SankeyDiagram.Proofs.Quantum
import SankeyDiagram.Proofs.Readers

/-! # What fingerprints keep

A fingerprint is the digest of the text of an outline. The text keeps the whole outline, and the
outline keeps everything but what is smaller than a quantum. The converse does not hold: settings
that differ by less than a quantum may have different outlines, and different fingerprints.

* **`Json.bytes_inj`** the text of a value without floating-point numbers tells the value.
* **`Diagram.Alike`** diagrams with the same links between the same nodes whose measures are
  related; **`Diagram.outline_eq_iff`** outlines are equal iff all measures have the same quanta.
* **`Diagram.bytes_outline`** diagrams with one text differ by less than a quantum.
* **`Config.Near`** settings that differ by less than a quantum; **`Config.bytes_of_near`** they
  have one text, and so one fingerprint, iff no bound between quanta is between them;
  **`Config.fingerprint_ne_nudged`** sometimes there is one. -/

namespace SankeyDiagram

/-! ## Texts without floating-point numbers -/

/-- `NumberText.ofInt` is injective. -/
theorem NumberText.ofInt_injective : Function.Injective ofInt := by
  intro m n h
  rw [ofInt, ofInt] at h
  injection h with hsign hdigits
  have hsize := congrArg value hdigits
  rw [value_digitChars, value_digitChars] at hsize
  rw [decide_eq_decide] at hsign
  omega

namespace Json

/-- No floating-point number is inside of a value. -/
def Wordless (j : Json) : Prop := ∀ x, .float x ∉ j.leaves

/-- A whole number is `Wordless`. -/
theorem wordless_int (n : Int) : (int n).Wordless := by simp [Wordless, leaves]

/-- A text is `Wordless`. -/
theorem wordless_text (s : String) : (text s).Wordless := by simp [Wordless, leaves]

/-- A floating-point number is not `Wordless`. -/
theorem not_wordless_float (x : Binary64) : ¬(float x).Wordless := by simp [Wordless, leaves]

/-- A list is `Wordless` iff its items are. -/
theorem wordless_list_iff {items : List Json} :
    (list items).Wordless ↔ ∀ item ∈ items, item.Wordless := by
  simp only [Wordless, leaves, mem_itemLeaves]
  constructor
  · intro h item hitem x hx
    exact h x ⟨item, hitem, hx⟩
  · rintro h x ⟨item, hitem, hx⟩
    exact h item hitem x hx

/-- An object is `Wordless` iff the values of its members are. -/
theorem wordless_object_iff {members : List (String × Json)} :
    (object members).Wordless ↔ ∀ member ∈ members, member.2.Wordless := by
  simp only [Wordless, leaves, mem_memberLeaves]
  constructor
  · intro h member hmember x hx
    exact h x ⟨member, hmember, hx⟩
  · rintro h x ⟨member, hmember, hx⟩
    exact h member hmember x hx

end Json

namespace Draft

open Json

mutual

/-- `Draft.ofJson` is injective on `Wordless` values. -/
theorem eq_of_ofJson : ∀ {j k : Json}, j.Wordless → k.Wordless → ofJson j = ofJson k → j = k
  | .float x, _, hj, _, _ => absurd hj (not_wordless_float x)
  | _, .float x, _, hk, _ => absurd hk (not_wordless_float x)
  | .null, .null, _, _, _ => rfl
  | .bool _, .bool _, _, _, h => by
    injection h with h
    rw [h]
  -- drafts of two kinds differ, and those of one kind differ as the values do
  | .int _, .int _, _, _, h => by
    injection h with h
    rw [NumberText.ofInt_injective h]
  | .text _, .text _, _, _, h => by
    injection h with h
    rw [Option.some.inj h]
  | .list items, .list others, hj, hk, h => by
    injection h with h
    rw [eq_of_ofItems (wordless_list_iff.1 hj) (wordless_list_iff.1 hk) h]
  | .object members, .object others, hj, hk, h => by
    injection h with h
    rw [eq_of_ofMembers (wordless_object_iff.1 hj) (wordless_object_iff.1 hk) h]

/-- `Draft.ofItems` is injective on `Wordless` values. -/
theorem eq_of_ofItems : ∀ {items others : List Json}, (∀ item ∈ items, item.Wordless) →
    (∀ item ∈ others, item.Wordless) → ofItems items = ofItems others → items = others
  | [], [], _, _, _ => rfl
  | item :: items, other :: others, hitems, hothers, h => by
    rw [List.forall_mem_cons] at hitems hothers
    injection h with hfirst hrest
    rw [eq_of_ofJson hitems.1 hothers.1 hfirst, eq_of_ofItems hitems.2 hothers.2 hrest]

/-- `Draft.ofMembers` is injective on `Wordless` values. -/
theorem eq_of_ofMembers : ∀ {members others : List (String × Json)},
    (∀ member ∈ members, member.2.Wordless) → (∀ member ∈ others, member.2.Wordless) →
      ofMembers members = ofMembers others → members = others
  | [], [], _, _, _ => rfl
  | (name, value) :: members, (other, result) :: others, hmembers, hothers, h => by
    rw [List.forall_mem_cons] at hmembers hothers
    injection h with hfirst hrest
    injection hfirst with hname hvalue
    have hvalue : value = result := eq_of_ofJson hmembers.1 hothers.1 hvalue
    rw [Option.some.inj hname, hvalue, eq_of_ofMembers hmembers.2 hothers.2 hrest]

end

end Draft

namespace Json

variable {j k : Json}

/-- The bytes of the text of a value. -/
def bytes (value : Json) : ByteArray := value.compact.toUTF8

/-- `hexDigest` digests the `bytes` of a value. -/
theorem hexDigest_eq (value : Json) :
    value.hexDigest = Xxh64.hexText (Xxh64.digest 0 value.bytes.toList) := rfl

/-- **`j.bytes = k.bytes ↔ j = k` for `Wordless` values.** -/
theorem bytes_inj (hj : j.Wordless) (hk : k.Wordless) : j.bytes = k.bytes ↔ j = k := by
  refine ⟨fun h => ?_, congrArg bytes⟩
  have htext : j.compact = k.compact := String.toByteArray_inj.1 h
  -- reading takes both texts for the drafts of their values
  have hdraft := readText_compact Except.ok j
  rw [htext, readText_compact] at hdraft
  exact Draft.eq_of_ofJson hj hk (Except.ok.inj hdraft).symm

end Json

/-! ## Measures -/

variable {α : Type}

/-- The place and the value of a node. -/
def Node.measures (n : Node α) : List α := [n.x, n.dx, n.y, n.dy, n.value]

/-- The thickness and the slots of a link. -/
def Link.measures (l : Link α) : List α := [l.dy, l.sy, l.ty]

/-- The lengths among settings, and the curvature. -/
def Config.measures (c : Config α) : List α :=
  [c.width, c.height, c.nodeWidth, c.nodePadding, c.curvature]

/-- All places and values of a diagram. -/
def Diagram.measures (d : Diagram α) : List α :=
  d.nodes.toList.flatMap Node.measures ++ d.links.toList.flatMap Link.measures

section Outlines

variable (quantize : α → Int)

/-- Two measures have the same quanta. -/
def SameQuanta (x y : α) : Prop := quantize x = quantize y

instance : DecidableRel (SameQuanta quantize) := fun x y =>
  inferInstanceAs (Decidable (quantize x = quantize y))

variable {quantize}

/-- The outline of a node tells the quanta of its `measures`. -/
theorem Node.outline_eq_iff {m n : Node α} : m.outline quantize = n.outline quantize
    ↔ List.Forall₂ (SameQuanta quantize) m.measures n.measures := by
  simp [outline, measures, SameQuanta]

/-- The outline of a link tells its arc and the quanta of its `measures`. -/
theorem Link.outline_eq_iff {l k : Link α} : l.outline quantize = k.outline quantize
    ↔ l.arc = k.arc ∧ List.Forall₂ (SameQuanta quantize) l.measures k.measures := by
  simp [outline, measures, SameQuanta, arc, Json.nat, NodeId.index_inj, and_assoc]

/-- The outline of settings tells the rounds and the quanta of their `measures`. -/
theorem Config.outline_eq_iff {a b : Config α} : a.outline quantize = b.outline quantize
    ↔ a.iterations = b.iterations ∧
      List.Forall₂ (SameQuanta quantize) a.measures b.measures := by
  simp only [outline, Json.object.injEq, List.cons.injEq, Prod.mk.injEq, true_and, and_true,
    Json.int.injEq, Json.nat, measures, List.forall₂_cons, SameQuanta, List.forall₂_nil_right_iff,
    Nat.cast_inj]
  tauto

/-- The outline of a node reads the quanta of its `measures` alone. -/
theorem Node.outline_congr {other : α → Int} {n : Node α}
    (h : ∀ x ∈ n.measures, quantize x = other x) : n.outline quantize = n.outline other := by
  simp only [measures, List.forall_mem_cons] at h
  simp only [outline, h]

/-- The outline of a link reads the quanta of its `measures` alone. -/
theorem Link.outline_congr {other : α → Int} {l : Link α}
    (h : ∀ x ∈ l.measures, quantize x = other x) : l.outline quantize = l.outline other := by
  simp only [measures, List.forall_mem_cons] at h
  simp only [outline, h]

/-- The outline of a node is `Wordless`. -/
theorem Node.wordless_outline (n : Node α) : (n.outline quantize).Wordless := by
  simp [outline, Json.wordless_object_iff, Json.wordless_int]

/-- The outline of a link is `Wordless`. -/
theorem Link.wordless_outline (l : Link α) : (l.outline quantize).Wordless := by
  simp [outline, Json.wordless_object_iff, Json.nat, Json.wordless_int]

/-- The outline of settings is `Wordless`. -/
theorem Config.wordless_outline (c : Config α) : (c.outline quantize).Wordless := by
  simp [outline, Json.wordless_object_iff, Json.nat, Json.wordless_int, Json.wordless_text]

/-- The outline of a diagram is `Wordless`. -/
theorem Diagram.wordless_outline (d : Diagram α) : (d.outline quantize).Wordless := by
  simp [outline, Json.wordless_list_iff, Json.listOf, Json.wordless_text, Node.wordless_outline,
    Link.wordless_outline]

end Outlines

/-! ## Diagrams with one text -/

/-- `xs.toList.map f = ys.toList.map f` iff `f` agrees at each position. -/
theorem map_toList_eq_iff {β γ : Type} {xs ys : Array β} {f : β → γ} (blank : β) :
    xs.toList.map f = ys.toList.map f ↔ xs.size = ys.size ∧
      ∀ i < xs.size, f (xs.getD i blank) = f (ys.getD i blank) := by
  rw [List.ext_getElem_iff]
  simp only [List.length_map, Array.length_toList, List.getElem_map, Array.getElem_toList]
  refine and_congr_right fun hsize => ⟨fun h i hi => ?_, fun h i hi hi' => ?_⟩
  · have heq := h i hi (hsize ▸ hi)
    simpa [Array.getD, hi, hsize ▸ hi] using heq
  · have heq := h i hi
    simpa [Array.getD, hi, hi'] using heq

/-- `List.Forall₂` is weakened for the entries that there are. -/
theorem forall₂_imp_of_mem {β : Type} {same near : β → β → Prop} {xs ys : List β}
    (h : List.Forall₂ same xs ys) (himp : ∀ x ∈ xs, ∀ y ∈ ys, same x y → near x y) :
    List.Forall₂ near xs ys := by
  rw [List.forall₂_iff_zip] at h ⊢
  refine ⟨h.1, fun hmem => ?_⟩
  obtain ⟨hx, hy⟩ := List.of_mem_zip hmem
  exact himp _ hx _ hy (h.2 hmem)

namespace Diagram

/-- `d.measures` has those of all nodes. -/
theorem measures_subset_of_mem_nodes {d : Diagram α} {n : Node α} (h : n ∈ d.nodes.toList) :
    n.measures ⊆ d.measures :=
  fun _ hx => List.mem_append_left _ (List.mem_flatMap.2 ⟨n, h, hx⟩)

/-- `d.measures` has those of all links. -/
theorem measures_subset_of_mem_links {d : Diagram α} {l : Link α} (h : l ∈ d.links.toList) :
    l.measures ⊆ d.measures :=
  fun _ hx => List.mem_append_right _ (List.mem_flatMap.2 ⟨l, h, hx⟩)

/-- The outline of a diagram reads the quanta of its `measures` alone. -/
theorem outline_congr {quantize other : α → Int} {d : Diagram α}
    (h : ∀ x ∈ d.measures, quantize x = other x) : d.outline quantize = d.outline other := by
  have hnodes : d.nodes.toList.map (Node.outline quantize)
      = d.nodes.toList.map (Node.outline other) :=
    List.map_congr_left fun _ hn =>
      Node.outline_congr fun x hx => h x (measures_subset_of_mem_nodes hn hx)
  have hlinks : d.links.toList.map (Link.outline quantize)
      = d.links.toList.map (Link.outline other) :=
    List.map_congr_left fun _ hl =>
      Link.outline_congr fun x hx => h x (measures_subset_of_mem_links hl hx)
  simp only [outline, Json.listOf, hnodes, hlinks]

variable [Scalar α]

/-- `d` and `e` have the same links between the same nodes, and their measures are related by
`same`. -/
structure Alike (same : α → α → Prop) (d e : Diagram α) : Prop where
  /-- `d` has as many nodes as `e`. -/
  size_nodes : d.nodes.size = e.nodes.size
  /-- `d` has as many links as `e`. -/
  size_links : d.links.size = e.links.size
  /-- Links have the same source and the same target. -/
  arc : ∀ l, d.hasLink l → (d.link l).arc = (e.link l).arc
  /-- Places and values of nodes are related. -/
  node : ∀ id, d.hasNode id → List.Forall₂ same (d.node id).measures (e.node id).measures
  /-- Thickness and slots of links are related. -/
  link : ∀ l, d.hasLink l → List.Forall₂ same (d.link l).measures (e.link l).measures

variable {d e : Diagram α}

/-- Outlines are equal iff diagrams are `Alike` in quanta. -/
theorem outline_eq_iff {quantize : α → Int} :
    d.outline quantize = e.outline quantize ↔ d.Alike (SameQuanta quantize) e := by
  have hparts : d.outline quantize = e.outline quantize ↔
      d.nodes.toList.map (Node.outline quantize) = e.nodes.toList.map (Node.outline quantize) ∧
        d.links.toList.map (Link.outline quantize)
          = e.links.toList.map (Link.outline quantize) := by
    simp [outline, Json.listOf]
  rw [hparts, map_toList_eq_iff (.unplaced ""), map_toList_eq_iff (.unplaced ⟨0⟩ ⟨0⟩ 0 0)]
  simp only [Node.outline_eq_iff, Link.outline_eq_iff]
  constructor
  · rintro ⟨⟨hnodes, hnode⟩, hlinks, hlink⟩
    exact ⟨hnodes, hlinks, fun l hl => (hlink l.index ((d.hasLink_iff l).1 hl)).1,
      fun id hid => hnode id.index ((d.hasNode_iff id).1 hid),
      fun l hl => (hlink l.index ((d.hasLink_iff l).1 hl)).2⟩
  · intro h
    exact ⟨⟨h.size_nodes, fun i hi => h.node ⟨i⟩ ((d.hasNode_iff _).2 hi)⟩, h.size_links,
      fun i hi => ⟨h.arc ⟨i⟩ ((d.hasLink_iff _).2 hi), h.link ⟨i⟩ ((d.hasLink_iff _).2 hi)⟩⟩

/-- The `bytes` of outlines are equal iff diagrams are `Alike` in quanta. -/
theorem bytes_outline_eq_iff {quantize : α → Int} :
    (d.outline quantize).bytes = (e.outline quantize).bytes
      ↔ d.Alike (SameQuanta quantize) e := by
  rw [Json.bytes_inj d.wordless_outline e.wordless_outline, outline_eq_iff]

/-- `d.measures` has those of `d.node id`. -/
theorem measures_node_subset {id : NodeId} (hid : d.hasNode id) :
    (d.node id).measures ⊆ d.measures := by
  rw [hasNode_iff] at hid
  rw [d.node_of_lt hid]
  exact measures_subset_of_mem_nodes (by simp)

/-- `d.measures` has those of `d.link l`. -/
theorem measures_link_subset {l : LinkId} (hl : d.hasLink l) :
    (d.link l).measures ⊆ d.measures := by
  rw [hasLink_iff] at hl
  rw [d.link_of_lt hl]
  exact measures_subset_of_mem_links (by simp)

/-- `Alike` is weakened for the `measures` that there are. -/
theorem Alike.imp {same near : α → α → Prop} (h : d.Alike same e)
    (himp : ∀ x ∈ d.measures, ∀ y ∈ e.measures, same x y → near x y) : d.Alike near e where
  size_nodes := h.size_nodes
  size_links := h.size_links
  arc := h.arc
  node id hid := by
    have hid' : e.hasNode id := by rwa [hasNode, ← h.size_nodes]
    exact forall₂_imp_of_mem (h.node id hid) fun x hx y hy =>
      himp x (measures_node_subset hid hx) y (measures_node_subset hid' hy)
  link l hl := by
    have hl' : e.hasLink l := by rwa [hasLink, ← h.size_links]
    exact forall₂_imp_of_mem (h.link l hl) fun x hx y hy =>
      himp x (measures_link_subset hl hx) y (measures_link_subset hl' hy)

end Diagram

/-! ## Diagrams of words with one text -/

namespace Diagram

variable {d e : Diagram Binary64}

/-- `d.fingerprint` is of `Quantum.ofExact` where all products are words. -/
theorem fingerprint_eq_of_exact
    (h : ∀ x ∈ d.measures,
      (x * ((Quantum.perUnit : Nat) : Binary64)).toRat = x.toRat * (Quantum.perUnit : Nat)) :
    d.fingerprint = (d.outline Quantum.ofExact).hexDigest := by
  rw [fingerprint, outline_congr fun x hx => Quantum.ofBinary64_eq_ofExact (h x hx)]

/-- **The outlines of `d` and `e` have one text iff `d` and `e` have the same links between the same
nodes and all measures have the same quanta.** If quanta are `Quantum.ofExact`, and numbers are
below the limit, measures then differ by less than a quantum. -/
theorem bytes_outline (hd : ∀ x ∈ d.measures, Quantum.Moderate x)
    (he : ∀ x ∈ e.measures, Quantum.Moderate x) :
    ((d.outline Quantum.ofBinary64).bytes = (e.outline Quantum.ofBinary64).bytes ↔
      d.Alike (SameQuanta Quantum.ofBinary64) e) ∧
    ((d.outline Quantum.ofExact).bytes = (e.outline Quantum.ofExact).bytes ↔
      d.Alike (SameQuanta Quantum.ofExact) e) ∧
    ((d.outline Quantum.ofExact).bytes = (e.outline Quantum.ofExact).bytes →
      d.Alike Quantum.Near e) := by
  refine ⟨bytes_outline_eq_iff, bytes_outline_eq_iff, fun h => ?_⟩
  have hsame := bytes_outline_eq_iff.1 h
  exact hsame.imp fun x hx y hy => Quantum.near_of_ofExact (hd x hx) (he y hy)

/-- A link between two nodes, the first of which is at a height. -/
def linkedPair (y : Binary64) : Diagram Binary64 where
  nodes := #[{ Node.unplaced "a" with dx := 24, y, dy := 475, value := 2.5, outgoing := [⟨0⟩] },
    { Node.unplaced "b" with layer := 1, x := 476, dx := 24, dy := 475, value := 2.5,
                             incoming := [⟨0⟩] }]
  links := #[{ Link.unplaced ⟨0⟩ ⟨1⟩ 2.5 0 with dy := 475 }]
  circularLinks := []
  roots := [⟨0⟩]
  layerCount := 2
  warnings := []

/-- Heights on either side of zero with one text. -/
theorem bytes_outline_linkedPair :
    linkedPair 4e-7 ≠ linkedPair (-4e-7) ∧
      ((linkedPair 4e-7).outline Quantum.ofExact).bytes
        = ((linkedPair (-4e-7)).outline Quantum.ofExact).bytes ∧
      (linkedPair 4e-7).Alike Quantum.Near (linkedPair (-4e-7)) := by
  have hquanta : Quantum.ofExact 4e-7 = Quantum.ofExact (-4e-7) := by decide +kernel
  have hbytes : ((linkedPair 4e-7).outline Quantum.ofExact).bytes
      = ((linkedPair (-4e-7)).outline Quantum.ofExact).bytes := by
    simp only [outline, linkedPair, Json.listOf, List.map_cons, Node.outline, hquanta]
  obtain ⟨-, -, hnear⟩ := bytes_outline (d := linkedPair 4e-7) (e := linkedPair (-4e-7))
    (by decide +kernel) (by decide +kernel)
  exact ⟨by decide +kernel, hbytes, hnear hbytes⟩

end Diagram

/-! ## Settings that differ by less than a quantum -/

namespace Config

variable {a b : Config Binary64}

/-- Settings of as many rounds whose measures are finite and differ by less than a quantum. -/
structure Near (a b : Config Binary64) : Prop where
  /-- `a` and `b` have the same number of rounds. -/
  iterations : a.iterations = b.iterations
  /-- All measures of `a` and `b` are finite. -/
  finite : ∀ x ∈ a.measures ++ b.measures, x.isFinite
  /-- Measures are `Quantum.Near`, less than a quantum apart. -/
  measures : List.Forall₂ Quantum.Near a.measures b.measures

instance : Decidable (a.Near b) :=
  decidable_of_iff (a.iterations = b.iterations ∧ (∀ x ∈ a.measures ++ b.measures, x.isFinite) ∧
      List.Forall₂ Quantum.Near a.measures b.measures)
    ⟨fun h => ⟨h.1, h.2.1, h.2.2⟩, fun h => ⟨h.iterations, h.finite, h.measures⟩⟩

/-- The products of two measures have no bound between them. -/
def Undivided (x y : Binary64) : Prop :=
  Quantum.Undivided (x * ((Quantum.perUnit : Nat) : Binary64)).toRat
    (y * ((Quantum.perUnit : Nat) : Binary64)).toRat

/-- Settings that are `Near` have the same quanta iff their measures are `Undivided`. -/
theorem Near.sameQuanta_iff (h : a.Near b) :
    List.Forall₂ (SameQuanta Quantum.ofBinary64) a.measures b.measures
      ↔ List.Forall₂ Undivided a.measures b.measures := by
  have hpair : ∀ x ∈ a.measures, ∀ y ∈ b.measures,
      SameQuanta Quantum.ofBinary64 x y ↔ Undivided x y := by
    intro x hx y hy
    have hxnan := Binary64.not_isNaN_of_isFinite (h.finite x (List.mem_append_left _ hx))
    have hynan := Binary64.not_isNaN_of_isFinite (h.finite y (List.mem_append_right _ hy))
    exact Quantum.ofBinary64_eq_iff hxnan hynan
  exact ⟨fun hsame => forall₂_imp_of_mem hsame fun x hx y hy => (hpair x hx y hy).1,
    fun hnone => forall₂_imp_of_mem hnone fun x hx y hy => (hpair x hx y hy).2⟩

/-- **Settings that are `Near` have one text iff all their measures are `Undivided`.** Then they
have one fingerprint; and where there is a bound, there is but one. -/
theorem bytes_of_near (h : a.Near b) :
    ((a.outline Quantum.ofBinary64).bytes = (b.outline Quantum.ofBinary64).bytes
        ↔ List.Forall₂ Undivided a.measures b.measures) ∧
      (List.Forall₂ Undivided a.measures b.measures → a.fingerprint = b.fingerprint) ∧
      List.Forall₂ (fun x y => |Quantum.ofExact x - Quantum.ofExact y| ≤ 1)
        a.measures b.measures := by
  have hbytes : (a.outline Quantum.ofBinary64).bytes = (b.outline Quantum.ofBinary64).bytes
      ↔ List.Forall₂ Undivided a.measures b.measures := by
    rw [Json.bytes_inj a.wordless_outline b.wordless_outline, outline_eq_iff, h.sameQuanta_iff,
      and_iff_right h.iterations]
  refine ⟨hbytes, fun hnone => ?_, ?_⟩
  · rw [fingerprint, fingerprint, Json.hexDigest_eq, Json.hexDigest_eq, hbytes.2 hnone]
  · refine forall₂_imp_of_mem h.measures fun x hx y hy hnear => ?_
    exact hnear.abs_ofExact_sub_le_one (h.finite x (List.mem_append_left _ hx))
      (h.finite y (List.mem_append_right _ hy))

/-- `24.0000001` and `24.0000004`: widths of nodes in one cell. -/
theorem bytes_of_near_nudged :
    ((standard.withNodeWidth 24.0000001).outline Quantum.ofBinary64).bytes
        = ((standard.withNodeWidth 24.0000004).outline Quantum.ofBinary64).bytes ∧
      List.Forall₂ Undivided (standard.withNodeWidth 24.0000001).measures
        (standard.withNodeWidth 24.0000004).measures ∧
      (standard.withNodeWidth 24.0000001).fingerprint
        = (standard.withNodeWidth 24.0000004).fingerprint := by
  have hnear : (standard.withNodeWidth 24.0000001).Near (standard.withNodeWidth 24.0000004) := by
    decide +kernel
  have hbytes : ((standard.withNodeWidth 24.0000001).outline Quantum.ofBinary64).bytes
      = ((standard.withNodeWidth 24.0000004).outline Quantum.ofBinary64).bytes :=
    congrArg Json.bytes (outline_eq_iff.2 ⟨rfl, by decide +kernel⟩)
  obtain ⟨hiff, hsame, -⟩ := bytes_of_near hnear
  exact ⟨hbytes, hiff.1 hbytes, hsame (hiff.1 hbytes)⟩

/-- **`24.0000004` and `24.0000006`: widths of nodes a fifth of a quantum apart on either side of a
bound.** Their fingerprints differ. -/
theorem fingerprint_ne_nudged :
    (standard.withNodeWidth 24.0000004).Near (standard.withNodeWidth 24.0000006) ∧
      (standard.withNodeWidth 24.0000004).fingerprint
        ≠ (standard.withNodeWidth 24.0000006).fingerprint := by
  decide +kernel

end Config

end SankeyDiagram
