import Mathlib.Data.List.Nodup
import SankeyDiagram.Proofs.Drafting

/-! # Readers that undo writers

When a reader gives back what was written, for single values and for readers that are made of
readers.

* **`Json.Legible`** nothing is lost in the text of a value.
* **`Undoes`** a reader gives back every value whose written form is legible.
* **`Record.read_ofMembers`** a record is read from members in the order of its parts.
* **`Undoes.readText`** what a reader gives back from drafts it gives back from text. -/

namespace SankeyDiagram

/-! ## Values that are written without loss -/

/-- A word is read back from its own text. A word that is not finite is not: its text is that of
no value. -/
def Binary64.ReadsBack (x : Binary64) : Prop :=
  readText Draft.float (Json.float x).compact = .ok x

instance (x : Binary64) : Decidable x.ReadsBack :=
  inferInstanceAs (Decidable (_ = _))

/-- A word `ReadsBack` iff it is finite and `float?` of its text gives it. -/
theorem Binary64.readsBack_iff (x : Binary64) :
    x.ReadsBack ↔ x.isFinite ∧ (NumberText.ofWord x).float? = some x := by
  rw [ReadsBack, readText_compact, Draft.ofJson]
  cases x.isFinite with
  | false => exact ⟨fun h => (by cases h), fun h => (by cases h.1)⟩
  | true =>
    show Draft.float (.number _) = _ ↔ _
    rw [Draft.float]
    cases (NumberText.ofWord x).float? <;> simp

namespace Json

mutual

/-- The values inside of a value that hold no others. -/
def leaves : Json → List Json
  | .list items => itemLeaves items
  | .object members => memberLeaves members
  | leaf => [leaf]

/-- The leaves of items. -/
def itemLeaves : List Json → List Json
  | [] => []
  | item :: rest => item.leaves ++ itemLeaves rest

/-- The leaves of members. -/
def memberLeaves : List (String × Json) → List Json
  | [] => []
  | (_, value) :: rest => value.leaves ++ memberLeaves rest

end

/-- The words inside of a value. -/
def floats (j : Json) : List Binary64 :=
  j.leaves.filterMap fun
    | .float x => some x
    | _ => none

/-- The whole numbers inside of a value. -/
def ints (j : Json) : List Int :=
  j.leaves.filterMap fun
    | .int n => some n
    | _ => none

/-- `floats` are the words among the leaves. -/
theorem mem_floats {x : Binary64} {j : Json} : x ∈ j.floats ↔ .float x ∈ j.leaves := by
  rw [floats, List.mem_filterMap]
  constructor
  · rintro ⟨leaf, hleaf, hx⟩
    cases leaf with
    | float y => exact Option.some.inj hx ▸ hleaf
    | null | bool | int | text | list | object => cases hx
  · exact fun h => ⟨_, h, rfl⟩

/-- `ints` are the whole numbers among the leaves. -/
theorem mem_ints {n : Int} {j : Json} : n ∈ j.ints ↔ .int n ∈ j.leaves := by
  rw [ints, List.mem_filterMap]
  constructor
  · rintro ⟨leaf, hleaf, hn⟩
    cases leaf with
    | int m => exact Option.some.inj hn ▸ hleaf
    | null | bool | float | text | list | object => cases hn
  · exact fun h => ⟨_, h, rfl⟩

/-- The text of a value loses nothing: every word in it `ReadsBack`, and every whole number fits 64
bits. -/
def Legible (j : Json) : Prop :=
  (∀ x ∈ j.floats, x.ReadsBack) ∧ ∀ n ∈ j.ints, n < Decimal.capacity

instance (j : Json) : Decidable j.Legible :=
  inferInstanceAs (Decidable (_ ∧ _))

/-- `itemLeaves` are the leaves of the items. -/
theorem mem_itemLeaves {leaf : Json} {items : List Json} :
    leaf ∈ itemLeaves items ↔ ∃ item ∈ items, leaf ∈ item.leaves := by
  induction items with
  | nil => simp [itemLeaves]
  | cons item rest ih => simp [itemLeaves, ih]

/-- `memberLeaves` are the leaves of the members. -/
theorem mem_memberLeaves {leaf : Json} {members : List (String × Json)} :
    leaf ∈ memberLeaves members ↔ ∃ member ∈ members, leaf ∈ member.2.leaves := by
  induction members with
  | nil => simp [memberLeaves]
  | cons member rest ih =>
    rw [memberLeaves, List.mem_append, ih, List.exists_mem_cons_iff]

/-- A list is `Legible` iff its items are. -/
theorem legible_list_iff {items : List Json} :
    (list items).Legible ↔ ∀ item ∈ items, item.Legible := by
  simp only [Legible, mem_floats, mem_ints, leaves, mem_itemLeaves]
  constructor
  · rintro ⟨hfloat, hint⟩ item hitem
    exact ⟨fun x hx => hfloat x ⟨item, hitem, hx⟩, fun n hn => hint n ⟨item, hitem, hn⟩⟩
  · intro h
    refine ⟨?_, ?_⟩
    · rintro x ⟨item, hitem, hx⟩
      exact (h item hitem).1 x hx
    · rintro n ⟨item, hitem, hn⟩
      exact (h item hitem).2 n hn

/-- An object is `Legible` iff the values of its members are. -/
theorem legible_object_iff {members : List (String × Json)} :
    (object members).Legible ↔ ∀ member ∈ members, member.2.Legible := by
  simp only [Legible, mem_floats, mem_ints, leaves, mem_memberLeaves]
  constructor
  · rintro ⟨hfloat, hint⟩ member hmember
    exact ⟨fun x hx => hfloat x ⟨member, hmember, hx⟩, fun n hn => hint n ⟨member, hmember, hn⟩⟩
  · intro h
    refine ⟨?_, ?_⟩
    · rintro x ⟨member, hmember, hx⟩
      exact (h member hmember).1 x hx
    · rintro n ⟨member, hmember, hn⟩
      exact (h member hmember).2 n hn

/-- A `Legible` word `ReadsBack`. -/
theorem Legible.float {x : Binary64} (h : (float x).Legible) : x.ReadsBack :=
  h.1 x (List.mem_singleton_self _)

/-- A `Legible` whole number fits 64 bits. -/
theorem Legible.int {n : Int} (h : (int n).Legible) : n < Decimal.capacity :=
  h.2 n (List.mem_singleton_self _)

end Json

/-! ## Numbers that are written without loss -/

/-- `numeral?` of a whole number of 64 bits is itself. -/
theorem NumberText.numeral?_ofInt {n : Nat} (h : (n : Int) < Decimal.capacity) :
    (ofInt n).numeral? = some (.int n) := by
  have hsize : n < Nat.pow 2 64 := Int.ofNat_lt.1 h
  have hnegative : ¬ (n : Int) < 0 := by omega
  simp [ofInt, numeral?, hnegative, value_digitChars, hsize]

/-- `needAll` passes a number that denotes something. -/
theorem Draft.needAll_number {n : NumberText} {value : Numeral} (h : n.numeral? = some value)
    (depth : Nat) : needAll depth (.number n) = .ok () := by
  rw [needAll, readBreak?, h]
  rfl

/-- `needAll` passes a whole number that is `Legible`. -/
theorem Draft.needAll_nat {n : Nat} (h : (Json.nat n).Legible) (depth : Nat) :
    needAll depth (.ofJson (.nat n)) = .ok () :=
  needAll_number (NumberText.numeral?_ofInt h.int) depth

/-- `needAll` passes a word that is `Legible`. -/
theorem Draft.needAll_float {x : Binary64} (h : (Json.float x).Legible) (depth : Nat) :
    needAll depth (.ofJson (.float x)) = .ok () := by
  obtain ⟨hfinite, hfloat⟩ := (Binary64.readsBack_iff x).1 h.float
  have hnumeral : (NumberText.ofWord x).numeral? = some (.float x) := by
    simp [NumberText.numeral?, NumberText.isWhole_ofWord, hfloat]
  rw [ofJson, if_pos hfinite]
  exact needAll_number hnumeral depth

/-! ## Single values -/

/-- A reader gives back every value that is written without loss. -/
def Undoes {α : Type} (read : Draft → Except Fault α) (write : α → Json) : Prop :=
  ∀ a, (write a).Legible → read (.ofJson (write a)) = .ok a

namespace Undoes

variable {α : Type} {read : Draft → Except Fault α} {write : α → Json}

/-- **If `Undoes read write`, then `read` gives back what was written from both of its texts**,
`compact` and `pretty`. -/
theorem readText (h : Undoes read write) {a : α} (ha : (write a).Legible) :
    SankeyDiagram.readText read (write a).compact = .ok a ∧
      SankeyDiagram.readText read (write a).pretty = .ok a := by
  rw [readText_compact, readText_pretty, h a ha]
  exact ⟨rfl, rfl⟩

/-- `Draft.float` undoes `Json.float`. -/
theorem float : Undoes Draft.float .float := by
  intro x hx
  have hback := hx.float
  rwa [Binary64.ReadsBack, readText_compact] at hback

/-- `Draft.count` undoes `Json.nat`. -/
theorem count : Undoes Draft.count .nat := by
  intro n hn
  rw [Json.nat, Draft.ofJson, Draft.count, NumberText.numeral?_ofInt hn.int]
  dsimp only
  rw [if_neg (by omega), Int.toNat_natCast]

/-- `Draft.string` undoes `Json.text`. -/
theorem string : Undoes Draft.string .text :=
  fun _ _ => rfl

/-! ## Readers made of readers -/

/-- `Undoes` goes through `f` and `g` with `f (g b) = b`. -/
theorem map {β : Type} (h : Undoes read write) (f : α → β) (g : β → α) (hfg : ∀ b, f (g b) = b) :
    Undoes (fun d => f <$> read d) fun b => write (g b) := by
  intro b hb
  show f <$> read _ = _
  rw [h (g b) hb]
  exact congrArg Except.ok (hfg b)

/-- `mapM read` over drafts that `read` gives back gives back all of them. -/
theorem mapM_map_eq_ok {items : List α} {draft : α → Draft}
    (h : ∀ a ∈ items, read (draft a) = .ok a) : (items.map draft).mapM read = .ok items := by
  induction items with
  | nil => rfl
  | cons a rest ih =>
    rw [List.forall_mem_cons] at h
    rw [List.map_cons, List.mapM_cons, h.1, ih h.2]
    rfl

/-- `Draft.listOf` undoes `Json.listOf`. -/
theorem listOf (h : Undoes read write) : Undoes (Draft.listOf read) (.listOf write) := by
  intro items hitems
  have hread : (items.map fun a => Draft.ofJson (write a)).mapM read = .ok items :=
    mapM_map_eq_ok fun a ha => h a (Json.legible_list_iff.1 hitems _ (List.mem_map_of_mem ha))
  rw [Json.listOf, Draft.ofJson, Draft.ofItems_eq_map, List.map_map, Draft.listOf]
  dsimp only [Function.comp_def]
  rw [hread]
  rfl

/-- `Draft.optional read` undoes `Json.option write` if `read` refuses `null`. -/
theorem optional (h : Undoes read write) (hnull : ∀ a, read .null ≠ .ok a) :
    Undoes (Draft.optional read) (.option write) := by
  intro o ho
  cases o with
  | none => rfl
  | some a =>
    have hread := h a ho
    have hsome : Draft.ofJson (write a) ≠ .null := fun hdraft => hnull a (hdraft ▸ hread)
    rw [Json.option, Draft.optional, hread]
    · rfl
    · exact hsome

/-- `Draft.pairOf` undoes a list of two. -/
theorem pairOf (h : Undoes read write) :
    Undoes (Draft.pairOf read) fun pair : α × α => .list [write pair.1, write pair.2] := by
  intro pair hpair
  have hlegible := Json.legible_list_iff.1 hpair
  have hfirst := h pair.1 (hlegible _ List.mem_cons_self)
  have hsecond := h pair.2 (hlegible _ (List.mem_cons_of_mem _ List.mem_cons_self))
  show (read _ >>= fun a => read _ >>= fun b => .ok (a, b)) = _
  rw [hfirst]
  show (read _ >>= fun b => .ok (pair.1, b)) = _
  rw [hsecond]
  rfl

end Undoes

/-! ## Records -/

namespace Record

variable {α : Type} (r : Record α)

/-- Reads the parts of a record, each from the value that a document gives for it. -/
def readValues (fields : List (Field α)) (values : List Json) (a : α) : Except Fault α :=
  (fields.zip values).foldlM (fun a part => part.1.read (.ofJson part.2) a) a

variable {r} {members : List (String × Json)}

/-- A field is found by its name. -/
theorem find?_name (hnodup : (r.fields.map Field.name).Nodup) {field : Field α}
    (hfield : field ∈ r.fields) : r.fields.find? (·.name = field.name) = some field := by
  cases hfound : r.fields.find? (·.name = field.name) with
  | none => exact absurd (List.find?_eq_none.1 hfound field hfield) (by simp)
  | some found =>
    have hname : found.name = field.name := by simpa using List.find?_some hfound
    rw [List.inj_on_of_nodup_map hnodup (List.mem_of_find?_eq_some hfound) hfield hname]

/-- `readMembers` reads members with the names of fields, in the order of the fields, one by one. -/
theorem readMembers_ofMembers (hnodup : (r.fields.map Field.name).Nodup) {fields : List (Field α)}
    (hfields : fields.Sublist r.fields) {seen : List String}
    (hseen : ∀ field ∈ fields, field.name ∉ seen) (a : α)
    (hnames : members.map Prod.fst = fields.map Field.name) :
    r.readMembers seen a (Draft.ofMembers members)
      = Prod.mk ((fields.map Field.name).reverse ++ seen) <$>
          readValues fields (members.map Prod.snd) a := by
  -- on the parts; names that were seen are those of the parts before
  induction fields generalizing members seen a with
  | nil =>
    rw [List.map_nil, List.map_eq_nil_iff] at hnames
    rw [hnames]
    rfl
  | cons field fields ih =>
    cases members with
    | nil => cases hnames
    | cons member members =>
      obtain ⟨name, value⟩ := member
      rw [List.map_cons, List.map_cons, List.cons.injEq] at hnames
      obtain ⟨rfl, hnames⟩ := hnames
      rw [List.forall_mem_cons] at hseen
      have hnew : field.name ∉ fields.map Field.name :=
        (List.nodup_cons.1 (hnodup.sublist (hfields.map Field.name))).1
      have hseen' : ∀ other ∈ fields, other.name ∉ field.name :: seen := by
        intro other hother hmem
        rcases List.mem_cons.1 hmem with heq | hmem
        · exact hnew (heq ▸ List.mem_map_of_mem hother)
        · exact hseen.2 other hother hmem
      rw [Draft.ofMembers, readMembers, find?_name hnodup (hfields.subset List.mem_cons_self)]
      dsimp only
      rw [if_neg hseen.1]
      show (field.read (.ofJson value) a >>= fun b =>
        r.readMembers (field.name :: seen) b (Draft.ofMembers members)) = _ <$>
          (field.read (.ofJson value) a >>= fun b => readValues fields (members.map Prod.snd) b)
      cases field.read (.ofJson value) a with
      | error fault => rfl
      | ok b =>
        have hrest := ih ((List.sublist_cons_self _ _).trans hfields) hseen' b hnames
        rw [List.map_cons, List.reverse_cons, List.append_assoc, List.singleton_append]
        exact hrest

/-- **`r.read` of members in the order of `r.fields` reads each field from its member.** -/
theorem read_ofMembers (hnodup : (r.fields.map Field.name).Nodup)
    (hnames : members.map Prod.fst = r.fields.map Field.name) :
    r.read (.ofJson (.object members)) = readValues r.fields (members.map Prod.snd) r.blank := by
  rw [Draft.ofJson, read, readObject,
    readMembers_ofMembers hnodup (List.Sublist.refl _) (by simp) r.blank hnames]
  -- every field has its member
  have hmissing : r.missing? ((r.fields.map Field.name).reverse ++ []) = none := by
    rw [missing?, Option.map_eq_none_iff, List.find?_eq_none]
    intro field hfield
    have hmem : ((r.fields.map Field.name).reverse ++ []).contains field.name := by
      simpa using ⟨field, hfield, rfl⟩
    rw [hmem, Bool.not_true, Bool.and_false]
    exact Bool.false_ne_true
  cases readValues r.fields (members.map Prod.snd) r.blank with
  | error fault => rfl
  | ok a =>
    dsimp only [Functor.map, Except.map, bind, Except.bind, Draft.needEnd]
    rw [hmissing]
    rfl

end Record

/-- A part of a record with the form in which it is written. -/
structure Part (α : Type) where
  /-- How the part is read. -/
  field : Field α
  /-- How the part of a value is written. -/
  write : α → Json
  /-- Takes the part over from one value into another. -/
  take : α → α → α
  /-- What is written is taken over when it is read. -/
  read_write : ∀ a b, (write a).Legible → field.read (.ofJson (write a)) b = .ok (take a b)

/-- A part whose reader gives back what is written of it. -/
def Undoes.part {α β : Type} {read : Draft → Except Fault β} {write : β → Json}
    (h : Undoes read write) (name : String) (get : α → β) {required : Bool} {set : α → β → α} :
    Part α where
  field := ⟨name, required, fun d a => set a <$> read d⟩
  write a := write (get a)
  take a b := set b (get a)
  read_write a b ha := by
    show set b <$> read _ = _
    rw [h (get a) ha]
    rfl

/-- **`r.read` undoes the object of `parts` if these are all that there is of a value.** -/
theorem Undoes.record {α : Type} {r : Record α} (parts : List (Part α))
    (hfields : r.fields = parts.map Part.field) (hnodup : (r.fields.map Field.name).Nodup)
    (hwhole : ∀ a, parts.foldl (fun b part => part.take a b) r.blank = a) :
    Undoes r.read fun a => .object (parts.map fun part => (part.field.name, part.write a)) := by
  intro a ha
  have hlegible : ∀ part ∈ parts, (part.write a).Legible :=
    fun part hpart => Json.legible_object_iff.1 ha _ (List.mem_map_of_mem hpart)
  have hvalues : ∀ b, Record.readValues (parts.map Part.field)
      (parts.map fun part => part.write a) b
        = .ok (parts.foldl (fun b part => part.take a b) b) := by
    -- the fields are read one after another into whatever was read so far
    clear hfields hwhole ha
    induction parts with
    | nil => exact fun b => rfl
    | cons part parts ih =>
      intro b
      rw [List.forall_mem_cons] at hlegible
      show (part.field.read _ b >>= fun b => Record.readValues _ _ b) = _
      rw [part.read_write a b hlegible.1]
      exact ih hlegible.2 _
  rw [Record.read_ofMembers hnodup (by simp [hfields]), hfields, List.map_map]
  exact (hvalues r.blank).trans (congrArg Except.ok (hwhole a))

end SankeyDiagram
