import Dataflow.Document.Encode
import Dataflow.Document.Load
import Dataflow.Proofs.Reading

/-!
# Documents are decoded back

A document that is written as JSON is decoded to the same document (`decode_encode`): a reference by
position stays a position, a reference by name a name.

For each part of a document there is a lemma that decodes the reading of its JSON. They follow the
way in which parts are put together out of scalars, lists (`list_reading`) and records, whose
members fill their slots one by one (`members_cons`, `fill_none`).
-/

namespace Dataflow

open Json (Reading Legible)

/-! ### Readings -/

namespace Json

theorem number?_ofNat {n : Nat} (h : n < UInt64.size) :
    (Numeral.ofNat n).number? = some (.integer n) := by
  simp [Numeral.number?, Numeral.ofNat, h]

theorem number?_word (i : UInt32) : (Numeral.ofNat i.toNat).number? = some (.integer i.toNat) :=
  number?_ofNat (Nat.lt_trans i.toNat_lt_size (by decide))

theorem reading_word (i : UInt32) : (nat i.toNat).reading = .number (.integer i.toNat) := by
  rw [nat, reading, number?_word]
  rfl

theorem reading_bool (b : Bool) : (bool b).reading = .bool b := by
  rw [reading]

theorem reading_string (s : String) : (string s).reading = .string s := by
  rw [reading]

theorem reading_array (vs : List Json) : (array vs).reading = .array (vs.map reading) .closed := by
  rw [reading, readings_eq]

@[simp] theorem reading_object (ms : List (String × Json)) :
    (object ms).reading = .object (ms.map fun m => (m.1, m.2.reading)) .closed := by
  rw [reading, memberReadings_eq]

end Json

namespace Decode

/-! ### Scalars and lists -/

theorem natCast_lt_size (i : UInt32) : (i.toNat : Int) < UInt32.size :=
  Int.ofNat_lt.2 i.toNat_lt_size

@[simp] theorem word_reading (i : UInt32) : word (Json.nat i.toNat).reading = .ok i := by
  rw [Json.reading_word, word, if_pos ⟨Int.natCast_nonneg _, natCast_lt_size i⟩, Int.toNat_natCast,
    UInt32.ofNat_toNat]

@[simp] theorem bool_reading (b : Bool) : bool (Json.bool b).reading = .ok b := by
  rw [Json.reading_bool, bool]

@[simp] theorem string_reading (s : String) : string (Json.string s).reading = .ok s := by
  rw [Json.reading_string, string]

/-- A position is written as a number and a name as a string, so the two are told apart. -/
@[simp] theorem reference_reading (r : ElementRef) : reference r.toJson.reading = .ok r := by
  cases r with
  | index i =>
    simp only [ElementRef.toJson, Json.reading_word, reference, Reading.fault?, noFault, bind,
      Except.bind]
    rw [if_pos ⟨Int.natCast_nonneg _, natCast_lt_size i⟩, Int.toNat_natCast, UInt32.ofNat_toNat]
  | name n =>
    rw [ElementRef.toJson, Json.reading_string]
    rfl

@[simp] theorem port_reading (p : InputPort) : port (Json.string p.name).reading = .ok p := by
  rw [Json.reading_string]
  cases p <;> rfl

theorem mapM_map_reading {α : Type} {item : Reading → Decoded α} {write : α → Json}
    (h : ∀ a, item (write a).reading = .ok a) (as : List α) :
    ((as.map write).map Json.reading).mapM item = .ok as := by
  induction as with
  | nil => rfl
  | cons a as ih =>
    rw [List.map_cons, List.map_cons, List.mapM_cons, h, ih]
    rfl

/-- A list is decoded back if each of its items is. -/
theorem list_reading {α : Type} {item : Reading → Decoded α} {write : α → Json}
    (h : ∀ a, item (write a).reading = .ok a) (as : List α) :
    list item (Json.array (as.map write)).reading = .ok as := by
  rw [Json.reading_array, list, mapM_map_reading h]
  rfl

@[simp] theorem references_reading (rs : List ElementRef) :
    list reference (ElementRef.listToJson rs).reading = .ok rs :=
  list_reading reference_reading rs

/-! ### Records -/

@[simp] theorem ok_bind {α β : Type} (a : α) (f : α → Decoded β) :
    (.ok a : Decoded α) >>= f = f a := rfl

@[simp] theorem pure_eq {α : Type} (a : α) : (pure a : Decoded α) = .ok a := rfl

@[simp] theorem fill_none {α : Type} (name : String) (decode : Reading → Decoded α) (r : Reading) :
    fill name decode none r = (do return some (← decode r)) := rfl

@[simp] theorem filled_some {α : Type} (name : String) (a : α) : filled name (some a) = .ok a := rfl

@[simp] theorem members_nil {σ : Type} (set : σ → String → Reading → Decoded σ) (slots : σ) :
    members set slots [] .closed = .ok slots := rfl

@[simp] theorem members_cons {σ : Type} (set : σ → String → Reading → Decoded σ) (slots : σ)
    (name : String) (r : Reading) (ms : List (String × Reading)) :
    members set slots ((name, r) :: ms) .closed =
      (do members set (← set slots name r) ms .closed) := by
  rw [members, List.foldlM_cons, bind_assoc]
  rfl

theorem edge_reading (e : EdgeSpec) : edge e.toJson.reading = .ok e := by
  simp [EdgeSpec.toJson, edge, EdgeSlots.set]

theorem stratum_reading (s : StratumSpec) : stratum s.toJson.reading = .ok s := by
  simp [StratumSpec.toJson, stratum, StratumSlots.set]

theorem lookup_reading (l : LookupSpec) : lookup l.toJson.reading = .ok l := by
  simp [LookupSpec.toJson, lookup, LookupSlots.set]

theorem kind_reading {name : String} {v : Variant} (h : (name, v) ∈ kindNames) :
    kind (Json.string name).reading = .ok v := by
  rw [Json.reading_string]
  simp only [kindNames, List.mem_cons, Prod.mk.injEq, List.not_mem_nil, or_false] at h
  rcases h with ⟨rfl, rfl⟩ | ⟨rfl, rfl⟩ | ⟨rfl, rfl⟩ | ⟨rfl, rfl⟩ | ⟨rfl, rfl⟩ <;> rfl

/-- The kind of an element is found in front, and the members behind it are left for the fields. -/
theorem members_kindMember {name : String} {v : Variant} (h : (name, v) ∈ kindNames)
    {ms : List (String × Reading)} (hms : ∀ m ∈ ms, m.1 ≠ "kind") :
    members kindMember none (("kind", (Json.string name).reading) :: ms) .closed =
      .ok (some v) := by
  have hrest : members kindMember (some v) ms .closed = .ok (some v) := by
    induction ms with
    | nil => rfl
    | cons m ms ih =>
      obtain ⟨n, r⟩ := m
      rw [members_cons, kindMember, if_neg (hms _ List.mem_cons_self), ok_bind]
      exact ih fun m hm => hms m (List.mem_cons_of_mem _ hm)
  simp [kindMember, kind_reading h, hrest]

theorem set_kind (v : Variant) (s : ElementSlots) (r : Reading) : s.set v "kind" r = .ok s := by
  cases v <;> rfl

/-- An object with its kind in front is read by the fields of this kind. -/
theorem element_object {name : String} {v : Variant} (h : (name, v) ∈ kindNames)
    {ms : List (String × Json)} (hms : ∀ m ∈ ms, m.1 ≠ "kind") :
    element (Json.object (("kind", .string name) :: ms)).reading =
      (do
        (← members (ElementSlots.set v) {} (ms.map fun m => (m.1, m.2.reading)) .closed).finish
          v) := by
  have hrest : ∀ m ∈ ms.map fun m => (m.1, m.2.reading), m.1 ≠ "kind" := List.forall_mem_map.2 hms
  rw [Json.reading_object, List.map_cons, element, members_kindMember h hrest, ok_bind, filled_some,
    ok_bind, members_cons, set_kind, ok_bind]

theorem element_reading (e : ElementSpec) : element e.toJson.reading = .ok e := by
  cases e with
  | table r k =>
    rw [ElementSpec.toJson, element_object (v := .table) (by simp [kindNames]) (by simp)]
    simp [ElementSlots.set, ElementSlots.finish]
  | input r =>
    rw [ElementSpec.toJson, element_object (v := .input) (by simp [kindNames]) (by simp)]
    simp [ElementSlots.set, ElementSlots.finish]
  | join b p left =>
    rw [ElementSpec.toJson, element_object (v := .join) (by simp [kindNames]) (by simp)]
    simp [ElementSlots.set, ElementSlots.finish]
  | map f n =>
    rw [ElementSpec.toJson, element_object (v := .map) (by simp [kindNames]) (by simp)]
    simp [ElementSlots.set, ElementSlots.finish]
  | scanner t =>
    rw [ElementSpec.toJson, element_object (v := .scanner) (by simp [kindNames]) (by simp)]
    simp [ElementSlots.set, ElementSlots.finish]

theorem document_reading (d : Document) : document d.toJson.reading = .ok d := by
  simp [Document.toJson, document, DocumentSlots.set, list_reading element_reading,
    list_reading edge_reading, list_reading stratum_reading, list_reading lookup_reading]

end Decode

/-! ### Documents -/

section Legible

variable (depth : Nat)

theorem Json.legible_word (i : UInt32) : (Json.nat i.toNat).Legible depth := by
  rw [nat, Legible, number?_word]
  rfl

theorem ElementRef.legible (r : ElementRef) : r.toJson.Legible depth := by
  cases r with
  | index i => exact Json.legible_word depth i
  | name n => simp [toJson, Legible]

theorem ElementRef.legible_list (rs : List ElementRef) : (listToJson rs).Legible (depth + 1) :=
  List.forall_mem_map.2 fun r _ => r.legible depth

theorem ElementSpec.legible (e : ElementSpec) : e.toJson.Legible (depth + 1) := by
  cases e <;> simp [toJson, Legible, Json.legible_word, ElementRef.legible]

theorem EdgeSpec.legible (e : EdgeSpec) : e.toJson.Legible (depth + 1) := by
  simp [toJson, Legible, ElementRef.legible]

theorem StratumSpec.legible (s : StratumSpec) : s.toJson.Legible (depth + 2) := by
  simp [toJson, Legible, Json.legible_word, ElementRef.legible_list]

theorem LookupSpec.legible (l : LookupSpec) : l.toJson.Legible (depth + 2) := by
  simp [toJson, Legible, ElementRef.legible, ElementRef.legible_list]

/-- A document nests four deep: its references stand in the lists of the records of its sections. -/
theorem Document.legible (d : Document) : d.toJson.Legible (depth + 4) := by
  simp [toJson, Legible, ElementSpec.legible, EdgeSpec.legible, StratumSpec.legible,
    LookupSpec.legible]

end Legible

/-- What a text of a JSON value is decoded to is decoded from what the value is read as. -/
theorem Document.decode_eq_ok {v : Json} {s : String} (hs : v.IsText s) {d : Document} :
    decode s = .ok d ↔ v.Legible Json.depthLimit ∧ Decode.document v.reading = .ok d := by
  obtain ⟨b, hb, hread⟩ := hs.read
  by_cases hv : v.Legible Json.depthLimit
  · have hblank : Json.skipBlanks b = [] := by
      have hskip := hb.skipBlanks_append []
      rwa [List.append_nil] at hskip
    have hend : Decode.endOfText (.ok b) = .ok () := by simp [Decode.endOfText, hblank]
    simp only [decode, hread.ok hv, hend, hv, true_and]
    cases Decode.document v.reading <;> rfl
  · obtain ⟨r, f, hf⟩ := hread.fault hv
    simp only [decode, hf, Decode.endOfText, hv, false_and, iff_false]
    cases Decode.document r <;> simp [bind, Except.bind]

/-- The compact text of a JSON value is decoded as what the value is read as. -/
theorem Document.decode_compact {v : Json} (h : v.Legible Json.depthLimit) {d : Document}
    (hd : Decode.document v.reading = .ok d) : decode v.compact = .ok d :=
  (decode_eq_ok v.isText_compact).2 ⟨h, hd⟩

/-- A document that is written as JSON is loaded as it is. -/
theorem Graph.load_encode (d : Document) : load d.encode = d.load := by
  rw [load, Document.encode, Document.decode_compact (d.legible 123) (Decode.document_reading d)]

/-- **Decoding undoes encoding.** Whatever names, functions and numbers a document has, and whether
its elements refer to each other by position or by name, its text is decoded to the document itself.
-/
theorem Document.decode_encode (d : Document) : decode d.encode = .ok d :=
  decode_compact (d.legible 123) (Decode.document_reading d)

end Dataflow
