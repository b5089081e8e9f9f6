import Mathlib.Data.List.Perm.Basic
import Mathlib.Tactic.MkIffOfInductiveProp
import Dataflow.Proofs.Decoding
import Dataflow.Proofs.Generation

/-!
# The fields of a record

What the members of an object put in the slots of a record depends on the values that stand under
each name, and on nothing else: not on the order in which the names come, and for an element not on
names that its kind has no field for.

* `Takes` says how the values under one name fill a slot: not at all, or once.
* For each record there is a relation `Fill` between its members and its slots, with one `Takes` for
  each field, and going through the members comes to that relation (`members_eq_ok`).
-/

namespace Dataflow

open Json (Reading)

namespace Decode

/-! ### Values under a name -/

section Values

variable {β γ : Type} {name : String} {ms ns : List (String × β)}

/-- The values of the members with a name, in order. -/
def valuesOf (name : String) (ms : List (String × β)) : List β :=
  (ms.filter fun m => m.1 = name).map Prod.snd

@[simp] theorem valuesOf_nil (name : String) : valuesOf name ([] : List (String × β)) = [] := rfl

theorem valuesOf_cons (name : String) (m : String × β) (ms : List (String × β)) :
    valuesOf name (m :: ms) = if m.1 = name then m.2 :: valuesOf name ms else valuesOf name ms := by
  by_cases h : m.1 = name <;> simp [valuesOf, h]

theorem valuesOf_append (name : String) (ms ns : List (String × β)) :
    valuesOf name (ms ++ ns) = valuesOf name ms ++ valuesOf name ns := by
  simp [valuesOf]

theorem valuesOf_map (f : β → γ) (name : String) (ms : List (String × β)) :
    valuesOf name (ms.map fun m => (m.1, f m.2)) = (valuesOf name ms).map f := by
  induction ms with
  | nil => rfl
  | cons m ms ih =>
    rw [List.map_cons, valuesOf_cons, valuesOf_cons, ih]
    split <;> rfl

theorem mem_valuesOf {b : β} : b ∈ valuesOf name ms ↔ (name, b) ∈ ms := by
  simp only [valuesOf, List.mem_map, List.mem_filter, decide_eq_true_eq, Prod.exists]
  constructor
  · rintro ⟨k, c, ⟨hmem, rfl⟩, rfl⟩
    exact hmem
  · intro hmem
    exact ⟨name, b, ⟨hmem, rfl⟩, rfl⟩

theorem valuesOf_eq_nil : valuesOf name ms = [] ↔ ∀ m ∈ ms, m.1 ≠ name := by
  simp [valuesOf, List.filter_eq_nil_iff]

/-- With another value for one member, the only value under a name is the new one, or else the same
as before. -/
theorem valuesOf_replace {k : String} {as bs : List (String × β)} {x u : β} (y : β)
    (h : valuesOf name (as ++ (k, x) :: bs) = [u]) :
    k = name ∧ u = x ∧ valuesOf name (as ++ (k, y) :: bs) = [y] ∨
      k ≠ name ∧ valuesOf name (as ++ (k, y) :: bs) = [u] := by
  rw [valuesOf_append, valuesOf_cons] at h ⊢
  by_cases hk : k = name
  · simp only [hk, if_true] at h ⊢
    rcases List.append_eq_singleton_iff.1 h with ⟨has, hcons⟩ | ⟨-, hcons⟩
    · obtain ⟨rfl, hbs⟩ := List.cons.inj hcons
      exact .inl ⟨trivial, rfl, by rw [has, hbs]; rfl⟩
    · cases hcons
  · simp only [hk, if_false] at h ⊢
    exact .inr ⟨hk, h⟩

theorem valuesOf_perm (h : ms.Perm ns) (name : String) :
    (valuesOf name ms).Perm (valuesOf name ns) :=
  (h.filter _).map _

end Values

/-! ### Slots -/

section Slots

variable {α : Type} {decode : Reading → Decoded α} {slot after : Option α} {r : Reading}
  {rs rs' : List Reading}

/-- `Takes decode slot rs after`: values under one name take a slot from `slot` to `after`. None
leaves it as it is, one fills it if it was empty, and more are too many. -/
inductive Takes (decode : Reading → Decoded α) : Option α → List Reading → Option α → Prop
  | absent (slot : Option α) : Takes decode slot [] slot
  | once {r : Reading} {a : α} (h : decode r = .ok a) : Takes decode none [r] (some a)

theorem takes_nil : Takes decode slot [] after ↔ after = slot := by
  constructor
  · rintro ⟨⟩
    rfl
  · rintro rfl
    exact .absent _

/-- A slot that is filled takes no more. -/
theorem takes_some {a : α} : Takes decode (some a) rs after ↔ rs = [] ∧ after = some a := by
  constructor
  · rintro ⟨⟩
    exact ⟨rfl, rfl⟩
  · rintro ⟨rfl, rfl⟩
    exact .absent _

theorem fill_eq_ok {name : String} :
    fill name decode slot r = .ok after ↔ slot = none ∧ ∃ a, decode r = .ok a ∧ after = some a := by
  cases slot with
  | some a => simp [fill]
  | none => simp only [fill_none, bind_eq_ok, pure_eq_ok, true_and]

theorem takes_cons :
    Takes decode slot (r :: rs) after ↔
      ∃ mid, (slot = none ∧ ∃ a, decode r = .ok a ∧ mid = some a) ∧ Takes decode mid rs after := by
  constructor
  · rintro ⟨⟩
    rename_i a h
    exact ⟨some a, ⟨rfl, a, h, rfl⟩, .absent _⟩
  · rintro ⟨mid, ⟨rfl, a, h, rfl⟩, hrest⟩
    cases hrest
    exact .once h

/-- Where no value may stand twice, their order does not matter. -/
theorem Takes.perm (h : Takes decode slot rs after) (hperm : rs.Perm rs') :
    Takes decode slot rs' after := by
  cases h with
  | absent =>
    obtain rfl := hperm.nil_eq
    exact .absent _
  | once h =>
    obtain rfl := hperm.singleton_eq
    exact .once h

/-- One member fills the slot for its name and leaves the other slots as they are. -/
theorem takes_valuesOf_cons {k name : String} {ms : List (String × Reading)} :
    Takes decode slot (valuesOf name ((k, r) :: ms)) after ↔
      if k = name then
        ∃ mid, fill name decode slot r = .ok mid ∧ Takes decode mid (valuesOf name ms) after
      else Takes decode slot (valuesOf name ms) after := by
  rw [valuesOf_cons]
  split
  · simp only [takes_cons, fill_eq_ok]
  · rfl

theorem exists_put {σ β : Type} {x : Decoded β} {put : β → σ} {P : σ → Prop} :
    (∃ t, (do return put (← x)) = .ok t ∧ P t) ↔ ∃ b, x = .ok b ∧ P (put b) := by
  simp only [bind_eq_ok, pure_eq_ok]
  constructor
  · rintro ⟨_, ⟨b, hb, rfl⟩, hp⟩
    exact ⟨b, hb, hp⟩
  · rintro ⟨b, hb, hp⟩
    exact ⟨_, ⟨b, hb, rfl⟩, hp⟩

theorem filled_eq_ok {name : String} {a : α} : filled name slot = .ok a ↔ slot = some a := by
  cases slot <;> simp [filled]

end Slots

/-! ### Records -/

/-- Going through the members of an object, once for all records: a relation that goes from slots to
slots as `set` does is what the members amount to. -/
theorem members_eq_ok {σ : Type} {set : σ → String → Reading → Decoded σ}
    {R : σ → List (String × Reading) → σ → Prop} (hnil : ∀ s s', R s [] s' ↔ s' = s)
    (hcons : ∀ s name r ms s', R s ((name, r) :: ms) s' ↔ ∃ t, set s name r = .ok t ∧ R t ms s')
    {s s' : σ} {ms : List (String × Reading)} : members set s ms .closed = .ok s' ↔ R s ms s' := by
  induction ms generalizing s with
  | nil => simp [hnil, eq_comm]
  | cons m ms ih =>
    obtain ⟨name, r⟩ := m
    rw [members_cons, bind_eq_ok, hcons]
    exact exists_congr fun t => and_congr_right fun _ => ih

/-- All members have one of the known names. -/
def Known (names : List String) (ms : List (String × Reading)) : Prop := ∀ m ∈ ms, m.1 ∈ names

/-- What the members of an edge put in its slots. -/
@[mk_iff]
structure EdgeSlots.Fill (s : EdgeSlots) (ms : List (String × Reading)) (s' : EdgeSlots) :
    Prop where
  known : Known ["from", "to", "port"] ms
  source : Takes reference s.source (valuesOf "from" ms) s'.source
  target : Takes reference s.target (valuesOf "to" ms) s'.target
  port : Takes Decode.port s.port (valuesOf "port" ms) s'.port

theorem EdgeSlots.members_eq_ok {s s' : EdgeSlots} {ms : List (String × Reading)} :
    members EdgeSlots.set s ms .closed = .ok s' ↔ Fill s ms s' := by
  refine Decode.members_eq_ok (fun s s' => ?_) fun s name r ms s' => ?_
  · cases s
    cases s'
    simp [fill_iff, takes_nil, Known]
  · unfold EdgeSlots.set
    split <;>
      simp only [fill_iff, Known, List.forall_mem_cons, takes_valuesOf_cons, String.reduceEq,
        if_true, if_false, exists_put] <;> grind

/-- What the members of a stratum put in its slots. -/
@[mk_iff]
structure StratumSlots.Fill (s : StratumSlots) (ms : List (String × Reading)) (s' : StratumSlots) :
    Prop where
  known : Known ["index", "elements"] ms
  index : Takes word s.index (valuesOf "index" ms) s'.index
  elements : Takes (list reference) s.elements (valuesOf "elements" ms) s'.elements

theorem StratumSlots.members_eq_ok {s s' : StratumSlots} {ms : List (String × Reading)} :
    members StratumSlots.set s ms .closed = .ok s' ↔ Fill s ms s' := by
  refine Decode.members_eq_ok (fun s s' => ?_) fun s name r ms s' => ?_
  · cases s
    cases s'
    simp [fill_iff, takes_nil, Known]
  · unfold StratumSlots.set
    split <;>
      simp only [fill_iff, Known, List.forall_mem_cons, takes_valuesOf_cons, String.reduceEq,
        if_true, if_false, exists_put] <;> grind

/-- What the members of a lookup entry put in its slots. -/
@[mk_iff]
structure LookupSlots.Fill (s : LookupSlots) (ms : List (String × Reading)) (s' : LookupSlots) :
    Prop where
  known : Known ["key", "values"] ms
  key : Takes reference s.key (valuesOf "key" ms) s'.key
  values : Takes (list reference) s.values (valuesOf "values" ms) s'.values

theorem LookupSlots.members_eq_ok {s s' : LookupSlots} {ms : List (String × Reading)} :
    members LookupSlots.set s ms .closed = .ok s' ↔ Fill s ms s' := by
  refine Decode.members_eq_ok (fun s s' => ?_) fun s name r ms s' => ?_
  · cases s
    cases s'
    simp [fill_iff, takes_nil, Known]
  · unfold LookupSlots.set
    split <;>
      simp only [fill_iff, Known, List.forall_mem_cons, takes_valuesOf_cons, String.reduceEq,
        if_true, if_false, exists_put] <;> grind

/-- The names of the sections of a document. -/
def sectionNames : List String := ["elements", "edges", "strata", "invalidation", "rescan"]

/-- What the members of a document put in its slots. -/
@[mk_iff]
structure DocumentSlots.Fill (s : DocumentSlots) (ms : List (String × Reading))
    (s' : DocumentSlots) : Prop where
  known : Known sectionNames ms
  elements : Takes (list element) s.elements (valuesOf "elements" ms) s'.elements
  edges : Takes (list edge) s.edges (valuesOf "edges" ms) s'.edges
  strata : Takes (list stratum) s.strata (valuesOf "strata" ms) s'.strata
  invalidation : Takes (list lookup) s.invalidation (valuesOf "invalidation" ms) s'.invalidation
  rescan : Takes (list lookup) s.rescan (valuesOf "rescan" ms) s'.rescan

theorem DocumentSlots.members_eq_ok {s s' : DocumentSlots} {ms : List (String × Reading)} :
    members DocumentSlots.set s ms .closed = .ok s' ↔ Fill s ms s' := by
  refine Decode.members_eq_ok (fun s s' => ?_) fun s name r ms s' => ?_
  · cases s
    cases s'
    simp [fill_iff, takes_nil, Known]
  · unfold DocumentSlots.set
    split <;>
      simp only [fill_iff, Known, sectionNames, List.forall_mem_cons, takes_valuesOf_cons,
        String.reduceEq, if_true, if_false, exists_put] <;> grind

/-! ### Elements -/

theorem members_kindMember_eq_ok {found found' : Option Variant} {ms : List (String × Reading)} :
    members kindMember found ms .closed = .ok found' ↔
      Takes kind found (valuesOf "kind" ms) found' := by
  refine Decode.members_eq_ok
    (R := fun found ms found' => Takes kind found (valuesOf "kind" ms) found')
    (fun found found' => takes_nil) fun found name r ms found' => ?_
  by_cases hname : name = "kind"
  · simp only [kindMember, valuesOf_cons, hname, if_true, fill_eq_ok, takes_cons]
  · simp [kindMember, valuesOf_cons, hname]

/-- The names of the fields that elements of a kind have. -/
def fieldNames : Variant → List String
  | .table => ["relation", "last_key_col_index"]
  | .input => ["relation"]
  | .join => ["build_key", "probe_key", "left_is_build"]
  | .map => ["function", "arity"]
  | .scanner => ["target"]

/-- The values for a field, of which there are none for a field that elements of a kind do not have.
-/
def fieldValues (v : Variant) (name : String) (ms : List (String × Reading)) : List Reading :=
  if name ∈ fieldNames v then valuesOf name ms else []

theorem takes_fieldValues_cons {α : Type} {decode : Reading → Decoded α} {slot after : Option α}
    {v : Variant} {k name : String} {r : Reading} {ms : List (String × Reading)} :
    Takes decode slot (fieldValues v name ((k, r) :: ms)) after ↔
      if k = name ∧ name ∈ fieldNames v then
        ∃ mid, fill name decode slot r = .ok mid ∧ Takes decode mid (fieldValues v name ms) after
      else Takes decode slot (fieldValues v name ms) after := by
  unfold fieldValues
  by_cases hname : name ∈ fieldNames v
  · simp only [hname, if_true, and_true, takes_valuesOf_cons]
  · simp only [hname, if_false, and_false]

theorem Takes.field {α : Type} {decode : Reading → Decoded α} {slot after : Option α} {v : Variant}
    {name : String} {ms ns : List (String × Reading)}
    (h : name ∈ fieldNames v → Takes decode slot (valuesOf name ms) after →
      Takes decode slot (valuesOf name ns) after)
    (ht : Takes decode slot (fieldValues v name ms) after) :
    Takes decode slot (fieldValues v name ns) after := by
  unfold fieldValues at ht ⊢
  by_cases hname : name ∈ fieldNames v
  · rw [if_pos hname] at ht ⊢
    exact h hname ht
  · rw [if_neg hname] at ht ⊢
    exact ht

/-- What the members of an element put in its slots. -/
@[mk_iff]
structure ElementSlots.Fill (v : Variant) (s : ElementSlots) (ms : List (String × Reading))
    (s' : ElementSlots) :
    Prop where
  relation : Takes string s.relation (fieldValues v "relation" ms) s'.relation
  lastKeyColumn :
    Takes word s.lastKeyColumn (fieldValues v "last_key_col_index" ms) s'.lastKeyColumn
  buildKey : Takes string s.buildKey (fieldValues v "build_key" ms) s'.buildKey
  probeKey : Takes string s.probeKey (fieldValues v "probe_key" ms) s'.probeKey
  leftIsBuild : Takes bool s.leftIsBuild (fieldValues v "left_is_build" ms) s'.leftIsBuild
  function : Takes string s.function (fieldValues v "function" ms) s'.function
  arity : Takes word s.arity (fieldValues v "arity" ms) s'.arity
  target : Takes reference s.target (fieldValues v "target" ms) s'.target

theorem ElementSlots.members_eq_ok {v : Variant} {s s' : ElementSlots}
    {ms : List (String × Reading)} :
    members (ElementSlots.set v) s ms .closed = .ok s' ↔ Fill v s ms s' := by
  refine Decode.members_eq_ok (fun s s' => ?_) fun s name r ms s' => ?_
  · cases s
    cases s'
    simp [fill_iff, takes_nil, fieldValues]
  · cases v <;> unfold ElementSlots.set <;> split <;>
      simp only [fill_iff, takes_fieldValues_cons, fieldNames,
        List.mem_cons, List.not_mem_nil, or_false, or_true, or_self, String.reduceEq, and_self,
        and_false, and_true, if_true, if_false, exists_put] <;> grind

/-- An element is made of its kind and of the slots that this kind has. -/
theorem element_eq_ok {ms : List (String × Reading)} {e : ElementSpec} :
    element (.object ms .closed) = .ok e ↔
      ∃ v s, Takes kind none (valuesOf "kind" ms) (some v) ∧ ElementSlots.Fill v {} ms s ∧
      s.finish v = .ok e := by
  simp only [element, bind_eq_ok, members_kindMember_eq_ok, ElementSlots.members_eq_ok,
    filled_eq_ok]
  constructor
  · rintro ⟨_, hkind, v, rfl, s, hfill, he⟩
    exact ⟨v, s, hkind, hfill, he⟩
  · rintro ⟨v, s, hkind, hfill, he⟩
    exact ⟨some v, hkind, v, rfl, s, hfill, he⟩

/-- A document is made of its sections, of which all but the elements may be missing. -/
theorem document_eq_ok {ms : List (String × Reading)} {d : Document} :
    document (.object ms .closed) = .ok d ↔
      ∃ s, DocumentSlots.Fill {} ms s ∧ s.elements = some d.elements ∧
        d =
          ⟨d.elements, s.edges.getD [], s.strata.getD [], s.invalidation.getD [],
            s.rescan.getD []⟩ := by
  simp only [document, bind_eq_ok, pure_eq_ok, DocumentSlots.members_eq_ok, filled_eq_ok]
  constructor
  · rintro ⟨s, hfill, elements, helements, rfl⟩
    exact ⟨s, hfill, helements, rfl⟩
  · rintro ⟨s, hfill, helements, hd⟩
    exact ⟨s, hfill, d.elements, helements, hd⟩

end Decode

end Dataflow
