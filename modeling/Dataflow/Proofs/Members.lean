import Mathlib.Data.List.Forall2
import Mathlib.Logic.Relation
import Dataflow.Proofs.Accepting
import Dataflow.Proofs.Fields

/-!
# The order of members

A document is decoded to the same whatever the order in which members stand in its objects, at any
depth (`decode_members`). Elements are gone through twice, once for their kind and once for their
fields, and other records in one pass; neither way of decoding sees the order. Empty sections may be
left out, and an element may have members that its kind has no field for.

* `Json.Rearranged` permutes the members of objects at any depth; a decoder is `Blind` if its
  results do not change.
* `Json.Immaterial` leaves out empty sections, or adds a member to an element.
-/

namespace Dataflow

open Json (Reading)

namespace Json

variable {v w : Json} {depth : Nat}

/-- `Rearranged v w`: `w` is `v` with the members of some objects in another order, at any depth. -/
inductive Rearranged : Json → Json → Prop
  | refl (v : Json) : Rearranged v v
  | members {ms ns : List (String × Json)} (h : ms.Perm ns) : Rearranged (object ms) (object ns)
  | item {v w : Json} {as bs : List Json} (h : Rearranged v w) :
      Rearranged (array (as ++ v :: bs)) (array (as ++ w :: bs))
  | member {v w : Json} {k : String} {as bs : List (String × Json)} (h : Rearranged v w) :
      Rearranged (object (as ++ (k, v) :: bs)) (object (as ++ (k, w) :: bs))
  | trans {u v w : Json} (huv : Rearranged u v) (hvw : Rearranged v w) : Rearranged u w

theorem Rearranged.symm (h : Rearranged v w) : Rearranged w v := by
  induction h with
  | refl v => exact .refl v
  | members h => exact .members h.symm
  | item _ ih => exact .item ih
  | member _ ih => exact .member ih
  | trans _ _ ihuv ihvw => exact .trans ihvw ihuv

theorem legible_array {vs : List Json} :
    (array vs).Legible (depth + 1) ↔ ∀ v ∈ vs, v.Legible depth := Iff.rfl

theorem legible_object {ms : List (String × Json)} :
    (object ms).Legible (depth + 1) ↔ ∀ m ∈ ms, m.2.Legible depth := Iff.rfl

theorem legible_item (h : ∀ depth, v.Legible depth → w.Legible depth) {as bs : List Json}
    (hv : (array (as ++ v :: bs)).Legible depth) : (array (as ++ w :: bs)).Legible depth := by
  cases depth with
  | zero => cases hv
  | succ depth =>
    simp only [legible_array, List.forall_mem_append, List.forall_mem_cons] at hv ⊢
    exact ⟨hv.1, h depth hv.2.1, hv.2.2⟩

theorem legible_member (h : ∀ depth, v.Legible depth → w.Legible depth) {k : String}
    {as bs : List (String × Json)} (hv : (object (as ++ (k, v) :: bs)).Legible depth) :
    (object (as ++ (k, w) :: bs)).Legible depth := by
  cases depth with
  | zero => cases hv
  | succ depth =>
    simp only [legible_object, List.forall_mem_append, List.forall_mem_cons] at hv ⊢
    exact ⟨hv.1, h depth hv.2.1, hv.2.2⟩

theorem legible_members {ms ns : List (String × Json)}
    (h : ∀ depth, ∀ n ∈ ns, n ∈ ms ∨ n.2.Legible depth) (hms : (object ms).Legible depth) :
    (object ns).Legible depth := by
  cases depth with
  | zero => cases hms
  | succ depth => exact fun n hn => (h depth n hn).elim (hms n) id

theorem Rearranged.legible (h : Rearranged v w) : ∀ depth, v.Legible depth → w.Legible depth := by
  induction h with
  | refl => exact fun _ hv => hv
  | members h => exact fun _ => legible_members fun _ n hn => .inl (h.mem_iff.2 hn)
  | item _ ih => exact fun _ => legible_item ih
  | member _ ih => exact fun _ => legible_member ih
  | trans _ _ ihuv ihvw => exact fun depth hu => ihvw depth (ihuv depth hu)

end Json

open Json (Rearranged)

namespace Decode

/-! ### Members that correspond -/

theorem valuesOf_memberReadings (name : String) (ms : List (String × Json)) :
    valuesOf name (Json.memberReadings ms) = (valuesOf name ms).map Json.reading := by
  rw [Json.memberReadings_eq, valuesOf_map]

theorem known_memberReadings {names : List String} {ms : List (String × Json)} :
    Known names (Json.memberReadings ms) ↔ ∀ m ∈ ms, m.1 ∈ names := by
  rw [Json.memberReadings_eq, Known, List.forall_mem_map]

/-- The members `ns` have no other names than `ms`, and what comes once in `ms` comes once in `ns`,
though it may be rearranged. -/
structure Corresponds (ms ns : List (String × Json)) : Prop where
  names : ∀ n ∈ ns, ∃ m ∈ ms, m.1 = n.1
  once : ∀ {name : String} {v : Json}, valuesOf name ms = [v] → ∃ w, valuesOf name ns = [w] ∧
    Rearranged v w

section Corresponds

variable {ms ns : List (String × Json)}

theorem corresponds_of_perm (h : ms.Perm ns) : Corresponds ms ns where
  names n hn := ⟨n, h.mem_iff.2 hn, rfl⟩
  once {name v} hv := by
    have hperm := valuesOf_perm h name
    rw [hv] at hperm
    exact ⟨v, hperm.singleton_eq.symm, .refl v⟩

theorem corresponds_member {v w : Json} (h : Rearranged v w) (k : String)
    (as bs : List (String × Json)) :
    Corresponds (as ++ (k, v) :: bs) (as ++ (k, w) :: bs) where
  names n hn := by
    rcases List.mem_append.1 hn with hn | hn
    · exact ⟨n, List.mem_append_left _ hn, rfl⟩
    · rcases List.mem_cons.1 hn with rfl | hn
      · exact ⟨(k, v), by simp, rfl⟩
      · exact ⟨n, by simp [hn], rfl⟩
  once {name u} hu := by
    rcases valuesOf_replace w hu with ⟨-, rfl, hw⟩ | ⟨-, hw⟩
    · exact ⟨w, hw, h⟩
    · exact ⟨u, hw, .refl u⟩

theorem corresponds_singleton {k : String} {v : Json} (h : Corresponds [(k, v)] ns) :
    ∃ w, ns = [(k, w)] ∧ Rearranged v w := by
  have hnames : ∀ n ∈ ns, n.1 = k := by
    intro n hn
    obtain ⟨m, hm, heq⟩ := h.names n hn
    obtain rfl := List.mem_singleton.1 hm
    exact heq.symm
  have hvalue : valuesOf k [(k, v)] = [v] := by simp [valuesOf_cons]
  obtain ⟨w, hw, hvw⟩ := h.once hvalue
  have hall : valuesOf k ns = ns.map Prod.snd := by
    rw [valuesOf, List.filter_eq_self.2 fun n hn => decide_eq_true (hnames n hn)]
  rw [hall] at hw
  obtain ⟨n, rfl, hsnd⟩ := List.map_eq_singleton_iff.1 hw
  refine ⟨w, ?_, hvw⟩
  rw [← hnames n (List.mem_singleton_self n), ← hsnd]

theorem Corresponds.known (h : Corresponds ms ns) {names : List String}
    (hms : Known names (Json.memberReadings ms)) :
    Known names (Json.memberReadings ns) := by
  rw [known_memberReadings] at hms ⊢
  intro n hn
  obtain ⟨m, hm, heq⟩ := h.names n hn
  exact heq ▸ hms m hm

end Corresponds

/-! ### Blind decoders -/

/-- A decoder does not see a rearrangement. -/
structure Blind {α : Type} (decode : Reading → Decoded α) : Prop where
  eq_ok : ∀ {v w : Json}, Rearranged v w → ∀ a, decode v.reading = .ok a → decode w.reading = .ok a

/-- `Follows f g`: what `f` makes of items, `g` makes of them when they are rearranged. -/
structure Follows {β : Type} (f g : List Reading → Decoded β) : Prop where
  eq_ok : ∀ {vs ws : List Json}, List.Forall₂ Rearranged vs ws → ∀ b,
    f (vs.map Json.reading) = .ok b → g (ws.map Json.reading) = .ok b

section Blind

variable {α : Type} {decode : Reading → Decoded α}

/-- It is enough to look at arrays whose items are rearranged, and at objects whose members
correspond. -/
theorem Blind.of_parts
    (harray : Follows (fun items => decode (.array items .closed)) fun items =>
      decode (.array items .closed))
    (hobject : ∀ {ms ns : List (String × Json)}, Corresponds ms ns → ∀ a,
      decode (.object (Json.memberReadings ms) .closed) = .ok a →
        decode (.object (Json.memberReadings ns) .closed) = .ok a) :
    Blind decode := by
  refine ⟨fun {v w} h => ?_⟩
  induction h with
  | refl => exact fun _ ha => ha
  | members h => simpa only [Json.reading] using hobject (corresponds_of_perm h)
  | @item v w as bs h _ =>
    have hforall : List.Forall₂ Rearranged (as ++ v :: bs) (as ++ w :: bs) :=
      List.rel_append (List.forall₂_same.2 fun u _ => .refl u)
        (.cons h (List.forall₂_same.2 fun u _ => .refl u))
    simpa only [Json.reading_array] using harray.eq_ok hforall
  | @member v w k as bs h _ =>
    simpa only [Json.reading] using hobject (corresponds_member h k as bs)
  | trans _ _ ihuv ihvw => exact fun a ha => ihvw a (ihuv a ha)

/-- A decoder of scalars is blind. -/
theorem Blind.of_scalar (harray : ∀ items a, decode (.array items .closed) ≠ .ok a)
    (hobject : ∀ ms a, decode (.object ms .closed) ≠ .ok a) : Blind decode :=
  .of_parts ⟨fun _ a h => absurd h (harray _ a)⟩ fun _ a h => absurd h (hobject _ a)

theorem blind_string : Blind string := .of_scalar (by simp [string]) (by simp [string])

theorem blind_bool : Blind bool := .of_scalar (by simp [bool]) (by simp [bool])

theorem blind_word : Blind word := .of_scalar (by simp [word]) (by simp [word])

theorem blind_kind : Blind kind := .of_scalar (by simp [kind]) (by simp [kind])

theorem blind_unit : Blind unit := .of_scalar (by simp [unit]) (by simp [unit])

theorem blind_reference : Blind reference := by
  refine .of_scalar ?_ ?_ <;> simp [reference, Reading.fault?, Json.Ending.fault?, noFault]

/-- Lists are decoded item by item. -/
theorem list_eq_ok_of_forall₂ {vs ws : List Json}
    (h : List.Forall₂ (fun v w => ∀ a, decode v.reading = .ok a → decode w.reading = .ok a) vs ws)
    {as : List α} (has : list decode (.array (vs.map Json.reading) .closed) = .ok as) :
    list decode (.array (ws.map Json.reading) .closed) = .ok as := by
  simp only [list, Json.Ending.fault?, noFault, bind_eq_ok, pure_eq_ok] at has ⊢
  obtain ⟨as', has', hrest⟩ := has
  refine ⟨as', ?_, hrest⟩
  clear hrest
  induction h generalizing as' with
  | nil => exact has'
  | cons hvw _ ih =>
    simp only [List.map_cons, List.mapM_cons, bind_eq_ok, pure_eq_ok] at has' ⊢
    obtain ⟨a, ha, as, has, rfl⟩ := has'
    exact ⟨a, hvw a ha, as, ih as has, rfl⟩

theorem Blind.list (h : Blind decode) : Blind (Decode.list decode) :=
  .of_parts ⟨fun hforall _ => list_eq_ok_of_forall₂ (hforall.imp fun _ _ hvw => h.eq_ok hvw)⟩
    (by simp [Decode.list])

/-- A slot is filled from members that correspond as before. -/
theorem Corresponds.takes {ms ns : List (String × Json)} (h : Corresponds ms ns)
    (hdecode : Blind decode) {name : String} {slot : Option α}
    (ht : Takes decode none (valuesOf name (Json.memberReadings ms)) slot) :
    Takes decode none (valuesOf name (Json.memberReadings ns)) slot := by
  rw [valuesOf_memberReadings] at ht ⊢
  cases hvalues : valuesOf name ms with
  | nil =>
    have hns : valuesOf name ns = [] := by
      refine valuesOf_eq_nil.2 fun n hn hname => ?_
      obtain ⟨m, hm, heq⟩ := h.names n hn
      exact valuesOf_eq_nil.1 hvalues m hm (heq.trans hname)
    rw [hvalues] at ht
    rwa [hns]
  | cons v vs =>
    rw [hvalues, List.map_cons] at ht
    obtain ⟨_, ⟨-, a, ha, rfl⟩, hrest⟩ := takes_cons.1 ht
    obtain ⟨hnil, rfl⟩ := takes_some.1 hrest
    obtain rfl := List.map_eq_nil_iff.1 hnil
    obtain ⟨w, hw, hvw⟩ := h.once hvalues
    rw [hw]
    exact .once (hdecode.eq_ok hvw a ha)

end Blind

/-! ### Arrays that stand for records -/

section Follows

variable {α β : Type} {decode : Reading → Decoded α} {wanted : String} {position : Nat}

theorem Follows.item (hdecode : Blind decode) {k k' : α → List Reading → Decoded β}
    (hk : ∀ a, Follows (k a) (k' a)) :
    Follows
      (fun items => do let (a, rest) ← Decode.item wanted position decode .closed items; k a rest)
      (fun items =>
        do let (a, rest) ← Decode.item wanted position decode .closed items; k' a rest) := by
  refine ⟨fun {vs ws} h b hb => ?_⟩
  cases h with
  | nil => cases hb
  | cons hvw hrest =>
    simp only [List.map_cons, Decode.item, bind_eq_ok, pure_eq_ok] at hb ⊢
    obtain ⟨_, ⟨a, ha, rfl⟩, hb⟩ := hb
    exact ⟨_, ⟨a, hdecode.eq_ok hvw a ha, rfl⟩, (hk a).eq_ok hrest b hb⟩

theorem Follows.itemOrEmpty {decode : Reading → Decoded (List α)} (hdecode : Blind decode)
    {k : List α → List Reading → Decoded β} (hk : ∀ as, Follows (k as) (k as)) :
    Follows (fun items => do let (as, rest) ← Decode.itemOrEmpty decode .closed items; k as rest)
      (fun items => do let (as, rest) ← Decode.itemOrEmpty decode .closed items; k as rest) := by
  refine ⟨fun {vs ws} h b hb => ?_⟩
  cases h with
  | nil => exact hb
  | cons hvw hrest =>
    simp only [List.map_cons, Decode.itemOrEmpty, bind_eq_ok, pure_eq_ok] at hb ⊢
    obtain ⟨_, ⟨as, has, rfl⟩, hb⟩ := hb
    exact ⟨_, ⟨as, hdecode.eq_ok hvw as has, rfl⟩, (hk as).eq_ok hrest b hb⟩

theorem follows_noItems (b : β) :
    Follows (fun items => do noItems items .closed; return b)
    (fun items => do noItems items .closed; return b) := by
  refine ⟨fun {vs ws} h b' hb => ?_⟩
  cases h with
  | nil => exact hb
  | cons => cases hb

theorem follows_surplus (fields : Nat) (items items' : List Reading) (b : β) :
    Follows (fun rest => do surplus fields items rest; return b)
      (fun rest => do surplus fields items' rest; return b) := by
  refine ⟨fun {vs ws} h b' hb => ?_⟩
  cases h with
  | nil => exact hb
  | cons => cases hb

end Follows

/-! ### Records -/

theorem blind_port : Blind port := by
  refine .of_parts ⟨fun _ a h => by cases h⟩ fun {ms ns} h p hp => ?_
  cases ms with
  | nil => cases hp
  | cons m ms =>
    cases ms with
    | cons =>
      simp only [Json.memberReadings_eq, List.map_cons, port, bind_eq_ok] at hp
      obtain ⟨_, _, _, _, _, hafter, _⟩ := hp
      cases hafter
    | nil =>
      obtain ⟨k, v⟩ := m
      obtain ⟨w, rfl, hvw⟩ := corresponds_singleton h
      simp only [Json.memberReadings_eq, List.map_cons, List.map_nil, port, bind_eq_ok] at hp ⊢
      obtain ⟨p', hp', u, hu, hrest⟩ := hp
      exact ⟨p', hp', u, blind_unit.eq_ok hvw u hu, hrest⟩

theorem blind_edge : Blind edge := by
  refine .of_parts (.item blind_reference fun source => .item blind_reference fun target =>
    .item blind_port fun port =>
      follows_noItems (EdgeSpec.mk source target port)) fun {ms ns} h e he => ?_
  obtain ⟨s, hs, hrest⟩ := bind_eq_ok.1 he
  have hfill := EdgeSlots.members_eq_ok.1 hs
  refine bind_eq_ok.2 ⟨s, EdgeSlots.members_eq_ok.2 ?_, hrest⟩
  exact ⟨h.known hfill.known, h.takes blind_reference hfill.source,
    h.takes blind_reference hfill.target, h.takes blind_port hfill.port⟩

theorem blind_stratum : Blind stratum := by
  refine .of_parts (.item blind_word fun index => .item blind_reference.list fun elements =>
    follows_noItems (StratumSpec.mk index elements)) fun {ms ns} h e he => ?_
  obtain ⟨s, hs, hrest⟩ := bind_eq_ok.1 he
  have hfill := StratumSlots.members_eq_ok.1 hs
  refine bind_eq_ok.2 ⟨s, StratumSlots.members_eq_ok.2 ?_, hrest⟩
  exact ⟨h.known hfill.known, h.takes blind_word hfill.index,
    h.takes blind_reference.list hfill.elements⟩

theorem blind_lookup : Blind lookup := by
  refine .of_parts (.item blind_reference fun key => .item blind_reference.list fun values =>
    follows_noItems (LookupSpec.mk key values)) fun {ms ns} h e he => ?_
  obtain ⟨s, hs, hrest⟩ := bind_eq_ok.1 he
  have hfill := LookupSlots.members_eq_ok.1 hs
  refine bind_eq_ok.2 ⟨s, LookupSlots.members_eq_ok.2 ?_, hrest⟩
  exact ⟨h.known hfill.known, h.takes blind_reference hfill.key,
    h.takes blind_reference.list hfill.values⟩

theorem follows_elementItems (v : Variant) : Follows (elementItems v) (elementItems v) := by
  refine ⟨fun {vs ws} h => ?_⟩
  have hsurplus (fields : Nat) (e : ElementSpec) :=
    follows_surplus fields (vs.map Json.reading) (ws.map Json.reading) e
  cases v with
  | table =>
    exact (Follows.item blind_string fun relation => .item blind_word fun column =>
      hsurplus 2 (.table relation column)).eq_ok h
  | input => exact (Follows.item blind_string fun relation => hsurplus 1 (.input relation)).eq_ok h
  | join =>
    exact (Follows.item blind_string fun build => .item blind_string fun probe =>
      .item blind_bool fun left =>
      hsurplus 3 (.join build probe left)).eq_ok h
  | map =>
    exact (Follows.item blind_string fun function => .item blind_word fun arity =>
      hsurplus 2 (.map function arity)).eq_ok h
  | scanner =>
    exact (Follows.item blind_reference fun target => hsurplus 1 (.scanner target)).eq_ok h

theorem blind_element : Blind element := by
  refine .of_parts ⟨fun {vs ws} h e he => ?_⟩ fun {ms ns} h e he => ?_
  · cases h with
    | nil => cases he
    | cons hvw hrest =>
      simp only [List.map_cons, element, bind_eq_ok] at he ⊢
      obtain ⟨v, hv, u, hu, he⟩ := he
      exact ⟨v, blind_kind.eq_ok hvw v hv, u, hu, (follows_elementItems v).eq_ok hrest e he⟩
  · obtain ⟨v, s, hkind, hfill, hfinish⟩ := element_eq_ok.1 he
    have hfield {α : Type} {decode : Reading → Decoded α}
        (hdecode : Blind decode) {name : String} {slot : Option α}
        (ht : Takes decode none (fieldValues v name (Json.memberReadings ms)) slot) :
        Takes decode none (fieldValues v name (Json.memberReadings ns)) slot :=
      ht.field fun _ => h.takes hdecode
    refine element_eq_ok.2 ⟨v, s, h.takes blind_kind hkind, ?_, hfinish⟩
    exact ⟨hfield blind_string hfill.relation, hfield blind_word hfill.lastKeyColumn,
      hfield blind_string hfill.buildKey, hfield blind_string hfill.probeKey,
      hfield blind_bool hfill.leftIsBuild, hfield blind_string hfill.function,
      hfield blind_word hfill.arity, hfield blind_reference hfill.target⟩

theorem blind_document : Blind document := by
  refine .of_parts (.item blind_element.list fun elements =>
    .itemOrEmpty blind_edge.list fun edges =>
    .itemOrEmpty blind_stratum.list fun strata =>
    .itemOrEmpty blind_lookup.list fun invalidation =>
    .itemOrEmpty blind_lookup.list fun rescan =>
    follows_noItems (Document.mk elements edges strata invalidation rescan))
    fun {ms ns} h d hd => ?_
  obtain ⟨s, hfill, hrest⟩ := document_eq_ok.1 hd
  refine document_eq_ok.2 ⟨s, ?_, hrest⟩
  exact ⟨h.known hfill.known, h.takes blind_element.list hfill.elements,
    h.takes blind_edge.list hfill.edges, h.takes blind_stratum.list hfill.strata,
    h.takes blind_lookup.list hfill.invalidation, h.takes blind_lookup.list hfill.rescan⟩

end Decode

/-! ### Changes that do not matter -/

/-- A change to the object of a document after which it still describes the same: empty sections
other than the elements are left out, or an element gets a member that is neither its kind nor a
field of it. -/
inductive Json.Immaterial : Json → Json → Prop
  | leaveOut {ms ns left : List (String × Json)} (h : ms.Perm (left ++ ns))
      (hleft : ∀ m ∈ left, m.1 ∈ ["edges", "strata", "invalidation", "rescan"] ∧ m.2 = array []) :
      Immaterial (object ms) (object ns)
  | addMember {as bs : List (String × Json)} {es es' : List Json} {fs fs' : List (String × Json)}
      {kind name : String}
      {v : Variant} {x : Json} (hkind : ("kind", string kind) ∈ fs)
        (hv : (kind, v) ∈ Decode.kindNames)
      (hname : name ∉ "kind" :: Decode.fieldNames v)
        (hx : x = null ∨ (∃ b, x = bool b) ∨ ∃ s, x = string s)
      (hfs : fs'.Perm ((name, x) :: fs)) :
      Immaterial (object (as ++ ("elements", array (es ++ object fs :: es')) :: bs))
        (object (as ++ ("elements", array (es ++ object fs' :: es')) :: bs))

theorem Json.Immaterial.legible {v w : Json} (h : Immaterial v w) :
    ∀ depth, v.Legible depth → w.Legible depth := by
  cases h with
  | leaveOut h =>
    exact fun _ => legible_members fun _ n hn => .inl (h.mem_iff.2 (List.mem_append_right _ hn))
  | @addMember _ _ _ _ fs fs' _ name _ x _ _ _ hx hfs =>
    have hscalar (depth : Nat) : x.Legible depth := by
      rcases hx with rfl | ⟨b, rfl⟩ | ⟨s, rfl⟩ <;> simp [Legible]
    have hmembers (depth : Nat) : ∀ f ∈ fs', f ∈ fs ∨ f.2.Legible depth := by
      intro f hf
      rcases List.mem_cons.1 (hfs.mem_iff.1 hf) with rfl | hf
      · exact .inr (hscalar depth)
      · exact .inl hf
    exact fun _ => legible_member fun _ => legible_item fun _ => legible_members hmembers

namespace Decode

/-- An empty list in a slot is as good as none. -/
theorem Takes.of_append {α : Type} {item : Reading → Decoded α} {slot : Option (List α)}
    {left rest : List Reading} (h : Takes (list item) none (left ++ rest) slot)
    (hleft : ∀ r ∈ left, r = .array [] .closed) :
    ∃ slot', Takes (list item) none rest slot' ∧ slot'.getD [] = slot.getD [] := by
  cases left with
  | nil => exact ⟨slot, h, rfl⟩
  | cons r left =>
    obtain rfl := hleft r List.mem_cons_self
    obtain ⟨_, ⟨-, as, has, rfl⟩, hmore⟩ := takes_cons.1 h
    obtain ⟨hnil, rfl⟩ := takes_some.1 hmore
    obtain ⟨-, rfl⟩ := List.append_eq_nil_iff.1 hnil
    obtain rfl : [] = as := Except.ok.inj has
    exact ⟨none, .absent none, rfl⟩

theorem document_leaveOut {ms ns left : List (String × Json)} (h : ms.Perm (left ++ ns))
    (hleft : ∀ m ∈ left, m.1 ∈ ["edges", "strata", "invalidation", "rescan"] ∧ m.2 = .array [])
    {d : Document} (hd : document (Json.object ms).reading = .ok d) :
    document (Json.object ns).reading = .ok d := by
  have hvalues (name : String) : (valuesOf name (Json.memberReadings ms)).Perm
      ((valuesOf name left).map Json.reading ++ valuesOf name (Json.memberReadings ns)) := by
    simp only [valuesOf_memberReadings]
    rw [← List.map_append, ← valuesOf_append]
    exact (valuesOf_perm h name).map _
  have hsection {α : Type} {item : Reading → Decoded α} {name : String} {slot : Option (List α)}
      (ht : Takes (list item) none (valuesOf name (Json.memberReadings ms)) slot) :
      ∃ slot', Takes (list item) none (valuesOf name (Json.memberReadings ns)) slot' ∧
        slot'.getD [] = slot.getD [] := by
    refine (ht.perm (hvalues name)).of_append (List.forall_mem_map.2 fun v hv => ?_)
    have hempty : v = .array [] := (hleft _ (mem_valuesOf.1 hv)).2
    rw [hempty, Json.reading_array]
    rfl
  rw [Json.reading] at hd ⊢
  obtain ⟨s, hfill, helements, hd⟩ := document_eq_ok.1 hd
  obtain ⟨edges, hedges, hedges_eq⟩ := hsection hfill.edges
  obtain ⟨strata, hstrata, hstrata_eq⟩ := hsection hfill.strata
  obtain ⟨invalidation, hinvalidation, hinvalidation_eq⟩ := hsection hfill.invalidation
  obtain ⟨rescan, hrescan, hrescan_eq⟩ := hsection hfill.rescan
  refine document_eq_ok.2 ⟨⟨s.elements, edges, strata, invalidation, rescan⟩,
    ⟨?_, ?_, hedges, hstrata, hinvalidation, hrescan⟩, helements, ?_⟩
  · refine known_memberReadings.2 fun n hn => known_memberReadings.1 hfill.known n ?_
    exact h.mem_iff.2 (List.mem_append_right _ hn)
  · have hnone : valuesOf "elements" left = [] := by
      refine valuesOf_eq_nil.2 fun m hm hname => ?_
      have hmem := (hleft m hm).1
      rw [hname] at hmem
      revert hmem
      decide
    have hperm := hvalues "elements"
    rw [hnone] at hperm
    exact hfill.elements.perm hperm
  · rw [hedges_eq, hstrata_eq, hinvalidation_eq, hrescan_eq]
    exact hd

/-- The element is decoded as before: its kind and its fields stand under other names. -/
theorem element_addMember {fs fs' : List (String × Json)} {name : String} {v : Variant} {x : Json}
    {k : String} (hkind : ("kind", .string k) ∈ fs) (hv : (k, v) ∈ kindNames)
    (hname : name ∉ "kind" :: fieldNames v) (hfs : fs'.Perm ((name, x) :: fs)) {e : ElementSpec}
    (he : element (Json.object fs).reading = .ok e) :
    element (Json.object fs').reading = .ok e := by
  have hvalues {n : String} (hn : n ∈ "kind" :: fieldNames v) :
      (valuesOf n (Json.memberReadings fs)).Perm (valuesOf n (Json.memberReadings fs')) := by
    have hne : name ≠ n := by
      rintro rfl
      exact hname hn
    have hperm := valuesOf_perm hfs n
    rw [valuesOf_cons, if_neg hne] at hperm
    rw [valuesOf_memberReadings, valuesOf_memberReadings]
    exact (hperm.map _).symm
  rw [Json.reading] at he ⊢
  obtain ⟨v', s, hkind', hfill, hfinish⟩ := element_eq_ok.1 he
  obtain rfl : v = v' := by
    have hmem : (Json.string k).reading ∈ valuesOf "kind" (Json.memberReadings fs) := by
      rw [valuesOf_memberReadings]
      exact List.mem_map_of_mem (mem_valuesOf.2 hkind)
    generalize valuesOf "kind" (Json.memberReadings fs) = rs at hkind' hmem
    cases hkind' with
    | once hr =>
      rw [← List.mem_singleton.1 hmem, kind_reading hv] at hr
      exact Except.ok.inj hr
  have hfield {α : Type} {decode : Reading → Decoded α} {n : String} {slot : Option α}
      (ht : Takes decode none (fieldValues v n (Json.memberReadings fs)) slot) :
      Takes decode none (fieldValues v n (Json.memberReadings fs')) slot :=
    ht.field fun hn htakes => htakes.perm (hvalues (List.mem_cons_of_mem _ hn))
  refine element_eq_ok.2 ⟨v, s, hkind'.perm (hvalues List.mem_cons_self), ?_, hfinish⟩
  exact ⟨hfield hfill.relation, hfield hfill.lastKeyColumn, hfield hfill.buildKey,
    hfield hfill.probeKey, hfield hfill.leftIsBuild, hfield hfill.function, hfield hfill.arity,
    hfield hfill.target⟩

/-- Another value for one member that is decoded to the same leaves every slot as it was. -/
theorem Takes.replace {α : Type} {decode : Reading → Decoded α} {slot : Option α} {name k : String}
    {x y : Json} {as bs : List (String × Json)}
    (h : k = name → ∀ a, decode x.reading = .ok a → decode y.reading = .ok a)
    (ht : Takes decode none (valuesOf name (Json.memberReadings (as ++ (k, x) :: bs))) slot) :
    Takes decode none (valuesOf name (Json.memberReadings (as ++ (k, y) :: bs))) slot := by
  rw [valuesOf_memberReadings] at ht ⊢
  generalize hrs : (valuesOf name (as ++ (k, x) :: bs)).map Json.reading = rs at ht
  cases ht with
  | absent =>
    have hnone := valuesOf_eq_nil.1 (List.map_eq_nil_iff.1 hrs)
    have hnone' : valuesOf name (as ++ (k, y) :: bs) = [] := by
      refine valuesOf_eq_nil.2 ?_
      simp only [List.forall_mem_append, List.forall_mem_cons] at hnone ⊢
      exact hnone
    rw [hnone']
    exact .absent none
  | once hr =>
    obtain ⟨u, hu, rfl⟩ := List.map_eq_singleton_iff.1 hrs
    rcases valuesOf_replace y hu with ⟨hk, rfl, hy⟩ | ⟨-, hy⟩
    · rw [hy]
      exact .once (h hk _ hr)
    · rw [hy]
      exact .once hr

theorem document_elements {as bs : List (String × Json)} {x y : Json}
    (h : ∀ es, list element x.reading = .ok es → list element y.reading = .ok es) {d : Document}
    (hd : document (Json.object (as ++ ("elements", x) :: bs)).reading = .ok d) :
    document (Json.object (as ++ ("elements", y) :: bs)).reading = .ok d := by
  rw [Json.reading] at hd ⊢
  obtain ⟨s, hfill, hrest⟩ := document_eq_ok.1 hd
  refine document_eq_ok.2 ⟨s,
    ⟨?_, hfill.elements.replace fun _ => h, hfill.edges.replace fun hk => ?_,
      hfill.strata.replace fun hk => ?_, hfill.invalidation.replace fun hk => ?_,
      hfill.rescan.replace fun hk => ?_⟩,
    hrest⟩
  · have hknown := hfill.known
    simp only [known_memberReadings, List.forall_mem_append, List.forall_mem_cons] at hknown ⊢
    exact hknown
  all_goals exact absurd hk (by decide)

end Decode

theorem Json.Immaterial.document_eq_ok {v w : Json} (h : Immaterial v w) {d : Document}
    (hd : Decode.document v.reading = .ok d) : Decode.document w.reading = .ok d := by
  cases h with
  | leaveOut h hleft => exact Decode.document_leaveOut h hleft hd
  | @addMember as bs es es' fs fs' k name v x hkind hv hname _ hfs =>
    refine Decode.document_elements (fun es has => ?_) hd
    rw [reading_array] at has ⊢
    refine Decode.list_eq_ok_of_forall₂ ?_ has
    exact List.rel_append (List.forall₂_same.2 fun _ _ _ ha => ha)
      (.cons (fun e => Decode.element_addMember hkind hv hname hfs)
        (List.forall₂_same.2 fun _ _ _ ha => ha))

/-- **Decoding ignores the order of members.** A text that is decoded is the text of some value. Two
values that differ only in the order of members, at any depth, are decoded to the same document or
not at all, however they are written. And a document is decoded as before when empty sections are
left out of its object, or its elements get members that are neither their kind nor a field of
theirs. -/
theorem Document.decode_members :
    (∀ s d, decode s = .ok d → ∃ v : Json, v.IsText s) ∧
      ∀ {v w : Json} {s t : String}, v.IsText s → w.IsText t →
        (Rearranged v w → ∀ d, decode s = .ok d ↔ decode t = .ok d) ∧
          (Relation.ReflTransGen Json.Immaterial v w → ∀ d, decode s = .ok d →
            decode t = .ok d) := by
  refine ⟨fun s d => exists_isText_of_decode, fun {v w s t} hs ht => ?_⟩
  simp only [decode_eq_ok hs, decode_eq_ok ht]
  constructor
  · intro h d
    exact ⟨fun hd => ⟨h.legible _ hd.1, Decode.blind_document.eq_ok h d hd.2⟩,
      fun hd => ⟨h.symm.legible _ hd.1, Decode.blind_document.eq_ok h.symm d hd.2⟩⟩
  · intro h d hd
    clear ht
    induction h with
    | refl => exact hd
    | tail _ hstep ih => exact ⟨hstep.legible _ ih.1, hstep.document_eq_ok ih.2⟩

/-- The kind of an element behind its field, the sections in the opposite order; and no sections but
the elements, with a member in the element that only other kinds have a field for. -/
theorem Document.decode_members_input :
    let d : Document := { elements := [.input "r"] }
    let element := Json.object [("relation", .string "r"), ("kind", .string "input")]
    let padded :=
      Json.object [("kind", .string "input"), ("arity", .string "x"), ("relation", .string "r")]
    decode (Json.object [("rescan", .array []), ("invalidation", .array []), ("strata", .array []),
      ("edges", .array []), ("elements", .array [element])]).compact = .ok d ∧
      decode (Json.object [("elements", .array [padded])]).compact = .ok d := by
  intro d element padded
  have hd : decode d.toJson.compact = .ok d :=
    decode_compact (d.legible 123) (Decode.document_reading d)
  have hsame := fun w : Json => decode_members.2 d.toJson.isText_compact w.isText_compact
  constructor
  · refine ((hsame _).1 ?_ d).1 hd
    have helement :
        Rearranged (Json.object [("kind", .string "input"), ("relation", .string "r")]) element :=
      .members (.swap _ _ _)
    exact .trans (@Rearranged.member _ _ "elements" [] _ (@Rearranged.item _ _ [] [] helement))
      (.members (List.reverse_perm _).symm)
  · refine (hsame _).2 ?_ d hd
    have hleave : Json.Immaterial d.toJson
        (.object [("elements",
          .array [.object [("kind", .string "input"), ("relation", .string "r")]])]) :=
      @Json.Immaterial.leaveOut _ _
        [("edges", .array []), ("strata", .array []), ("invalidation", .array []),
          ("rescan", .array [])]
        (List.perm_append_singleton _ _).symm (by simp)
    have hadd : Json.Immaterial
        (.object [("elements",
          .array [.object [("kind", .string "input"), ("relation", .string "r")]])])
        (.object [("elements", .array [padded])]) :=
      @Json.Immaterial.addMember [] [] [] [] _ _ "input" "arity" .input (.string "x")
        List.mem_cons_self (by decide) (by decide) (.inr (.inr ⟨"x", rfl⟩)) (.swap _ _ _)
    exact .tail (.single hleave) hadd

end Dataflow
