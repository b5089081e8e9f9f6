import Mathlib.Data.List.Nodup
import Dataflow.Proofs.Generation

/-!
# Names of elements, or the first clash

Elements are known by their relation or by their number in decimal, and a relation may look like a
number. If no two elements are known by the same, each gets what it is known by as its name, and
names tell elements apart. If two are, the first clash is reported: the least number whose element
is known by the same as one before it, and this one, of which there is only one
(`Graph.named_or_clash`).
-/

namespace Dataflow

/-- Naming fails at an element that is known by the same as one before it, where all before it were
named. -/
theorem Names.exists_of_assign_eq_error {owners : List (String × ElementId)} {es : List Element}
    {err : GenerateError} (h : assign owners es = .error err) :
    ∃ before e after first, es = before ++ e :: after ∧ (∃ ns, assign owners before = .ok ns) ∧
      (e.identity, first) ∈ owners ++ before.map (fun d => (d.identity, d.id)) ∧
      err = .nameCollision e.identity first e.id := by
  induction es generalizing owners with
  | nil => cases h
  | cons e es ih =>
    unfold assign at h
    cases hl : owners.lookup e.identity with
    | some first =>
      rw [hl] at h
      obtain ⟨l, l', rfl, -⟩ := List.lookup_eq_some_iff.1 hl
      exact ⟨[], e, es, first, rfl, ⟨[], rfl⟩, by simp, (Except.error.inj h).symm⟩
    | none =>
      rw [hl] at h
      cases hrest : assign ((e.identity, e.id) :: owners) es with
      | ok ns =>
        rw [hrest] at h
        cases h
      | error err' =>
        rw [hrest] at h
        obtain rfl : err' = err := Except.error.inj h
        obtain ⟨before, e', after, first, rfl, ⟨ns, hns⟩, hmem, herr⟩ := ih hrest
        refine ⟨e :: before, e', after, first, rfl, ⟨e.identity :: ns, ?_⟩, ?_, herr⟩
        · rw [assign, hl, hns]
          rfl
        · rw [List.map_cons]
          exact List.perm_middle.mem_iff.2 hmem

/-- Members of a list without repetition are known from their positions. -/
theorem eq_of_getElem?_eq {l : List String} (h : l.Nodup) {i j : Nat} {n : String}
    (hi : l[i]? = some n) (hj : l[j]? = some n) : i = j := by
  have hlt : i < l.length := (List.getElem?_eq_some_iff.1 hi).1
  exact (List.getElem?_inj hlt h).1 (hi.trans hj.symm)

namespace Graph

variable {g : Graph} {name name' : String} {first second first' second' : ElementId}

/-! ### What elements are known by -/

/-- What the element with a number is known by: the relation of a table or input, and else the
number in decimal. -/
def knownAs? (g : Graph) (id : ElementId) : Option String :=
  (g.element? id).map fun e => e.relation?.getD (toString id)

/-- No two elements are known by the same. -/
def KnownApart (g : Graph) : Prop := ∀ i j n, g.knownAs? i = some n → g.knownAs? j = some n → i = j

theorem Built.knownAs?_eq (h : g.Built) (id : ElementId) :
    g.knownAs? id = (g.elements.map Element.identity)[id]? := by
  rw [List.getElem?_map, knownAs?]
  cases he : g.element? id with
  | none =>
    have hnone : g.elements[id]? = none := he
    rw [hnone, Option.map_none, Option.map_none]
  | some e =>
    have hsome : g.elements[id]? = some e := he
    rw [hsome, Option.map_some, Option.map_some, Element.identity, h.id_eq he]

theorem Built.nodup_iff_knownApart (h : g.Built) :
    (g.elements.map Element.identity).Nodup ↔ g.KnownApart := by
  simp only [KnownApart, h.knownAs?_eq]
  constructor
  · intro hnodup i j n hi hj
    exact eq_of_getElem?_eq hnodup hi hj
  · intro hapart
    rw [List.nodup_iff_getElem?_ne_getElem?]
    intro i j hlt hj heq
    have hname := List.getElem?_eq_getElem hj
    exact absurd (hapart i j _ (heq.trans hname) hname) (Nat.ne_of_lt hlt)

/-! ### The first clash -/

/-- The first clash of a graph: `second` is the least number whose element is known by the same as
one before it, they are known by `name`, and `first` is the only number before `second` that is. -/
structure FirstClash (g : Graph) (name : String) (first second : ElementId) : Prop where
  lt : first < second
  first_eq : g.knownAs? first = some name
  second_eq : g.knownAs? second = some name
  unique : ∀ i < second, g.knownAs? i = some name → i = first
  least : ∀ i j n, i < j → j < second → g.knownAs? i = some n → g.knownAs? j ≠ some n

namespace FirstClash

theorem second_le (h : g.FirstClash name first second) (h' : g.FirstClash name' first' second') :
    second' ≤ second := by
  by_contra hlt
  exact h'.least first second name h.lt (Nat.lt_of_not_le hlt) h.first_eq h.second_eq

/-- There is only one first clash. -/
theorem eq (h : g.FirstClash name first second) (h' : g.FirstClash name' first' second') :
    name = name' ∧ first = first' ∧ second = second' := by
  obtain rfl : second = second' := Nat.le_antisymm (h'.second_le h) (h.second_le h')
  obtain rfl : name = name' := Option.some.inj (h.second_eq.symm.trans h'.second_eq)
  exact ⟨rfl, h'.unique first h.lt h.first_eq, rfl⟩

/-- Numbers in decimal do not clash with each other, so that one of the two is known by its
relation. -/
theorem exists_relation (h : g.FirstClash name first second) :
    ∃ id e, (id = first ∨ id = second) ∧ g.element? id = some e ∧ e.relation? = some name := by
  have hknown {id : ElementId} (hid : g.knownAs? id = some name) :
      (∃ e, g.element? id = some e ∧ e.relation? = some name) ∨ name = toString id := by
    obtain ⟨e, he, hname⟩ := Option.map_eq_some_iff.1 hid
    cases hr : e.relation? with
    | none => exact .inr (by simpa [hr] using hname.symm)
    | some r => exact .inl ⟨e, he, by simpa [hr] using hname⟩
  rcases hknown h.first_eq with ⟨e, he⟩ | hfirst
  · exact ⟨first, e, .inl rfl, he⟩
  · rcases hknown h.second_eq with ⟨e, he⟩ | hsecond
    · exact ⟨second, e, .inr rfl, he⟩
    · exact absurd (toString_injective (hfirst.symm.trans hsecond)) (Nat.ne_of_lt h.lt)

end FirstClash

/-- Naming fails with the first clash. -/
theorem Built.exists_firstClash (h : g.Built) {err : GenerateError}
    (herr : Names.ofGraph g = .error err) :
    ∃ name first second, err = .nameCollision name first second ∧
    g.FirstClash name first second := by
  have hassign : Names.assign [] g.elements = .error err := by
    cases ha : Names.assign [] g.elements with
    | ok ns => simp [Names.ofGraph, ha, bind, Except.bind, pure, Except.pure] at herr
    | error err' => simpa [Names.ofGraph, ha, bind, Except.bind] using herr
  obtain ⟨before, e, after, first, hes, ⟨ns, hns⟩, hmem, rfl⟩ :=
    Names.exists_of_assign_eq_error hassign
  have hnodup : (before.map Element.identity).Nodup := (Names.assign_eq_ok.1 hns).1.1
  have hsecond : g.element? before.length = some e := by simp [element?, hes]
  have hbefore {i : ElementId} (hi : i < before.length) :
      g.knownAs? i = (before.map Element.identity)[i]? := by
    rw [h.knownAs?_eq, hes, List.map_append, List.getElem?_append_left (by simpa using hi)]
  -- the element before is found at its position, which is its number
  obtain ⟨d, hd, hpair⟩ := List.mem_map.1 hmem
  obtain ⟨hidentity, rfl⟩ := Prod.mk.inj hpair
  obtain ⟨i, hi, rfl⟩ := List.mem_iff_getElem.1 hd
  have hfirst : g.element? i = some before[i] := by
    rw [element?, hes, List.getElem?_append_left hi, List.getElem?_eq_getElem hi]
  rw [h.id_eq hfirst, h.id_eq hsecond]
  have hfirst_eq : g.knownAs? i = some e.identity := by
    rw [hbefore hi, List.getElem?_map, List.getElem?_eq_getElem hi, Option.map_some, hidentity]
  refine ⟨e.identity, i, before.length, rfl, hi, hfirst_eq, ?_, ?_, ?_⟩
  · rw [knownAs?, hsecond, Option.map_some, Element.identity, h.id_eq hsecond]
  · intro j hj hname
    rw [hbefore hj] at hname
    rw [hbefore hi] at hfirst_eq
    exact eq_of_getElem?_eq hnodup hname hfirst_eq
  · intro j k n hlt hk hj hname
    rw [hbefore (Nat.lt_trans hlt hk)] at hj
    rw [hbefore hk] at hname
    exact absurd (eq_of_getElem?_eq hnodup hj hname) (Nat.ne_of_lt hlt)

theorem Built.exists_names_iff (h : g.Built) : (∃ ns, Names.ofGraph g = .ok ns) ↔ g.KnownApart := by
  simp only [Names.ofGraph_eq_ok, exists_and_left, exists_eq, and_true, h.nodup_iff_knownApart]

theorem Built.ofGraph_eq_error_iff (h : g.Built) {err : GenerateError} :
    Names.ofGraph g = .error err ↔
      ∃ name first second, err = .nameCollision name first second ∧
      g.FirstClash name first second := by
  refine ⟨h.exists_firstClash, ?_⟩
  rintro ⟨name, first, second, rfl, hclash⟩
  cases hnames : Names.ofGraph g with
  | ok ns =>
    have hapart := h.exists_names_iff.1 ⟨ns, hnames⟩
    exact absurd (hapart first second name hclash.first_eq hclash.second_eq)
      (Nat.ne_of_lt hclash.lt)
  | error err =>
    obtain ⟨name', first', second', rfl, hclash'⟩ := h.exists_firstClash hnames
    obtain ⟨rfl, rfl, rfl⟩ := hclash.eq hclash'
    rfl

theorem Built.find_eq (h : g.Built) {ns : Names} (hns : Names.ofGraph g = .ok ns) (id : ElementId) :
    ns.find id = (g.knownAs? id).elim (.error (.unknownElement id)) .ok := by
  obtain ⟨-, rfl⟩ := Names.ofGraph_eq_ok.1 hns
  rw [h.knownAs?_eq, Names.find, names]
  cases (g.elements.map Element.identity)[id]? <;> rfl

/-- **Elements are named apart, or the first clash is reported.** Whatever steps made a graph, its
elements can be named exactly if no two are known by the same. Then the name of an element is what
it is known by, a number without an element has none, and different elements have different names.
Otherwise the error is the first clash, in which one of the two elements is known by its relation.
-/
theorem named_or_clash (steps : List BuildStep) :
    let g := ofSteps steps
    ((∃ ns, Names.ofGraph g = .ok ns) ↔ g.KnownApart) ∧
    (∀ ns, Names.ofGraph g = .ok ns →
      (∀ id, ns.find id = (g.knownAs? id).elim (.error (.unknownElement id)) .ok) ∧
      ∀ i j n, ns.find i = .ok n → ns.find j = .ok n → i = j) ∧
    (∀ err, Names.ofGraph g = .error err ↔
      ∃ name first second, err = .nameCollision name first second ∧
      g.FirstClash name first second) ∧
    ∀ name first second, g.FirstClash name first second →
      ∃ id e, (id = first ∨ id = second) ∧ g.element? id = some e ∧ e.relation? = some name := by
  intro g
  have hg : g.Built := built_ofSteps steps
  refine ⟨hg.exists_names_iff, fun ns hns => ⟨hg.find_eq hns, ?_⟩, fun err =>
    hg.ofGraph_eq_error_iff,
    fun name first second hclash => hclash.exists_relation⟩
  intro i j n hi hj
  have hknown {id : ElementId} (hid : ns.find id = .ok n) : g.knownAs? id = some n := by
    rw [hg.find_eq hns] at hid
    cases hk : g.knownAs? id with
    | none => simp [hk] at hid
    | some m => simpa [hk] using hid
  exact hg.exists_names_iff.1 ⟨ns, hns⟩ i j n (hknown hi) (hknown hj)

end Graph

end Dataflow
