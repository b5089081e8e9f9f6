import Mathlib.Data.List.Forall2
import Dataflow.Document.Load
import Dataflow.Proofs.Building

/-!
# What loading gives

A document is loaded wholly or not at all. Which documents are loaded, and into which graphs, is
said here without the loader:

* `Denotes`: the element that a reference leads to;
* `Loadable`: all references lead somewhere, and all functions can be parsed;
* `Describes`: a graph has what the document lists, entry by entry, with every reference replaced by
  the element that it leads to.

The loader collects values and faults side by side. `Checked.Exact` says that they agree, a value
being missing exactly if there is a fault. All combinators keep it, so it holds of the whole
document.
-/

namespace Dataflow

/-! ### Values and faults -/

namespace Checked

variable {ε α β γ : Type}

/-- A value is missing exactly if something was wrong. -/
def Exact (x : Checked ε α) : Prop := x.faults = [] ↔ x.value.isSome = true

theorem exact_ok (a : α) : (ok a : Checked ε α).Exact := by simp [Exact, ok]

theorem Exact.map {x : Checked ε α} (h : x.Exact) (f : α → β) : (x.map f).Exact := by
  unfold Exact Checked.map
  rw [Option.isSome_map]
  exact h

theorem Exact.map₂ {x : Checked ε α} {y : Checked ε β} (hx : x.Exact) (hy : y.Exact)
    (f : α → β → γ) :
    (Checked.map₂ f x y).Exact := by
  unfold Exact at *
  simp only [Checked.map₂, List.append_eq_nil_iff, hx, hy]
  cases x.value <;> simp

theorem Exact.bind {x : Checked ε α} {f : α → Checked ε β} (hx : x.Exact) (hf : ∀ a, (f a).Exact) :
    (x.bind f).Exact := by
  unfold Exact at *
  unfold Checked.bind
  cases hv : x.value with
  | none => simp_all
  | some a => simp_all

theorem exact_traverse {f : α → Checked ε β} (hf : ∀ a, (f a).Exact) (l : List α) :
    (traverse f l).Exact := by
  induction l with
  | nil => exact exact_ok []
  | cons a l ih => exact (hf a).map₂ ih List.cons

theorem map_eq_some {f : α → β} {x : Checked ε α} {b : β} :
    (x.map f).value = some b ↔ ∃ a, x.value = some a ∧ f a = b := by
  simp only [Checked.map, Option.map_eq_some_iff]

theorem map₂_eq_some {f : α → β → γ} {x : Checked ε α} {y : Checked ε β} {c : γ} :
    (map₂ f x y).value = some c ↔ ∃ a, x.value = some a ∧ ∃ b, y.value = some b ∧ f a b = c := by
  simp only [map₂, Option.bind_eq_some_iff, Option.map_eq_some_iff]

theorem bind_eq_some {x : Checked ε α} {f : α → Checked ε β} {b : β} :
    (x.bind f).value = some b ↔ ∃ a, x.value = some a ∧ (f a).value = some b := by
  unfold Checked.bind
  cases x.value <;> simp

/-- A list has values if every member has one, and then these. -/
theorem traverse_eq_some {f : α → Checked ε β} {R : α → γ → Prop} {v : γ → β}
    (h : ∀ a b, (f a).value = some b ↔ ∃ c, R a c ∧ v c = b) (l : List α) (bs : List β) :
    (traverse f l).value = some bs ↔ ∃ cs, List.Forall₂ R l cs ∧ cs.map v = bs := by
  induction l generalizing bs with
  | nil => simp [traverse, ok]
  | cons a l ih =>
    simp only [traverse, map₂_eq_some, h, ih, List.forall₂_cons_left_iff]
    constructor
    · rintro ⟨b, ⟨c, hc, rfl⟩, bs, ⟨cs, hcs, rfl⟩, rfl⟩
      exact ⟨c :: cs, ⟨c, cs, hc, hcs, rfl⟩, rfl⟩
    · rintro ⟨_, ⟨c, cs, hc, hcs, rfl⟩, rfl⟩
      exact ⟨v c, ⟨c, hc, rfl⟩, cs.map v, ⟨cs, hcs, rfl⟩, rfl⟩

end Checked

/-! ### References -/

/-- The element that a scanner is to read. -/
def ElementSpec.target? : ElementSpec → Option ElementRef
  | scanner t => some t
  | _ => none

/-- The functions of an element, as source text. -/
def ElementSpec.functions : ElementSpec → List String
  | join b p _ => [b, p]
  | map f _ => [f]
  | _ => []

namespace Document

/-- `d.Denotes ref id`: a reference leads to an element. A position leads to the element there, and
a name to the first table or input that declares it. -/
inductive Denotes (d : Document) : ElementRef → ElementId → Prop
  | index {i : UInt32} (h : i.toNat < d.elements.length) : d.Denotes (.index i) i.toNat
  | name {n : String} {id : ElementId} {e : ElementSpec} (he : d.elements[id]? = some e)
      (hn : e.relation? = some n)
      (hfirst : ∀ j < id, ∀ e', d.elements[j]? = some e' → e'.relation? ≠ some n) :
        d.Denotes (.name n) id

/-- A reference leads somewhere: to a position that there is, or to a relation that some table or
input declares. -/
def Resolvable (d : Document) : ElementRef → Prop
  | .index i => i.toNat < d.elements.length
  | .name n => ∃ e ∈ d.elements, e.relation? = some n

variable {d : Document}

theorem denotes_index {i : UInt32} {id : ElementId} :
    d.Denotes (.index i) id ↔ i.toNat < d.elements.length ∧ id = i.toNat := by
  constructor
  · intro h
    cases h with
    | index h => exact ⟨h, rfl⟩
  · rintro ⟨h, rfl⟩
    exact .index h

theorem denotes_name {n : String} {id : ElementId} :
    d.Denotes (.name n) id ↔
      (∃ e, d.elements[id]? = some e ∧ e.relation? = some n) ∧
        ∀ j < id, ∀ e', d.elements[j]? = some e' → e'.relation? ≠ some n := by
  constructor
  · intro h
    cases h with
    | name he hn hfirst => exact ⟨⟨_, he, hn⟩, hfirst⟩
  · rintro ⟨⟨e, he, hn⟩, hfirst⟩
    exact .name he hn hfirst

theorem resolve?_eq_some {ref : ElementRef} {id : ElementId} :
    d.resolve? ref = some id ↔ d.Denotes ref id := by
  cases ref with
  | index i =>
    rw [denotes_index]
    simp only [resolve?, Option.ite_none_right_eq_some, Option.some.injEq, @eq_comm _ id]
  | name n =>
    rw [denotes_name, resolve?, List.findIdx?_eq_some_iff_getElem]
    constructor
    · rintro ⟨hid, he, hfirst⟩
      refine ⟨⟨_, List.getElem?_eq_getElem hid, eq_of_beq he⟩, ?_⟩
      intro j hj e' he' hn
      obtain ⟨hlt, rfl⟩ := List.getElem?_eq_some_iff.1 he'
      exact hfirst j hj (beq_iff_eq.2 hn)
    · rintro ⟨⟨e, he, hn⟩, hfirst⟩
      obtain ⟨hid, rfl⟩ := List.getElem?_eq_some_iff.1 he
      refine ⟨hid, beq_iff_eq.2 hn, ?_⟩
      intro j hj hj'
      exact hfirst j hj _ (List.getElem?_eq_getElem (by omega)) (eq_of_beq hj')

theorem isSome_resolve? {ref : ElementRef} : (d.resolve? ref).isSome = true ↔ d.Resolvable ref := by
  cases ref with
  | index i =>
    unfold resolve? Resolvable
    split <;> simp_all
  | name n => simp [resolve?, Resolvable, List.findIdx?_isSome]

/-- A reference leads somewhere exactly if there is an element that it leads to. -/
theorem resolvable_iff {ref : ElementRef} : d.Resolvable ref ↔ ∃ id, d.Denotes ref id := by
  simp only [← isSome_resolve?, Option.isSome_iff_exists, resolve?_eq_some]

theorem Denotes.lt {ref : ElementRef} {id : ElementId} (h : d.Denotes ref id) :
    id < d.elements.length := by
  cases h with
  | index h => exact h
  | name he => exact (List.getElem?_eq_some_iff.1 he).1

theorem resolve_value (role : RefRole) (ref : ElementRef) :
    (d.resolve role ref).value = d.resolve? ref := by
  unfold resolve
  split <;> simp_all [Checked.ok]

theorem exact_resolve (role : RefRole) (ref : ElementRef) : (d.resolve role ref).Exact := by
  unfold resolve
  split
  · exact Checked.exact_ok _
  · simp [Checked.Exact]

theorem resolve_eq_some {role : RefRole} {ref : ElementRef} {id : ElementId} :
    (d.resolve role ref).value = some id ↔ d.Denotes ref id := by
  rw [resolve_value, resolve?_eq_some]

theorem exact_resolveAll (role : RefRole) (refs : List ElementRef) :
    (d.resolveAll role refs).Exact :=
  Checked.exact_traverse (exact_resolve role) refs

theorem resolveAll_eq_some {role : RefRole} {refs : List ElementRef} {ids : List ElementId} :
    (d.resolveAll role refs).value = some ids ↔ List.Forall₂ d.Denotes refs ids := by
  have h :=
    Checked.traverse_eq_some (f := d.resolve role) (R := d.Denotes) (v := id)
      (by simp [resolve_eq_some]) refs ids
  simpa [resolveAll] using h

end Document

/-! ### Functions -/

/-- `ParsesTo source e`: a source is parsed into an expression, without fault. -/
def ParsesTo (source : String) (e : Expr) : Prop := Expr.parse source = ⟨some e, []⟩

/-- There is a tree unless there is a fault. -/
theorem Expr.parse_isOk_iff (source : String) :
    (Expr.parse source).isOk = true ↔ (Expr.parse source).errors = [] := by
  unfold Expr.parse Parsed.isOk
  dsimp only
  split <;> simp

theorem parsesTo_iff {source : String} {e : Expr} :
    ParsesTo source e ↔ (Expr.parse source).isOk = true ∧ (Expr.parse source).expr = some e := by
  rw [Expr.parse_isOk_iff, ParsesTo, and_comm]
  cases Expr.parse source
  simp

theorem exists_parsesTo_iff {source : String} :
    (∃ e, ParsesTo source e) ↔ (Expr.parse source).isOk = true := by
  simp only [parsesTo_iff, exists_and_left, and_iff_left_iff_imp, Parsed.isOk, Bool.and_eq_true]
  rintro ⟨hsome, -⟩
  exact Option.isSome_iff_exists.1 hsome

namespace Document

variable {d : Document}

theorem exact_parseField (position : Nat) (field : ExprField) (source : String) :
    (parseField position field source).Exact := by
  unfold Checked.Exact parseField
  dsimp only
  rw [List.map_eq_nil_iff, ← Expr.parse_isOk_iff]
  split
  · next hok =>
    obtain ⟨e, he⟩ := exists_parsesTo_iff.2 hok
    simp [hok, (parsesTo_iff.1 he).2]
  · next hok => simp [hok]

theorem parseField_eq_some {position : Nat} {field : ExprField} {source : String} {e : Expr} :
    (parseField position field source).value = some e ↔ ParsesTo source e := by
  rw [parsesTo_iff, parseField]
  dsimp only
  split <;> simp_all

/-! ### Elements and edges -/

/-- `d.Specifies spec kind`: an element of this kind is what the document describes. -/
inductive Specifies (d : Document) : ElementSpec → ElementKind → Prop
  | table (r : String) (k : UInt32) : d.Specifies (.table r k) (.table r k.toNat)
  | input (r : String) : d.Specifies (.input r) (.input r)
  | join {b p : String} {build probe : Expr} (left : Bool) (hb : ParsesTo b build)
      (hp : ParsesTo p probe) :
      d.Specifies (.join b p left) (.join build probe left)
  | map {f : String} {function : Expr} (arity : UInt32) (hf : ParsesTo f function) :
      d.Specifies (.map f arity) (.map function arity.toNat)
  | scanner {t : ElementRef} {target : ElementId} (ht : d.Denotes t target) :
      d.Specifies (.scanner t) (.scanner target)

/-- `d.SpecifiesEdge spec edge`: an edge runs between the elements that the document names, to the
port that it names. -/
structure SpecifiesEdge (d : Document) (spec : EdgeSpec) (edge : Edge) : Prop where
  source : d.Denotes spec.source edge.source
  target : d.Denotes spec.target edge.target
  port : edge.port = spec.port

/-- `d.SpecifiesStratum spec s`: a stratum lists the elements that the document names, in its order.
-/
structure SpecifiesStratum (d : Document) (spec : StratumSpec) (s : Stratum) : Prop where
  index : s.index = spec.index.toNat
  elements : List.Forall₂ d.Denotes spec.elements s.elements

/-- `d.SpecifiesLookup spec p`: an entry has the key and the values that the document names, in its
order. -/
structure SpecifiesLookup (d : Document) (spec : LookupSpec) (p : ElementId × List ElementId) :
    Prop where
  key : d.Denotes spec.key p.1
  values : List.Forall₂ d.Denotes spec.values p.2

theorem exact_loadElement (position : Nat) (spec : ElementSpec) :
    (d.loadElement position spec).Exact := by
  cases spec with
  | table | input => exact Checked.exact_ok _
  | join b p left => exact (exact_parseField ..).map₂ (exact_parseField ..) _
  | map f n => exact (exact_parseField ..).map _
  | scanner t => exact (exact_resolve ..).map _

theorem loadElement_eq_some {position : Nat} {spec : ElementSpec} {kind : ElementKind} :
    (d.loadElement position spec).value = some kind ↔ d.Specifies spec kind := by
  cases spec with
  | table r k =>
    constructor
    · rintro ⟨⟩
      exact .table r k
    · intro h
      cases h
      rfl
  | input r =>
    constructor
    · rintro ⟨⟩
      exact .input r
    · intro h
      cases h
      rfl
  | join b p left =>
    simp only [loadElement, Checked.map₂_eq_some, parseField_eq_some]
    constructor
    · rintro ⟨build, hb, probe, hp, rfl⟩
      exact .join left hb hp
    · intro h
      cases h with
      | join _ hb hp => exact ⟨_, hb, _, hp, rfl⟩
  | map f arity =>
    simp only [loadElement, Checked.map_eq_some, parseField_eq_some]
    constructor
    · rintro ⟨function, hf, rfl⟩
      exact .map arity hf
    · intro h
      cases h with
      | map _ hf => exact ⟨_, hf, rfl⟩
  | scanner t =>
    simp only [loadElement, Checked.map_eq_some, resolve_eq_some]
    constructor
    · rintro ⟨target, ht, rfl⟩
      exact .scanner ht
    · intro h
      cases h with
      | scanner ht => exact ⟨_, ht, rfl⟩

theorem exact_loadElements (position : Nat) (specs : List ElementSpec) :
    (d.loadElements position specs).Exact := by
  induction specs generalizing position with
  | nil => exact Checked.exact_ok _
  | cons spec specs ih => exact ((exact_loadElement position spec).map _).map₂ (ih (position + 1)) _

theorem loadElements_eq_some {position : Nat} {specs : List ElementSpec} {steps : List BuildStep} :
    (d.loadElements position specs).value = some steps ↔
      ∃ kinds, List.Forall₂ d.Specifies specs kinds ∧ kinds.map BuildStep.add = steps := by
  induction specs generalizing position steps with
  | nil => simp [loadElements, Checked.ok]
  | cons spec specs ih =>
    simp only [loadElements, Checked.map₂_eq_some, Checked.map_eq_some, loadElement_eq_some, ih,
      List.forall₂_cons_left_iff]
    constructor
    · rintro ⟨_, ⟨kind, hkind, rfl⟩, _, ⟨kinds, hkinds, rfl⟩, rfl⟩
      exact ⟨kind :: kinds, ⟨kind, kinds, hkind, hkinds, rfl⟩, rfl⟩
    · rintro ⟨_, ⟨kind, kinds, hkind, hkinds, rfl⟩, rfl⟩
      exact ⟨_, ⟨kind, hkind, rfl⟩, _, ⟨kinds, hkinds, rfl⟩, rfl⟩

/-- The step that makes an edge. -/
def edgeStep (edge : Edge) : BuildStep := .connect edge.source edge.target edge.port

/-- The step that adds a stratum. -/
def stratumStep (s : Stratum) : BuildStep := .stratum s.index s.elements

theorem loadEdge_eq_some (spec : EdgeSpec) (step : BuildStep) :
    (d.loadEdge spec).value = some step ↔
      ∃ edge, d.SpecifiesEdge spec edge ∧ edgeStep edge = step := by
  simp only [loadEdge, Checked.map₂_eq_some, resolve_eq_some]
  constructor
  · rintro ⟨s, hs, t, ht, rfl⟩
    exact ⟨⟨s, t, spec.port⟩, ⟨hs, ht, rfl⟩, rfl⟩
  · rintro ⟨⟨s, t, p⟩, ⟨hs, ht, rfl⟩, rfl⟩
    exact ⟨s, hs, t, ht, rfl⟩

/-- What follows for each value from the entry that it belongs to holds of all values. -/
theorem forall_mem_of_forall₂ {α β : Type} {R : α → β → Prop} {P : β → Prop}
    (hR : ∀ a b, R a b → P b) {l : List α} {bs : List β} (h : List.Forall₂ R l bs) :
    ∀ b ∈ bs, P b := by
  induction h with
  | nil => nofun
  | cons hab _ ih => exact List.forall_mem_cons.2 ⟨hR _ _ hab, ih⟩

/-- Edges start at elements of the document. -/
theorem source_lt {specs : List EdgeSpec} {edges : List Edge}
    (h : List.Forall₂ d.SpecifiesEdge specs edges) :
    ∀ edge ∈ edges, edge.source < d.elements.length :=
  forall_mem_of_forall₂ (fun _ _ hedge => hedge.source.lt) h

theorem loadStratum_eq_some (spec : StratumSpec) (step : BuildStep) :
    (d.loadStratum spec).value = some step ↔
      ∃ s, d.SpecifiesStratum spec s ∧ stratumStep s = step := by
  simp only [loadStratum, Checked.map_eq_some, resolveAll_eq_some]
  constructor
  · rintro ⟨ids, hids, rfl⟩
    exact ⟨⟨_, ids⟩, ⟨rfl, hids⟩, rfl⟩
  · rintro ⟨⟨i, ids⟩, ⟨rfl, hids⟩, rfl⟩
    exact ⟨ids, hids, rfl⟩

theorem exact_lookup (k v : RefRole) (spec : LookupSpec)
    (step : ElementId → List ElementId → BuildStep) :
    ((d.resolve k spec.key).bind fun key => (d.resolveAll v spec.values).map (step key)).Exact :=
  (exact_resolve k spec.key).bind fun _ => (exact_resolveAll v spec.values).map _

/-- The entries of both lookup tables are loaded alike. -/
theorem lookup_eq_some (k v : RefRole) (spec : LookupSpec)
    (step : ElementId → List ElementId → BuildStep) (b : BuildStep) :
    ((d.resolve k spec.key).bind fun key => (d.resolveAll v spec.values).map (step key)).value =
      some b ↔
      ∃ p, d.SpecifiesLookup spec p ∧ step p.1 p.2 = b := by
  simp only [Checked.bind_eq_some, Checked.map_eq_some, resolve_eq_some, resolveAll_eq_some]
  constructor
  · rintro ⟨key, hkey, vs, hvs, rfl⟩
    exact ⟨(key, vs), ⟨hkey, hvs⟩, rfl⟩
  · rintro ⟨⟨key, vs⟩, ⟨hkey, hvs⟩, rfl⟩
    exact ⟨key, hkey, vs, hvs, rfl⟩

/-! ### Documents -/

/-- The steps that make a graph: its elements first, then the edges between them, then the rest. -/
def assembly (kinds : List ElementKind) (edges : List Edge) (strata : List Stratum)
    (invalidation rescan : LookupTable) : List BuildStep :=
  kinds.map .add ++ edges.map edgeStep ++ strata.map stratumStep ++
    invalidation.map (fun p => .invalidate p.1 p.2) ++ rescan.map fun p => .rescan p.1 p.2

theorem exact_steps (d : Document) : d.steps.Exact := by
  have hedges :=
    Checked.exact_traverse (f := d.loadEdge) fun e =>
      (exact_resolve _ e.source).map₂ (exact_resolve ..) _
  have hstrata :=
    Checked.exact_traverse (f := d.loadStratum) fun s => (exact_resolveAll _ s.elements).map _
  have hinvalidation :=
    Checked.exact_traverse (f := d.loadInvalidation) fun l => exact_lookup _ _ l _
  have hrescan := Checked.exact_traverse (f := d.loadRescan) fun l => exact_lookup _ _ l _
  exact ((((exact_loadElements 0 d.elements).map₂ (hedges d.edges) _).map₂
    (hstrata d.strata) _).map₂
    (hinvalidation d.invalidation) _).map₂ (hrescan d.rescan) _

theorem steps_eq_some {steps : List BuildStep} :
    d.steps.value = some steps ↔
      ∃ kinds, List.Forall₂ d.Specifies d.elements kinds ∧
      ∃ edges, List.Forall₂ d.SpecifiesEdge d.edges edges ∧
      ∃ strata, List.Forall₂ d.SpecifiesStratum d.strata strata ∧
      ∃ invalidation, List.Forall₂ d.SpecifiesLookup d.invalidation invalidation ∧
      ∃ rescan, List.Forall₂ d.SpecifiesLookup d.rescan rescan ∧
        assembly kinds edges strata invalidation rescan = steps := by
  have hedges := Checked.traverse_eq_some (f := d.loadEdge) loadEdge_eq_some d.edges
  have hstrata := Checked.traverse_eq_some (f := d.loadStratum) loadStratum_eq_some d.strata
  have hinvalidation := Checked.traverse_eq_some (f := d.loadInvalidation)
    (fun l => lookup_eq_some _ _ l BuildStep.invalidate) d.invalidation
  have hrescan := Checked.traverse_eq_some (f := d.loadRescan)
    (fun l => lookup_eq_some _ _ l BuildStep.rescan) d.rescan
  simp only [Document.steps, List.foldl_cons, List.foldl_nil, Checked.map₂_eq_some,
    loadElements_eq_some, hedges, hstrata, hinvalidation, hrescan, List.append_eq,
    exists_exists_and_eq_and, assembly]
  constructor
  · rintro ⟨_, ⟨_, ⟨_, ⟨kinds, hk, edges, he, rfl⟩, strata, hs, rfl⟩, invalidation, hi, rfl⟩,
      rescan, hr, rfl⟩
    exact ⟨kinds, hk, edges, he, strata, hs, invalidation, hi, rescan, hr, rfl⟩
  · rintro ⟨kinds, hk, edges, he, strata, hs, invalidation, hi, rescan, hr, rfl⟩
    exact ⟨_, ⟨_, ⟨_, ⟨kinds, hk, edges, he, rfl⟩, strata, hs, rfl⟩, invalidation, hi, rfl⟩, rescan,
      hr, rfl⟩

/-- The references in a document. -/
def references (d : Document) : List ElementRef :=
  d.elements.filterMap ElementSpec.target? ++ d.edges.flatMap (fun e => [e.source, e.target]) ++
    d.strata.flatMap StratumSpec.elements ++ (d.invalidation ++ d.rescan).flatMap fun l =>
      l.key :: l.values

/-- The functions in a document. -/
def functions (d : Document) : List String := d.elements.flatMap ElementSpec.functions

/-- All references of a document lead somewhere, and all its functions can be parsed. -/
structure Loadable (d : Document) : Prop where
  references : ∀ ref ∈ d.references, d.Resolvable ref
  functions : ∀ f ∈ d.functions, (Expr.parse f).isOk = true

/-- A list has values if every member has one. -/
theorem exists_forall₂_iff {α β : Type} {R : α → β → Prop} {l : List α} :
    (∃ bs, List.Forall₂ R l bs) ↔ ∀ a ∈ l, ∃ b, R a b := by
  induction l with
  | nil => simp
  | cons a l ih =>
    simp only [List.forall₂_cons_left_iff, List.forall_mem_cons, ← ih]
    constructor
    · rintro ⟨_, b, bs, hb, hbs, rfl⟩
      exact ⟨⟨b, hb⟩, bs, hbs⟩
    · rintro ⟨⟨b, hb⟩, bs, hbs⟩
      exact ⟨b :: bs, b, bs, hb, hbs, rfl⟩

theorem exists_specifies_iff {spec : ElementSpec} :
    (∃ kind, d.Specifies spec kind) ↔
      (∀ ref ∈ spec.target?, d.Resolvable ref) ∧
      ∀ f ∈ spec.functions, (Expr.parse f).isOk = true := by
  cases spec with
  | table r k => exact iff_of_true ⟨_, .table r k⟩ ⟨nofun, nofun⟩
  | input r => exact iff_of_true ⟨_, .input r⟩ ⟨nofun, nofun⟩
  | join b p left =>
    simp only [ElementSpec.target?, ElementSpec.functions, ← exists_parsesTo_iff,
      List.forall_mem_cons]
    constructor
    · rintro ⟨_, h⟩
      cases h with
      | join _ hb hp => exact ⟨nofun, ⟨_, hb⟩, ⟨_, hp⟩, nofun⟩
    · rintro ⟨-, ⟨build, hb⟩, ⟨probe, hp⟩, -⟩
      exact ⟨_, .join left hb hp⟩
  | map f arity =>
    simp only [ElementSpec.target?, ElementSpec.functions, ← exists_parsesTo_iff,
      List.forall_mem_singleton]
    constructor
    · rintro ⟨_, h⟩
      cases h with
      | map _ hf => exact ⟨nofun, _, hf⟩
    · rintro ⟨-, function, hf⟩
      exact ⟨_, .map arity hf⟩
  | scanner t =>
    simp only [ElementSpec.target?, Option.mem_some_iff, forall_eq', resolvable_iff]
    constructor
    · rintro ⟨_, h⟩
      cases h with
      | scanner ht => exact ⟨⟨_, ht⟩, nofun⟩
    · rintro ⟨⟨target, ht⟩, -⟩
      exact ⟨_, .scanner ht⟩

theorem exists_specifiesEdge_iff {spec : EdgeSpec} :
    (∃ edge, d.SpecifiesEdge spec edge) ↔ d.Resolvable spec.source ∧ d.Resolvable spec.target := by
  simp only [resolvable_iff]
  constructor
  · rintro ⟨edge, h⟩
    exact ⟨⟨_, h.source⟩, _, h.target⟩
  · rintro ⟨⟨s, hs⟩, t, ht⟩
    exact ⟨⟨s, t, spec.port⟩, hs, ht, rfl⟩

theorem exists_denotes_iff {refs : List ElementRef} :
    (∃ ids, List.Forall₂ d.Denotes refs ids) ↔ ∀ ref ∈ refs, d.Resolvable ref := by
  simp only [exists_forall₂_iff, resolvable_iff]

theorem exists_specifiesStratum_iff {spec : StratumSpec} :
    (∃ s, d.SpecifiesStratum spec s) ↔ ∀ ref ∈ spec.elements, d.Resolvable ref := by
  rw [← exists_denotes_iff]
  constructor
  · rintro ⟨s, h⟩
    exact ⟨_, h.elements⟩
  · rintro ⟨ids, h⟩
    exact ⟨⟨_, ids⟩, rfl, h⟩

theorem exists_specifiesLookup_iff {spec : LookupSpec} :
    (∃ p, d.SpecifiesLookup spec p) ↔ ∀ ref ∈ spec.key :: spec.values, d.Resolvable ref := by
  rw [List.forall_mem_cons, ← exists_denotes_iff, resolvable_iff]
  constructor
  · rintro ⟨p, h⟩
    exact ⟨⟨_, h.key⟩, _, h.values⟩
  · rintro ⟨⟨key, hkey⟩, values, hvalues⟩
    exact ⟨(key, values), hkey, hvalues⟩

theorem forall_references {P : ElementRef → Prop} :
    (∀ ref ∈ d.references, P ref) ↔
      (∀ spec ∈ d.elements, ∀ ref ∈ spec.target?, P ref) ∧
      (∀ spec ∈ d.edges, P spec.source ∧ P spec.target) ∧
      (∀ spec ∈ d.strata, ∀ ref ∈ spec.elements, P ref) ∧
      (∀ spec ∈ d.invalidation, ∀ ref ∈ spec.key :: spec.values, P ref) ∧
      ∀ spec ∈ d.rescan, ∀ ref ∈ spec.key :: spec.values, P ref := by
  have htargets : (∀ ref ∈ d.elements.filterMap ElementSpec.target?, P ref) ↔
      ∀ spec ∈ d.elements, ∀ ref ∈ spec.target?, P ref := by
    simp only [List.mem_filterMap, Option.mem_def]
    exact ⟨fun h spec hspec ref href => h ref ⟨spec, hspec, href⟩, fun h ref ⟨spec, hspec, href⟩ =>
      h spec hspec ref href⟩
  simp only [references, List.forall_mem_append, List.forall_mem_flatMap, htargets, and_assoc,
    List.forall_mem_cons, List.not_mem_nil, false_implies, implies_true, and_true]

/-- A document can be loaded if every entry of every section can. -/
theorem loadable_iff :
    d.Loadable ↔
      (∀ spec ∈ d.elements, ∃ kind, d.Specifies spec kind) ∧
      (∀ spec ∈ d.edges, ∃ edge, d.SpecifiesEdge spec edge) ∧
      (∀ spec ∈ d.strata, ∃ s, d.SpecifiesStratum spec s) ∧
      (∀ spec ∈ d.invalidation, ∃ p, d.SpecifiesLookup spec p) ∧
      ∀ spec ∈ d.rescan, ∃ p, d.SpecifiesLookup spec p := by
  simp only [exists_specifies_iff, exists_specifiesEdge_iff, exists_specifiesStratum_iff,
    exists_specifiesLookup_iff]
  constructor
  · rintro ⟨hrefs, hfunctions⟩
    obtain ⟨htargets, hrest⟩ := forall_references.1 hrefs
    exact ⟨fun spec hspec => ⟨htargets spec hspec, List.forall_mem_flatMap.1 hfunctions spec hspec⟩,
      hrest⟩
  · rintro ⟨helements, hrest⟩
    exact ⟨forall_references.2 ⟨fun spec hspec => (helements spec hspec).1, hrest⟩,
      List.forall_mem_flatMap.2 fun spec hspec => (helements spec hspec).2⟩

/-- There are steps for a document exactly if it can be loaded. -/
theorem isSome_steps : d.steps.value.isSome = true ↔ d.Loadable := by
  simp only [loadable_iff, ← exists_forall₂_iff, Option.isSome_iff_exists, steps_eq_some]
  constructor
  · rintro ⟨_, kinds, hk, edges, he, strata, hs, invalidation, hi, rescan, hr, -⟩
    exact ⟨⟨kinds, hk⟩, ⟨edges, he⟩, ⟨strata, hs⟩, ⟨invalidation, hi⟩, rescan, hr⟩
  · rintro ⟨⟨kinds, hk⟩, ⟨edges, he⟩, ⟨strata, hs⟩, ⟨invalidation, hi⟩, rescan, hr⟩
    exact ⟨_, kinds, hk, edges, he, strata, hs, invalidation, hi, rescan, hr, rfl⟩

/-! ### Graphs -/

/-- `d.Describes g`: a graph has what a document lists. There is an element for each one in the
document, at its position; the edges that leave an element are those listed for it, in order; and
the strata and lookup tables are those of the document. -/
structure Describes (d : Document) (g : Graph) : Prop where
  elements : List.Forall₂ d.Specifies d.elements (g.elements.map Element.kind)
  ids : g.elements.map Element.id = List.range d.elements.length
  edges : ∃ edges, List.Forall₂ d.SpecifiesEdge d.edges edges ∧
    ∀ id, g.edgesOf id = edges.filter fun edge => edge.source == id
  strata : List.Forall₂ d.SpecifiesStratum d.strata g.strata
  invalidation : List.Forall₂ d.SpecifiesLookup d.invalidation g.invalidation
  rescan : List.Forall₂ d.SpecifiesLookup d.rescan g.rescan

section Assembly

variable {kinds : List ElementKind} {edges : List Edge} {strata : List Stratum}
  {invalidation rescan : LookupTable}

theorem filterMap_assembly {α : Type} (added : BuildStep → Option α) :
    (assembly kinds edges strata invalidation rescan).filterMap added =
      kinds.filterMap (fun k => added (.add k)) ++ edges.filterMap (fun e => added (edgeStep e)) ++
        strata.filterMap (fun s => added (stratumStep s)) ++
        invalidation.filterMap (fun p => added (.invalidate p.1 p.2)) ++
        rescan.filterMap fun p => added (.rescan p.1 p.2) := by
  simp only [assembly, List.filterMap_append, List.filterMap_map]
  rfl

/-- Every edge is made if it starts at one of the elements. -/
theorem connections_assembly (h : ∀ edge ∈ edges, edge.source < kinds.length) :
    Graph.connections 0 (assembly kinds edges strata invalidation rescan) = edges := by
  have hrest :
      (edges.map edgeStep ++
        (strata.map stratumStep ++ (invalidation.map (fun p => BuildStep.invalidate p.1 p.2)
          ++ rescan.map fun p => BuildStep.rescan p.1 p.2))).filterMap BuildStep.edge? = edges := by
    simp [List.filterMap_map, Function.comp_def, BuildStep.edge?, edgeStep, stratumStep]
  simp only [assembly, List.append_assoc]
  rw [Graph.connections_add_append, Graph.connections_eq_filterMap, hrest]
  rw [hrest, Nat.zero_add]
  exact h

/-- The graph of the entries that a document describes is described by it. -/
theorem describes_assembly (hk : List.Forall₂ d.Specifies d.elements kinds)
    (he : List.Forall₂ d.SpecifiesEdge d.edges edges)
    (hs : List.Forall₂ d.SpecifiesStratum d.strata strata)
    (hi : List.Forall₂ d.SpecifiesLookup d.invalidation invalidation)
    (hr : List.Forall₂ d.SpecifiesLookup d.rescan rescan) :
    d.Describes (Graph.ofSteps (assembly kinds edges strata invalidation rescan)) := by
  generalize hsteps : assembly kinds edges strata invalidation rescan = steps
  have hkinds : (Graph.ofSteps steps).elements.map Element.kind = kinds := by
    rw [Graph.kinds_ofSteps, ← hsteps, filterMap_assembly]
    simp [BuildStep.kind?, edgeStep, stratumStep]
  have hlength : (Graph.ofSteps steps).elements.length = d.elements.length := by
    rw [hk.length_eq, ← hkinds, List.length_map]
  have hsources : ∀ edge ∈ edges, edge.source < kinds.length := hk.length_eq ▸ source_lt he
  refine
    { elements := hkinds ▸ hk
      ids := hlength ▸ (Graph.built_ofSteps steps).ids
      edges := ⟨edges, he, fun id => ?_⟩
      strata := ?_
      invalidation := ?_
      rescan := ?_ }
  · rw [Graph.edgesOf_ofSteps, ← hsteps, connections_assembly hsources]
  · rw [Graph.strata_ofSteps, ← hsteps, filterMap_assembly]
    simpa [BuildStep.stratum?, edgeStep, stratumStep] using hs
  · rw [Graph.invalidation_ofSteps, ← hsteps, filterMap_assembly]
    simpa [BuildStep.invalidation?, edgeStep, stratumStep] using hi
  · rw [Graph.rescan_ofSteps, ← hsteps, filterMap_assembly]
    simpa [BuildStep.rescan?, edgeStep, stratumStep] using hr

end Assembly

/-- There is a graph exactly if a document can be loaded. -/
theorem isSome_load : d.load.graph.isSome = true ↔ d.Loadable := by
  rw [load, Option.isSome_map]
  exact isSome_steps

/-- The graph of a document was built, and is the one that the document describes. -/
theorem describes_of_load {g : Graph} (h : d.load.graph = some g) : d.Describes g ∧ g.Built := by
  obtain ⟨steps, hsteps, rfl⟩ := Option.map_eq_some_iff.1 h
  obtain ⟨kinds, hk, edges, he, strata, hs, invalidation, hi, rescan, hr, rfl⟩ :=
    steps_eq_some.1 hsteps
  exact ⟨describes_assembly hk he hs hi hr, Graph.built_ofSteps _⟩

/-- Something is reported exactly if there is no graph. -/
theorem load_diagnostics_eq_nil : d.load.diagnostics = [] ↔ d.load.graph.isSome = true := by
  rw [load, List.map_eq_nil_iff, Option.isSome_map]
  exact exact_steps d

/-- **Loading is faithful, and all or nothing.** There is a graph exactly if all references of the
document lead somewhere and all its functions can be parsed; exactly then nothing is reported; and
the graph is the one that the document describes. -/
theorem load_faithful (d : Document) :
    (d.load.graph.isSome = true ↔ d.Loadable) ∧
    (d.load.diagnostics = [] ↔ d.load.graph.isSome = true) ∧
      ∀ g, d.load.graph = some g → d.Describes g := by
  exact ⟨isSome_load, load_diagnostics_eq_nil, fun g hg => (describes_of_load hg).1⟩

theorem load_faithful_names :
    let d : Document :=
      { elements := [.input "a", .table "t" 1, .join "$0[0]" "[$0, -1]" true, .map "$0 + $1" 2,
          .scanner (.name "t"), .input "t"]
        edges := [⟨.name "a", .index 2, .left⟩, ⟨.index 4, .index 3, .input⟩,
          ⟨.index 0, .index 2, .right⟩, ⟨.index 3, .name "t", .delta⟩]
        strata := [⟨1, [.index 2, .index 3]⟩, ⟨0, [.name "a"]⟩]
        invalidation := [⟨.name "t", [.index 2, .index 4]⟩]
        rescan := [⟨.index 4, []⟩] }
    d.Loadable ∧ d.load.diagnostics = [] ∧ ∃ g, d.load.graph = some g ∧ d.Describes g := by
  intro d
  obtain ⟨hloadable, hdiagnostics, hdescribes⟩ := load_faithful d
  have hsome : d.load.graph.isSome = true := by decide +kernel
  obtain ⟨g, hg⟩ := Option.isSome_iff_exists.1 hsome
  exact ⟨hloadable.1 hsome, hdiagnostics.2 hsome, g, hg, hdescribes g hg⟩

end Document

end Dataflow
