import Mathlib.Data.List.Pairwise
import Dataflow.Proofs.Wellformed

/-!
# What a certificate says

A certificate has one flag for each check, and a flag is set exactly if the graph keeps the rule of
the check. `Certificate.Decides` has the six rules, said without the checks, and
`certificate_decides` proves that the certificate of every graph that steps make decides them.

The rule for functions is about parameters and names that occur anywhere in an expression.
`Expr.Occurs` says what occurs in an expression, and the collectors of references find exactly that
(`mem_paramRefs`, `mem_freeNames`).
-/

namespace Dataflow

/-! ### Occurrences -/

namespace Expr

/-- The expressions that an expression is made of, in the order of the source. -/
def children : Expr → List Expr
  | literal .. | param .. | ident .. => []
  | tuple _ items => items
  | index _ b i => [b, i]
  | field _ b _ => [b]
  | call _ f args => f :: args
  | unary _ _ e => [e]
  | binary _ _ l r => [l, r]

/-- `a.Occurs e`: the expression `a` is `e`, or stands somewhere inside of it. -/
inductive Occurs (a : Expr) : Expr → Prop
  | here : a.Occurs a
  | child {e c : Expr} (hc : c ∈ e.children) (h : a.Occurs c) : a.Occurs e

theorem sizeOf_lt_of_mem_children {e c : Expr} (h : c ∈ e.children) : sizeOf c < sizeOf e := by
  cases e with
  | literal | param | ident => cases h
  | tuple s items =>
    have hlt : sizeOf c < sizeOf items := List.sizeOf_lt_of_mem h
    simp only [tuple.sizeOf_spec]
    omega
  | call s f args =>
    rcases List.mem_cons.1 h with rfl | h
    · simp only [call.sizeOf_spec]
      omega
    · have hlt : sizeOf c < sizeOf args := List.sizeOf_lt_of_mem h
      simp only [call.sizeOf_spec]
      omega
  | index | field | unary | binary =>
    simp only [children, List.mem_cons, List.not_mem_nil, or_false] at h
    rcases h with rfl | rfl <;> simp <;> omega

/-- What holds of an expression if it holds of its parts holds of every expression. -/
theorem induction_children {P : Expr → Prop} (h : ∀ e, (∀ c ∈ e.children, P c) → P e) (e : Expr) :
    P e :=
  h e fun c _ => induction_children h c
termination_by e
decreasing_by exact sizeOf_lt_of_mem_children ‹_›

/-- What is collected from an expression and its parts, part by part, is what occurs in it. -/
theorem mem_collect {α : Type} {collect own : Expr → List α}
    (h : ∀ e, collect e = own e ++ e.children.flatMap collect) {e : Expr} {x : α} :
    x ∈ collect e ↔ ∃ a, a.Occurs e ∧ x ∈ own a := by
  constructor
  · induction e using induction_children with
    | h e ih =>
      intro hx
      rw [h, List.mem_append, List.mem_flatMap] at hx
      rcases hx with hx | ⟨c, hc, hx⟩
      · exact ⟨e, .here, hx⟩
      · obtain ⟨a, ha, hx⟩ := ih c hc hx
        exact ⟨a, .child hc ha, hx⟩
  · rintro ⟨a, ha, hx⟩
    induction ha with
    | here => rw [h]; exact List.mem_append_left _ hx
    | child hc _ ih => rw [h]; exact List.mem_append_right _ (List.mem_flatMap.2 ⟨_, hc, ih⟩)

/-- The parameter that an expression is. -/
def ownParam : Expr → List (UInt32 × Span)
  | param s i => [(i, s)]
  | _ => []

/-- The free name that an expression is. -/
def ownName : Expr → List (String × Span)
  | ident s n => [(n, s)]
  | _ => []

theorem paramRefsAll_eq (es : List Expr) : paramRefsAll es = es.flatMap paramRefs := by
  induction es with
  | nil => simp [paramRefsAll]
  | cons e es ih => simp [paramRefsAll, ih]

theorem freeNamesAll_eq (es : List Expr) : freeNamesAll es = es.flatMap freeNames := by
  induction es with
  | nil => simp [freeNamesAll]
  | cons e es ih => simp [freeNamesAll, ih]

theorem paramRefs_eq (e : Expr) : e.paramRefs = e.ownParam ++ e.children.flatMap paramRefs := by
  cases e <;> simp [paramRefs, ownParam, children, paramRefsAll_eq]

theorem freeNames_eq (e : Expr) : e.freeNames = e.ownName ++ e.children.flatMap freeNames := by
  cases e <;> simp [freeNames, ownName, children, freeNamesAll_eq]

theorem mem_paramRefs {e : Expr} {i : UInt32} {s : Span} :
    (i, s) ∈ e.paramRefs ↔ (param s i).Occurs e := by
  rw [mem_collect paramRefs_eq]
  constructor
  · rintro ⟨a, ha, hx⟩
    cases a with
    | param s' i' =>
      cases List.mem_singleton.1 hx
      exact ha
    | _ => cases hx
  · intro h
    exact ⟨_, h, List.mem_singleton_self _⟩

theorem mem_freeNames {e : Expr} {n : String} {s : Span} :
    (n, s) ∈ e.freeNames ↔ (ident s n).Occurs e := by
  rw [mem_collect freeNames_eq]
  constructor
  · rintro ⟨a, ha, hx⟩
    cases a with
    | ident s' n' =>
      cases List.mem_singleton.1 hx
      exact ha
    | _ => cases hx
  · intro h
    exact ⟨_, h, List.mem_singleton_self _⟩

end Expr

/-! ### Functions -/

/-- No name that occurs in a function is bound by the factory. -/
def Expr.Uncaptured (f : Expr) : Prop := ∀ s n, (ident s n).Occurs f → n ∉ Pipeline.factoryLocals

/-- The functions of an element refer to parameters that they have and to no name that the factory
binds, and a map takes a parameter. -/
def Element.WellDefined (e : Element) : Prop :=
  (∀ b p left, e.kind = .join b p left → ∀ key ∈ [b, p],
    (∀ s i, (Expr.param s i).Occurs key → i = 0) ∧ key.Uncaptured) ∧
  ∀ f n, e.kind = .map f n → 1 ≤ n ∧ (∀ s i, (Expr.param s i).Occurs f → i.toNat < n) ∧ f.Uncaptured

namespace Graph

variable {g : Graph}

theorem clean_functionViolations {element : String} {role : FunctionRole} {f : Expr} {count : Nat} :
    clean (functionViolations element role f count) = true ↔
      (∀ s i, (Expr.param s i).Occurs f → i.toNat < count) ∧ f.Uncaptured := by
  have hparam (i : UInt32) (s : Span) :
      clean (if count ≤ i.toNat then [.parameter element role i count s] else []) = true ↔
        i.toNat < count := by
    rw [clean_ite_not rfl, Nat.not_le]
  have hname (n : String) (s : Span) :
      clean (if n ∈ Pipeline.factoryLocals then [.capturedName element role n s] else []) = true ↔
        n ∉ Pipeline.factoryLocals := clean_ite_not rfl
  simp only [functionViolations, clean_append, clean_flatMap, hparam, hname, Prod.forall,
    Expr.mem_paramRefs, Expr.mem_freeNames, Expr.Uncaptured]
  exact and_congr forall_comm forall_comm

theorem clean_elementFunctionViolations {e : Element} :
    clean (elementFunctionViolations e) = true ↔ e.WellDefined := by
  have hzero (i : UInt32) : i.toNat < 1 ↔ i = 0 := by
    rw [Nat.lt_one_iff, ← UInt32.toNat_inj]
    rfl
  unfold elementFunctionViolations Element.WellDefined
  cases hk : e.kind with
  | table | input | scanner => simp
  | join b p left => simp [clean_functionViolations, hzero]
  | map f n =>
    by_cases hn : n = 0
    · simp [hn, Violation.isError, Violation.level]
    · have hpos : 1 ≤ n := Nat.one_le_iff_ne_zero.2 hn
      simp [hn, hpos, clean_functionViolations]

/-- The fourth check decides whether functions are well defined. -/
theorem certificate_functions :
    g.validate.certificate.functions = true ↔ ∀ e ∈ g.elements, e.WellDefined := by
  simp only [certificate_validate, certificate, functionsViolations, clean_flatMap,
    clean_elementFunctionViolations]

end Graph

/-! ### The six rules -/

/-- Every flag of a certificate tells whether a graph keeps the rule that the flag stands for. -/
structure Certificate.Decides (c : Certificate) (g : Graph) : Prop where
  relations : c.relations = true ↔
    (∀ e ∈ g.elements, ∀ r, e.relation? = some r → isIdentifier r = true ∧ r ≠ "__proto__") ∧
      ∀ e ∈ g.elements, ∀ e' ∈ g.elements, e.id ≠ e'.id → ∀ r, e.relation? = some r →
      e'.relation? ≠ some r
  scanners : c.scanners = true ↔
    ∀ e ∈ g.elements, ∀ t, e.kind = .scanner t →
      ∃ e', g.element? t = some e' ∧ (e'.variant = .table ∨ e'.variant = .input)
  ports : c.ports = true ↔
    ∀ edge ∈ g.edges, ∃ e, g.element? edge.target = some e ∧ edge.port ∈ e.variant.inputPorts
  functions : c.functions = true ↔
    ∀ e ∈ g.elements,
      (∀ b p left, e.kind = .join b p left → ∀ key ∈ [b, p],
        (∀ s i, (Expr.param s i).Occurs key → i = 0) ∧
          ∀ s n, (Expr.ident s n).Occurs key → n ∉ Pipeline.factoryLocals) ∧
      ∀ f n, e.kind = .map f n → 1 ≤ n ∧ (∀ s i, (Expr.param s i).Occurs f → i.toNat < n) ∧
        ∀ s x, (Expr.ident s x).Occurs f → x ∉ Pipeline.factoryLocals
  strata : c.strata = true ↔
    (g.strata.map Stratum.index).Nodup ∧
    (∀ s ∈ g.strata, ∀ id ∈ s.elements, ∃ e, g.element? id = some e) ∧
      (g.strata.flatMap Stratum.elements).Nodup ∧
      ∀ e ∈ g.elements, e.variant ∈ [.input, .join, .map] → ∃ s ∈ g.strata, e.id ∈ s.elements
  lookups : c.lookups = true ↔
    ∀ t ∈ [g.invalidation, g.rescan],
      (t.map Prod.fst).Nodup ∧ ∀ p ∈ t, ∀ id ∈ p.1 :: p.2, ∃ e, g.element? id = some e

namespace Graph

variable {g : Graph}

theorem wellNamed_iff (hg : g.Built) :
    g.WellNamed ↔
      (∀ e ∈ g.elements, ∀ r, e.relation? = some r → isIdentifier r = true ∧ r ≠ "__proto__") ∧
        ∀ e ∈ g.elements, ∀ e' ∈ g.elements, e.id ≠ e'.id → ∀ r, e.relation? = some r →
        e'.relation? ≠ some r := by
  have hname {r : String} : isRelationName r = true ↔ isIdentifier r = true ∧ r ≠ "__proto__" := by
    simp [isRelationName]
  constructor
  · rintro ⟨hnames, hnodup⟩
    refine ⟨fun e he r hr => hname.1 (hnames e he r hr), fun e he e' he' hid r hr hr' => ?_⟩
    have hsymm : Std.Symm fun e e' : Element =>
        ∀ r, e.relation? = some r → ∀ r', e'.relation? = some r' → r ≠ r' :=
      ⟨fun e e' h r hr r' hr' => (h r' hr' r hr).symm⟩
    have hne : e ≠ e' := fun h => hid (congrArg Element.id h)
    exact (List.pairwise_filterMap.1 hnodup).forall he he' hne r hr r hr' rfl
  · rintro ⟨hnames, hdistinct⟩
    refine ⟨fun e he r hr => hname.2 (hnames e he r hr), List.pairwise_filterMap.2 ?_⟩
    refine (List.pairwise_map.1 hg.nodup_ids).imp_of_mem fun {e e'} he he' hid r hr r' hr' hrr' =>
      ?_
    exact hdistinct e he e' he' hid r hr (hrr' ▸ hr')

theorem wellScanned_iff :
    g.WellScanned ↔ ∀ e ∈ g.elements, ∀ t, e.kind = .scanner t →
      ∃ e', g.element? t = some e' ∧ (e'.variant = .table ∨ e'.variant = .input) := by
  simp only [WellScanned, isScannable_iff]

theorem wellStratified_iff :
    g.WellStratified ↔
      (g.strata.map Stratum.index).Nodup ∧
      (∀ s ∈ g.strata, ∀ id ∈ s.elements, ∃ e, g.element? id = some e) ∧
        (g.strata.flatMap Stratum.elements).Nodup ∧
        ∀ e ∈ g.elements, e.variant ∈ [.input, .join, .map] →
        ∃ s ∈ g.strata, e.id ∈ s.elements := by
  have hneeds (v : Variant) : v.needsStratum = true ↔ v ∈ [Variant.input, .join, .map] := by
    cases v <;> decide
  constructor
  · rintro ⟨hindices, hsome, helements, hplaced⟩
    refine ⟨hindices, fun s hs id hid => ?_, helements, fun e he hv => ?_⟩
    · exact Option.isSome_iff_exists.1 (hsome id (List.mem_flatMap.2 ⟨s, hs, hid⟩))
    · exact List.mem_flatMap.1 (hplaced e he ((hneeds _).2 hv))
  · rintro ⟨hindices, hsome, helements, hplaced⟩
    refine ⟨hindices, fun id hid => ?_, helements, fun e he hv => ?_⟩
    · obtain ⟨s, hs, hid⟩ := List.mem_flatMap.1 hid
      exact Option.isSome_iff_exists.2 (hsome s hs id hid)
    · exact List.mem_flatMap.2 (hplaced e he ((hneeds _).1 hv))

theorem wellKeyed_iff {t : LookupTable} :
    g.WellKeyed t ↔
      (t.map Prod.fst).Nodup ∧ ∀ p ∈ t, ∀ id ∈ p.1 :: p.2, ∃ e, g.element? id = some e := by
  simp only [← Option.isSome_iff_exists]
  exact ⟨fun h => ⟨h.nodup, h.isSome⟩, fun h => ⟨h.1, h.2⟩⟩

/-- **Certificates decide well-formedness.** Every flag of the certificate of a graph that steps
make is set exactly if the graph keeps the rule that the flag stands for. -/
theorem certificate_decides (steps : List BuildStep) :
    (ofSteps steps).validate.certificate.Decides (ofSteps steps) where
  relations := certificate_relations.trans (wellNamed_iff (built_ofSteps steps))
  scanners := certificate_scanners.trans wellScanned_iff
  ports := certificate_ports
  functions := certificate_functions
  strata := certificate_strata.trans wellStratified_iff
  lookups := by
    rw [List.forall_mem_cons, List.forall_mem_singleton, ← wellKeyed_iff, ← wellKeyed_iff]
    exact certificate_lookups.trans ⟨fun h => ⟨h.1, h.2⟩, fun h => ⟨h.1, h.2⟩⟩

end Graph

end Dataflow
