import Dataflow.Proofs.Building
import Dataflow.Proofs.Violations

/-!
# What the checks decide

Each flag of a certificate is a statement about the graph, said here without the checks:

* `WellNamed`: relations have admissible names, and no two elements declare one relation;
* `WellScanned`: every scanner reads a table or an input;
* `WellConnected`: every edge ends at a port that its target has;
* `WellStratified`: the strata have distinct indices and list existing elements, none of them twice,
  and every element that needs a stratum is in one;
* `WellIndexed`: in the lookup tables no key comes twice, and all keys and values exist.

The checks carry along what they have seen; what they find then depends on it, and the inductions
are over all that may have been seen.
-/

namespace Dataflow

namespace Graph

/-! ### Finding no error -/

theorem clean_iff {vs : List Violation} : clean vs = true ↔ ∀ v ∈ vs, v.isError = false := by
  simp [clean]

@[simp] theorem clean_nil : clean [] = true := rfl

@[simp] theorem clean_cons {v : Violation} {vs : List Violation} :
    clean (v :: vs) = true ↔ v.isError = false ∧ clean vs = true := by
  simp [clean]

@[simp] theorem clean_append {vs ws : List Violation} :
    clean (vs ++ ws) = true ↔ clean vs = true ∧ clean ws = true := by
  simp [clean]

@[simp] theorem clean_flatMap {α : Type} {l : List α} {f : α → List Violation} :
    clean (l.flatMap f) = true ↔ ∀ a ∈ l, clean (f a) = true := by
  simp only [clean_iff, List.mem_flatMap]
  exact ⟨fun h a ha v hv => h v ⟨a, ha, hv⟩, fun h v ⟨a, ha, hv⟩ => h a ha v hv⟩

/-- An error is reported unless a condition holds. -/
theorem clean_ite {p : Prop} [Decidable p] {v : Violation} (hv : v.isError = true) :
    clean (if p then [] else [v]) = true ↔ p := by
  split <;> simp_all

/-- An error is reported if a condition holds. -/
theorem clean_ite_not {p : Prop} [Decidable p] {v : Violation} (hv : v.isError = true) :
    clean (if p then [v] else []) = true ↔ ¬p := by
  split <;> simp_all

theorem lookup_eq_none {α β : Type} [BEq α] [LawfulBEq α] {seen : List (α × β)} {a : α} :
    seen.lookup a = none ↔ a ∉ seen.map Prod.fst := by
  simp only [List.lookup_eq_none_iff, List.mem_map, not_exists, not_and, bne_iff_ne, ne_eq]
  exact ⟨fun h p hp he => h p hp he.symm, fun h p hp he => h p hp he.symm⟩

theorem mem_of_lookup_eq_some {α β : Type} [BEq α] [LawfulBEq α] {seen : List (α × β)} {a : α}
    {b : β} (h : seen.lookup a = some b) : a ∈ seen.map Prod.fst := by
  by_cases hm : a ∈ seen.map Prod.fst
  · exact hm
  · rw [lookup_eq_none.2 hm] at h
    cases h

/-! ### Relations -/

/-- Relations have admissible names, and no two elements declare one relation. -/
structure WellNamed (g : Graph) : Prop where
  isRelationName : ∀ e ∈ g.elements, ∀ r, e.relation? = some r → isRelationName r = true
  nodup : (g.elements.filterMap Element.relation?).Nodup

theorem clean_relationViolationsFrom {seen : List (String × ElementId)} {es : List Element} :
    clean (relationViolationsFrom seen es) = true ↔
      (∀ e ∈ es, ∀ r, e.relation? = some r → isRelationName r = true) ∧
      (es.filterMap Element.relation?).Nodup ∧
      ∀ r ∈ es.filterMap Element.relation?, r ∉ seen.map Prod.fst := by
  induction es generalizing seen with
  | nil => simp [relationViolationsFrom]
  | cons e es ih =>
    unfold relationViolationsFrom
    cases hr : e.relation? with
    | none => simp [hr, ih]
    | some r =>
      dsimp only
      cases hl : seen.lookup r with
      | none =>
        have hseen := lookup_eq_none.1 hl
        simp only [clean_append, clean_nil, clean_ite (v := .relationName r) rfl, ih,
          List.filterMap_cons_some hr, List.map_cons, List.nodup_cons]
        grind
      | some first =>
        have hseen := mem_of_lookup_eq_some hl
        simp only [clean_append, clean_cons, List.filterMap_cons_some hr]
        grind [Violation.isError, Violation.level]

/-- The first check decides whether relations are well named. -/
theorem certificate_relations {g : Graph} :
    g.validate.certificate.relations = true ↔ g.WellNamed := by
  rw [certificate_validate]
  refine clean_relationViolationsFrom.trans ⟨fun h => ⟨h.1, h.2.1⟩, fun h => ⟨h.1, h.2, ?_⟩⟩
  simp

/-! ### Scanners -/

theorem isScannable_iff {g : Graph} {id : ElementId} :
    g.isScannable id = true ↔
      ∃ e, g.element? id = some e ∧ (e.variant = .table ∨ e.variant = .input) := by
  unfold isScannable
  cases g.element? id with
  | none => simp
  | some e => cases hv : e.variant <;> simp [hv, Variant.isScannable]

/-- Every scanner reads a table or an input. -/
def WellScanned (g : Graph) : Prop :=
  ∀ e ∈ g.elements, ∀ t, e.kind = .scanner t → g.isScannable t = true

/-- The second check decides whether scanners are well scanned. -/
theorem certificate_scanners {g : Graph} :
    g.validate.certificate.scanners = true ↔ g.WellScanned := by
  simp only [certificate_validate, certificate, scannerViolations, clean_flatMap, WellScanned]
  refine forall₂_congr fun e _ => ?_
  unfold elementScannerViolations
  split
  · next t ht => simp [clean_ite (v := .scannerTarget e.id (g.label t)) rfl, ht]
  · next hk => exact iff_of_true clean_nil fun t ht => absurd ht (hk t)

/-! ### Ports -/

/-- The target of an edge has the port at which the edge ends. -/
def Accepts (g : Graph) (edge : Edge) : Prop :=
  ∃ t, g.element? edge.target = some t ∧ edge.port ∈ t.variant.inputPorts

/-- Every edge ends at a port that its target has. -/
def WellConnected (g : Graph) : Prop := ∀ edge ∈ g.edges, g.Accepts edge

theorem clean_tableEdgeViolations {e : Element} {o : OutputPort} :
    clean (tableEdgeViolations e o) = true := by
  unfold tableEdgeViolations
  split <;> rfl

theorem clean_edgeViolations {g : Graph} {e : Element} {edge : Edge} :
    clean (g.edgeViolations e edge) = true ↔ g.Accepts edge := by
  unfold edgeViolations Accepts
  cases ht : g.element? edge.target with
  | none => simp [Violation.isError, Violation.level]
  | some t => simp [clean_ite (v := .edgePort t.identity t.variant edge.port) rfl]

/-- The third check decides whether edges are well connected. -/
theorem certificate_ports {g : Graph} :
    g.validate.certificate.ports = true ↔ g.WellConnected := by
  simp only [certificate_validate, certificate, portViolations, clean_flatMap, clean_append,
    clean_tableEdgeViolations, clean_edgeViolations, implies_true, true_and, WellConnected, edges,
    List.mem_flatMap]
  constructor
  · rintro h edge ⟨e, he, hm⟩
    exact h e he edge hm
  · intro h e he edge hm
    exact h edge ⟨e, he, hm⟩

/-! ### Strata -/

/-- The strata have distinct indices and list elements that exist, none of them twice, and every
element that needs a stratum is in one. -/
structure WellStratified (g : Graph) : Prop where
  nodup_indices : (g.strata.map Stratum.index).Nodup
  isSome : ∀ id ∈ g.strata.flatMap Stratum.elements, (g.element? id).isSome = true
  nodup_elements : (g.strata.flatMap Stratum.elements).Nodup
  placed : ∀ e ∈ g.elements, e.variant.needsStratum = true →
    e.id ∈ g.strata.flatMap Stratum.elements

section Strata

variable {g : Graph} {index : Nat} {placed : List (ElementId × Nat)} {id : ElementId}

/-- What is placed after a stratum: its existing elements, and all that were placed before. -/
theorem mem_memberViolations_placed {ids : List ElementId} :
    id ∈ (g.memberViolations index placed ids).2.map Prod.fst ↔
      (id ∈ ids ∧ (g.element? id).isSome = true) ∨ id ∈ placed.map Prod.fst := by
  induction ids generalizing placed with
  | nil => simp [memberViolations]
  | cons i ids ih =>
    unfold memberViolations
    split
    · next hi =>
      have hi : (g.element? i).isSome = false := by simpa using hi
      simp only [ih, List.mem_cons]
      -- the hypothesis holds for all lists placed before, and would be instantiated without end
      clear ih
      grind
    · next hi =>
      have hi : (g.element? i).isSome = true := by simpa [Option.isSome_iff_ne_none] using hi
      simp only [ih, List.map_cons, List.mem_cons]
      clear ih
      grind

theorem clean_memberViolations {ids : List ElementId} :
    clean (g.memberViolations index placed ids).1 = true ↔
      (∀ id ∈ ids, (g.element? id).isSome = true) ∧ ids.Nodup ∧
      ∀ id ∈ ids, id ∉ placed.map Prod.fst := by
  induction ids generalizing placed with
  | nil => simp [memberViolations]
  | cons i ids ih =>
    unfold memberViolations
    split
    · next hi =>
      have hi : (g.element? i).isSome = false := by simpa using hi
      simp only [clean_cons]
      clear ih
      grind [Violation.isError, Violation.level]
    · next hi =>
      have hi : (g.element? i).isSome = true := by simpa [Option.isSome_iff_ne_none] using hi
      cases hl : placed.lookup i with
      | none =>
        have hseen := lookup_eq_none.1 hl
        simp only [clean_append, clean_nil, ih, List.map_cons, List.nodup_cons]
        clear ih
        grind
      | some first =>
        have hseen := mem_of_lookup_eq_some hl
        simp only [clean_append, clean_cons]
        clear ih
        grind [Violation.isError, Violation.level]

theorem mem_stratumViolations_placed {indices : List Nat} {strata : List Stratum} :
    id ∈ (g.stratumViolations indices placed strata).2.map Prod.fst ↔
      (id ∈ strata.flatMap Stratum.elements ∧ (g.element? id).isSome = true) ∨
        id ∈ placed.map Prod.fst := by
  induction strata generalizing indices placed with
  | nil => simp [stratumViolations]
  | cons s strata ih =>
    simp only [stratumViolations, ih, mem_memberViolations_placed, List.flatMap_cons,
      List.mem_append]
    clear ih
    grind

theorem clean_stratumViolations {indices : List Nat} {strata : List Stratum} :
    clean (g.stratumViolations indices placed strata).1 = true ↔
      ((strata.map Stratum.index).Nodup ∧ ∀ i ∈ strata.map Stratum.index, i ∉ indices) ∧
      (∀ id ∈ strata.flatMap Stratum.elements, (g.element? id).isSome = true) ∧
      (strata.flatMap Stratum.elements).Nodup ∧
      ∀ id ∈ strata.flatMap Stratum.elements, id ∉ placed.map Prod.fst := by
  induction strata generalizing indices placed with
  | nil => simp [stratumViolations]
  | cons s strata ih =>
    simp only [stratumViolations, clean_append, clean_ite_not (v := .stratumTwice s.index) rfl, ih,
      clean_memberViolations, mem_memberViolations_placed, List.flatMap_cons, List.nodup_append,
      List.mem_append, List.map_cons, List.nodup_cons, List.mem_cons]
    clear ih
    grind

theorem clean_unplacedViolations {e : Element} :
    clean (unplacedViolations placed e) = true ↔
      (e.variant.needsStratum = true → e.id ∈ placed.map Prod.fst) := by
  rw [unplacedViolations, clean_ite_not (v := .unplaced e.identity e.variant) rfl, Bool.and_eq_true,
    not_and, Option.isNone_iff_eq_none, lookup_eq_none, Decidable.not_not]

end Strata

/-- The fifth check decides whether elements are well stratified. -/
theorem certificate_strata {g : Graph} :
    g.validate.certificate.strata = true ↔ g.WellStratified := by
  simp only [certificate_validate, certificate, strataViolations, clean_append, clean_flatMap,
    clean_stratumViolations, clean_unplacedViolations, mem_stratumViolations_placed, List.map_nil,
    List.not_mem_nil, or_false]
  constructor
  · rintro ⟨⟨⟨hindices, _⟩, hsome, hnodup, _⟩, hplaced⟩
    exact ⟨hindices, hsome, hnodup, fun e he hn => (hplaced e he hn).1⟩
  · intro h
    refine ⟨⟨⟨h.nodup_indices, by simp⟩, h.isSome, h.nodup_elements, by simp⟩, fun e he hn => ?_⟩
    exact ⟨h.placed e he hn, h.isSome _ (h.placed e he hn)⟩

/-! ### Lookup tables -/

/-- The keys of a lookup table are distinct, and its keys and values exist. -/
structure WellKeyed (g : Graph) (t : LookupTable) : Prop where
  nodup : (t.map Prod.fst).Nodup
  isSome : ∀ p ∈ t, ∀ id ∈ p.1 :: p.2, (g.element? id).isSome = true

/-- Both lookup tables are in order. -/
structure WellIndexed (g : Graph) : Prop where
  invalidation : g.WellKeyed g.invalidation
  rescan : g.WellKeyed g.rescan

theorem wellKeyed_cons {g : Graph} {p : ElementId × List ElementId} {t : LookupTable} :
    g.WellKeyed (p :: t) ↔
      (p.1 ∉ t.map Prod.fst ∧ ∀ id ∈ p.1 :: p.2, (g.element? id).isSome = true) ∧
      g.WellKeyed t := by
  constructor
  · rintro ⟨hnodup, hsome⟩
    rw [List.map_cons, List.nodup_cons] at hnodup
    rw [List.forall_mem_cons] at hsome
    exact ⟨⟨hnodup.1, hsome.1⟩, hnodup.2, hsome.2⟩
  · rintro ⟨⟨hkey, hsome⟩, h⟩
    exact ⟨List.nodup_cons.2 ⟨hkey, h.nodup⟩, List.forall_mem_cons.2 ⟨hsome, h.isSome⟩⟩

theorem clean_lookupViolationsFrom {g : Graph} {role : LookupRole} {keys : List ElementId}
    {t : LookupTable} :
    clean (g.lookupViolationsFrom role keys t) = true ↔
      g.WellKeyed t ∧ ∀ key ∈ t.map Prod.fst, key ∉ keys := by
  induction t generalizing keys with
  | nil => exact iff_of_true clean_nil ⟨⟨List.nodup_nil, by simp⟩, by simp⟩
  | cons p t ih =>
    have hmember (id : ElementId) :
        clean (if (g.element? id).isNone then [.lookupMember role id] else []) = true ↔
        (g.element? id).isSome = true := by
      rw [clean_ite_not rfl]
      simp [Option.isSome_iff_ne_none]
    simp only [lookupViolationsFrom, clean_append,
      clean_ite_not (v := .lookupKeyTwice role (g.label p.1)) rfl, clean_flatMap, hmember, ih,
      wellKeyed_cons, List.map_cons]
    clear ih
    grind

/-- The last check decides whether lookup tables are well indexed. -/
theorem certificate_lookups {g : Graph} :
    g.validate.certificate.lookups = true ↔ g.WellIndexed := by
  simp only [certificate_validate, certificate, lookupViolations, clean_append,
    clean_lookupViolationsFrom]
  exact ⟨fun h => ⟨h.1.1, h.2.1⟩, fun h => ⟨⟨h.1, by simp⟩, h.2, by simp⟩⟩

/-! ### Codes -/

section Codes

variable {g : Graph} {v : Violation}

/-- What is reported unless a condition holds. -/
theorem code_of_mem_ite {p : Prop} [Decidable p] {w : Violation} {cs : List Code} (hw : w.code ∈ cs)
    (h : v ∈ if p then [] else [w]) : v.code ∈ cs := by
  split at h
  · cases h
  · rwa [List.mem_singleton.1 h]

/-- What is reported if a condition holds. -/
theorem code_of_mem_ite_not {p : Prop} [Decidable p] {w : Violation} {cs : List Code}
    (hw : w.code ∈ cs) (h : v ∈ if p then [w] else []) : v.code ∈ cs := by
  split at h
  · rwa [List.mem_singleton.1 h]
  · cases h

theorem code_of_mem_relationViolationsFrom {seen : List (String × ElementId)} {es : List Element}
    (h : v ∈ relationViolationsFrom seen es) : v.code ∈ [Code.relationName, .relationTwice] := by
  induction es generalizing seen with
  | nil => cases h
  | cons e es ih =>
    unfold relationViolationsFrom at h
    split at h
    · exact ih h
    · simp only [List.mem_append] at h
      rcases h with (h | h) | h
      · exact code_of_mem_ite (by simp [Violation.code]) h
      · split at h <;> simp_all [Violation.code]
      · exact ih h

theorem code_of_mem_relationViolations (h : v ∈ g.relationViolations) :
    v.code ∈ [Code.relationName, .relationTwice] :=
  code_of_mem_relationViolationsFrom h

theorem code_of_mem_scannerViolations (h : v ∈ g.scannerViolations) :
    v.code ∈ [Code.scannerTarget] := by
  obtain ⟨e, _, h⟩ := List.mem_flatMap.1 h
  unfold elementScannerViolations at h
  split at h
  · exact code_of_mem_ite (by simp [Violation.code]) h
  · cases h

theorem code_of_mem_edgeViolations {e : Element} {edge : Edge} (h : v ∈ g.edgeViolations e edge) :
    v.code ∈ [Code.port] := by
  unfold edgeViolations at h
  split at h
  · simp_all [Violation.code]
  · exact code_of_mem_ite (by simp [Violation.code]) h

theorem code_of_mem_functionViolations {element : String} {role : FunctionRole} {f : Expr}
    {count : Nat} (h : v ∈ functionViolations element role f count) :
    v.code ∈ [Code.parameter, .capturedName] := by
  unfold functionViolations at h
  simp only [List.mem_append, List.mem_flatMap] at h
  rcases h with ⟨p, _, h⟩ | ⟨p, _, h⟩
  · exact code_of_mem_ite_not (by simp [Violation.code]) h
  · exact code_of_mem_ite_not (by simp [Violation.code]) h

theorem code_of_mem_functionsViolations (h : v ∈ g.functionsViolations) :
    v.code ∈ [Code.arity, .parameter, .capturedName] := by
  obtain ⟨e, _, h⟩ := List.mem_flatMap.1 h
  unfold elementFunctionViolations at h
  split at h
  · rcases List.mem_append.1 h with h | h
    · exact List.mem_cons_of_mem _ (code_of_mem_functionViolations h)
    · exact List.mem_cons_of_mem _ (code_of_mem_functionViolations h)
  · split at h
    · simp_all [Violation.code]
    · exact List.mem_cons_of_mem _ (code_of_mem_functionViolations h)
  · cases h

theorem code_of_mem_memberViolations {index : Nat} {placed : List (ElementId × Nat)}
    {ids : List ElementId} (h : v ∈ (g.memberViolations index placed ids).1) :
    v.code ∈ [Code.listedTwice, .unplaced] := by
  induction ids generalizing placed with
  | nil => cases h
  | cons id ids ih =>
    unfold memberViolations at h
    split at h
    · rcases List.mem_cons.1 h with rfl | h
      · simp [Violation.code]
      · exact ih h
    · rcases List.mem_append.1 h with h | h
      · split at h <;> simp_all [Violation.code]
      · exact ih h

theorem code_of_mem_stratumViolations {indices : List Nat} {placed : List (ElementId × Nat)}
    {strata : List Stratum} (h : v ∈ (g.stratumViolations indices placed strata).1) :
    v.code ∈ [Code.listedTwice, .unplaced] := by
  induction strata generalizing indices placed with
  | nil => cases h
  | cons s strata ih =>
    simp only [stratumViolations, List.mem_append] at h
    rcases h with (h | h) | h
    · exact code_of_mem_ite_not (by simp [Violation.code]) h
    · exact code_of_mem_memberViolations h
    · exact ih h

theorem code_of_mem_strataViolations (h : v ∈ g.strataViolations) :
    v.code ∈ [Code.listedTwice, .unplaced] := by
  rcases List.mem_append.1 h with h | h
  · exact code_of_mem_stratumViolations h
  · obtain ⟨e, _, h⟩ := List.mem_flatMap.1 h
    exact code_of_mem_ite_not (by simp [Violation.code]) h

theorem code_of_mem_lookupViolationsFrom {role : LookupRole} {keys : List ElementId}
    {t : LookupTable} (h : v ∈ g.lookupViolationsFrom role keys t) : v.code ∈ [Code.lookup] := by
  induction t generalizing keys with
  | nil => cases h
  | cons p t ih =>
    simp only [lookupViolationsFrom, List.mem_append, List.mem_flatMap] at h
    rcases h with (h | ⟨id, _, h⟩) | h
    · exact code_of_mem_ite_not (by simp [Violation.code]) h
    · exact code_of_mem_ite_not (by simp [Violation.code]) h
    · exact ih h

theorem code_of_mem_lookupViolations (h : v ∈ g.lookupViolations) : v.code ∈ [Code.lookup] := by
  rcases List.mem_append.1 h with h | h
  · exact code_of_mem_lookupViolationsFrom h
  · exact code_of_mem_lookupViolationsFrom h

end Codes

/-! ### Certificates -/

/-- What the checks decide about the shape of a graph; the functions of its elements are left aside.
-/
structure WellShaped (g : Graph) : Prop where
  named : g.WellNamed
  scanned : g.WellScanned
  connected : g.WellConnected
  stratified : g.WellStratified
  indexed : g.WellIndexed

/-- A graph that passes all checks is well shaped. -/
theorem WellShaped.of_allPass {g : Graph} (h : g.validate.certificate.allPass = true) :
    g.WellShaped := by
  simp only [Certificate.allPass, Certificate.obligations, List.all_cons, List.all_nil,
    Bool.and_true, Bool.and_eq_true] at h
  obtain ⟨hr, hs, hp, _, ht, hl⟩ := h
  exact ⟨certificate_relations.1 hr, certificate_scanners.1 hs, certificate_ports.1 hp,
    certificate_strata.1 ht, certificate_lookups.1 hl⟩

end Graph

end Dataflow
