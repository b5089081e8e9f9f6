import Mathlib.Data.List.Nodup
import Dataflow.Proofs.Generation
import Dataflow.Proofs.Lines
import Dataflow.Proofs.Quoting

/-!
# Registries are complete

A module has an entry for every element of its graph, in the registry for its sort and under its own
name, and refers to no entry that it does not have. Neither the checks nor the strata matter to
this: elements that no stratum lists have their entry too, and those that are listed again have no
second one.

`Registered` says so of a pipeline, and `registered_of_generate` proves it of every module that is
generated. The tables and inputs come from the registries of the graph, which keep the first of
several declarations of a relation, and all else comes from the order of emission. As names are
distinct, nothing is lost in the former (`ofPairs_perm`), and nothing is lost or repeated in the
latter (`emissionOrder_perm`).
-/

namespace Dataflow

/-! ### Declarations under distinct names -/

namespace Registry

theorem insertEntry_perm {name : String} {id : ElementId} {es : List (String × ElementId)}
    (h : name ∉ es.map Prod.fst) : (insertEntry name id es).Perm ((name, id) :: es) := by
  fun_induction insertEntry name id es with
  | case1 => rfl
  | case2 n i rest hlt => rfl
  | case3 i rest hlt => simp at h
  | case4 n i rest hlt heq ih =>
    have hrest : name ∉ rest.map Prod.fst := fun hmem => h (List.mem_cons_of_mem _ hmem)
    exact ((ih hrest).cons (n, i)).trans (.swap ..)

theorem insertNew_perm {r : Registry} {name : String} {id : ElementId}
    (h : name ∉ r.entries.map Prod.fst) :
    (r.insertNew name id).entries.Perm ((name, id) :: r.entries) := by
  have hfind : (r.find? name).isSome = false := by
    rw [find?, Graph.lookup_eq_none.2 h]
    rfl
  rw [insertNew, hfind]
  exact insertEntry_perm h

theorem foldl_insertNew_perm {ps : List (String × ElementId)} {r : Registry}
    (h : ((r.entries ++ ps).map Prod.fst).Nodup) :
    (ps.foldl (fun r p => r.insertNew p.1 p.2) r).entries.Perm (r.entries ++ ps) := by
  induction ps generalizing r with
  | nil => rw [List.append_nil]; rfl
  | cons p ps ih =>
    have hperm : (r.entries ++ p :: ps).Perm (p :: r.entries ++ ps) := List.perm_middle
    have hnodup := (hperm.map Prod.fst).nodup_iff.1 h
    have hinsert : (r.insertNew p.1 p.2).entries.Perm (p :: r.entries) := by
      refine insertNew_perm fun hmem => (List.nodup_cons.1 hnodup).1 ?_
      exact List.map_append ▸ List.mem_append_left _ hmem
    have hall := hinsert.append_right ps
    exact ((ih ((hall.map Prod.fst).nodup_iff.2 hnodup)).trans hall).trans hperm.symm

/-- A registry of distinct names holds all that was declared. -/
theorem ofPairs_perm {ps : List (String × ElementId)} (h : (ps.map Prod.fst).Nodup) :
    (ofPairs ps).entries.Perm ps :=
  foldl_insertNew_perm h

end Registry

/-! ### References -/

/-- The sorts of elements that a registry is for. -/
def Section.variants : Section → List Variant
  | tables => [.table]
  | inputs => [.input]
  | operators => [.join, .map]

theorem Variant.mem_variants {v : Variant} {s : Section} (h : v.section? = some s) :
    v ∈ s.variants := by
  cases v <;> cases h <;> decide

/-- The registry that a reference leads to. -/
def Reference.registry : Reference → Section
  | entry r _ | scanner r _ => r

/-- The key under which a reference looks there. -/
def Reference.key : Reference → String
  | entry _ n | scanner _ n => n

namespace Pipeline

/-- The keys of a registry. -/
def keys (p : Pipeline) : Section → List String
  | .tables => p.tables.map Prod.fst
  | .inputs => p.inputs
  | .operators => p.operators.map Prod.fst

/-- The references in the entries of scanners and in subscriptions. -/
def references (p : Pipeline) : List Reference :=
  (p.scanners.flatMap fun s => s.2.source :: s.2.targets.map PortReference.owner) ++
    (p.wiring.flatMap StratumWiring.subscriptions).flatMap fun s => [s.source.owner, s.target.owner]

end Pipeline

namespace Graph

variable {g : Graph}

/-- The elements of some sorts. -/
def ofVariants (g : Graph) (vs : List Variant) : List Element :=
  g.elements.filter fun e => e.variant ∈ vs

/-- What the elements of some sorts become, under their names. -/
def entriesOf (g : Graph) (vs : List Variant) : List (String × Entry) :=
  (g.ofVariants vs).map fun e => (e.identity, g.entryOf e)

/-- A pipeline has one entry for every element of a graph, under its name, and refers to nothing
else. No registry has a key twice, as keys are written, every reference leads to a key of its
registry, and the lookup tables have names of elements. -/
structure Registered (g : Graph) (p : Pipeline) : Prop where
  tables : (p.tables.map fun t => (t.1, Entry.table t.2)).Perm (g.entriesOf [.table])
  inputs : (p.inputs.map fun r => (r, Entry.input)).Perm (g.entriesOf [.input])
  operators : (p.operators.map fun t => (t.1, Entry.operator t.2)).Perm (g.entriesOf [.join, .map])
  scanners : (p.scanners.map fun t => (t.1, Entry.scanner t.2)).Perm (g.entriesOf [.scanner])
  nodup : ∀ s, ((p.keys s).map Script.quote).Nodup
  nodup_scanners : ((p.scanners.map Prod.fst).map Script.quote).Nodup
  references : ∀ r ∈ p.references, r.key ∈ p.keys r.registry
  lookups : ∀ row ∈ p.invalidation ++ p.rescan, ∀ n ∈ row.1 :: row.2, ∃ e ∈ g.elements,
    e.identity = n

/-! ### Tables and inputs -/

theorem declared_eq {v : Variant} (hv : v = .table ∨ v = .input) :
    g.declared v = (g.ofVariants [v]).map fun e => (e.identity, e.id) := by
  rw [declared, ofVariants, map_filter]
  congr 1
  funext e
  unfold Element.declares? Element.identity Element.variant Element.relation?
  rcases hv with rfl | rfl <;> cases e.kind <;> simp [ElementKind.variant, ElementKind.relation?]

theorem nodup_ofVariants (h : (g.elements.map Element.identity).Nodup) (vs : List Variant) :
    ((g.ofVariants vs).map Element.identity).Nodup :=
  h.sublist (List.filter_sublist.map _)

/-- What is made of the registry of a sort is there for every element of that sort. -/
theorem ofPairs_declared_perm (h : (g.elements.map Element.identity).Nodup) {v : Variant}
    (hv : v = .table ∨ v = .input) {f : String × ElementId → String × Entry}
    (hf : ∀ e ∈ g.ofVariants [v], f (e.identity, e.id) = (e.identity, g.entryOf e)) :
    ((Registry.ofPairs (g.declared v)).entries.map f).Perm (g.entriesOf [v]) := by
  have hnodup : ((g.declared v).map Prod.fst).Nodup := by
    rw [declared_eq hv, List.map_map]
    exact nodup_ofVariants h [v]
  have hdeclared : (g.declared v).map f = g.entriesOf [v] := by
    rw [declared_eq hv, List.map_map]
    exact List.map_congr_left hf
  exact hdeclared ▸ (Registry.ofPairs_perm hnodup).map f

theorem entryOf_table (hg : g.Built) {e : Element} (he : e ∈ g.elements) (hv : e.variant = .table) :
    g.entryOf e = .table (g.lastKeyColumn e.id) := by
  unfold entryOf lastKeyColumn
  rw [hg.element?_id he, Option.map_some]
  unfold Element.variant at hv
  cases hk : e.kind <;> simp_all [ElementKind.variant]

theorem entryOf_input {e : Element} (hv : e.variant = .input) : g.entryOf e = .input := by
  unfold entryOf
  unfold Element.variant at hv
  cases hk : e.kind <;> simp_all [ElementKind.variant]

theorem tables_perm (hg : g.Built) (h : (g.elements.map Element.identity).Nodup) :
    (g.pipeline.tables.map fun t => (t.1, Entry.table t.2)).Perm (g.entriesOf [.table]) := by
  rw [pipeline, List.map_map, hg.tables]
  refine ofPairs_declared_perm h (.inl rfl) fun e he => ?_
  obtain ⟨he, hv⟩ := List.mem_filter.1 he
  rw [entryOf_table hg he (by simpa using hv)]
  rfl

theorem inputs_perm (hg : g.Built) (h : (g.elements.map Element.identity).Nodup) :
    (g.pipeline.inputs.map fun r => (r, Entry.input)).Perm (g.entriesOf [.input]) := by
  rw [pipeline, List.map_map, hg.inputs]
  refine ofPairs_declared_perm h (.inr rfl) fun e he => ?_
  rw [entryOf_input (by simpa using (List.mem_filter.1 he).2)]
  rfl

/-! ### Operators and scanners -/

/-- What is selected among the emitted entries by sort is there for every element of that sort. -/
theorem emitted_filterMap_perm (hg : g.Built) {α β : Type} {select : String × Entry → Option α}
    {view : α → β} {p : Variant → Bool} {value : Element → β}
    (h : ∀ e : Element, (select (e.identity, g.entryOf e)).map view =
      if p e.variant then some (value e) else none) :
    ((g.emitted.filterMap select).map view).Perm
      ((g.elements.filter fun e => p e.variant).map value) := by
  have hselect :
      (g.emitted.filterMap select).map view =
        (g.emissionOrder.filter fun e => p e.variant).map value := by
    rw [emitted, map_filter, List.filterMap_map, List.map_filterMap]
    congr 1
    funext e
    exact h e
  rw [hselect]
  exact ((emissionOrder_perm hg).filter _).map _

theorem operators_perm (hg : g.Built) :
    (g.pipeline.operators.map fun t => (t.1, Entry.operator t.2)).Perm
      (g.entriesOf [.join, .map]) := by
  refine emitted_filterMap_perm hg (p := fun v => v ∈ [.join, .map]) fun e => ?_
  unfold Element.variant entryOf
  cases e.kind <;> rfl

theorem scanners_perm (hg : g.Built) :
    (g.pipeline.scanners.map fun t => (t.1, Entry.scanner t.2)).Perm (g.entriesOf [.scanner]) := by
  refine emitted_filterMap_perm hg (p := fun v => v ∈ [.scanner]) fun e => ?_
  unfold Element.variant entryOf
  cases e.kind <;> rfl

/-! ### Keys -/

/-- The keys of a registry are the names of the elements that it is for. -/
theorem keys_perm (hg : g.Built) (h : (g.elements.map Element.identity).Nodup) (s : Section) :
    (g.pipeline.keys s).Perm ((g.ofVariants s.variants).map Element.identity) := by
  cases s with
  | tables =>
    have hkeys := (tables_perm hg h).map Prod.fst
    rwa [entriesOf, List.map_map, List.map_map] at hkeys
  | inputs =>
    have hkeys := (inputs_perm hg h).map Prod.fst
    have hinputs :
        (g.pipeline.inputs.map fun r => (r, Entry.input)).map Prod.fst = g.pipeline.inputs := by
      simp [Function.comp_def]
    rwa [entriesOf, hinputs, List.map_map] at hkeys
  | operators =>
    have hkeys := (operators_perm hg).map Prod.fst
    rwa [entriesOf, List.map_map, List.map_map] at hkeys

theorem nodup_keys (hg : g.Built) (h : (g.elements.map Element.identity).Nodup) (s : Section) :
    ((g.pipeline.keys s).map Script.quote).Nodup :=
  ((keys_perm hg h s).nodup_iff.2 (nodup_ofVariants h s.variants)).map fun _ _ =>
    Script.quote_injective

theorem nodup_scannerKeys (hg : g.Built) (h : (g.elements.map Element.identity).Nodup) :
    ((g.pipeline.scanners.map Prod.fst).map Script.quote).Nodup := by
  have hkeys := (scanners_perm hg).map Prod.fst
  rw [entriesOf, List.map_map, List.map_map] at hkeys
  exact (hkeys.nodup_iff.2 (nodup_ofVariants h [.scanner])).map fun _ _ => Script.quote_injective

/-! ### References -/

/-- An element that is no scanner is found in its registry under its name. -/
theorem label_mem_keys (hg : g.Built) (h : (g.elements.map Element.identity).Nodup) {id : ElementId}
    {e : Element} (he : g.element? id = some e) (hv : e.variant ≠ .scanner) :
    g.label id ∈ g.pipeline.keys (g.registry id) := by
  obtain ⟨s, hs⟩ : ∃ s, e.variant.section? = some s := by
    cases hvariant : e.variant <;> simp_all [Variant.section?]
  have hregistry : g.registry id = s := by
    rw [registry, he, Option.bind_some, hs, Option.getD_some]
  have hlabel : g.label id = e.identity := by
    rw [label, he]
  rw [hregistry, hlabel, (keys_perm hg h s).mem_iff]
  refine List.mem_map_of_mem (List.mem_filter.2 ⟨List.mem_of_getElem? he, ?_⟩)
  exact decide_eq_true (Variant.mem_variants hs)

/-- The port at which an edge ends is found. -/
theorem portRef_mem_keys (hg : g.Built) (h : (g.elements.map Element.identity).Nodup) {edge : Edge}
    (hedge : g.Accepts edge) :
    (g.portRef edge).owner.key ∈ g.pipeline.keys (g.portRef edge).owner.registry := by
  obtain ⟨e, he, hport⟩ := hedge
  refine label_mem_keys hg h he fun hv => ?_
  rw [hv] at hport
  cases hport

/-- What a scanner reads is found. -/
theorem scannerRef_mem_keys (hg : g.Built) (h : (g.elements.map Element.identity).Nodup)
    {id : ElementId} (hid : g.isScannable id = true) :
    (g.scannerRef id).key ∈ g.pipeline.keys (g.scannerRef id).registry := by
  obtain ⟨e, he, hv⟩ := isScannable_iff.1 hid
  refine label_mem_keys hg h he fun hs => ?_
  rw [hs] at hv
  simp at hv

/-- The output of an edge that is subscribed is found. -/
theorem outputPortRef_mem_keys (hg : g.Built) (h : (g.elements.map Element.identity).Nodup)
    {id : ElementId} {edge : Edge} (hedge : edge ∈ g.wiredEdges id) :
    (g.outputPortRef edge.source).owner.key ∈
      g.pipeline.keys (g.outputPortRef edge.source).owner.registry := by
  obtain ⟨e, he, hv, hmem⟩ := exists_of_mem_wiredEdges hedge
  have hsource : edge.source = id :=
    (hg.source_eq (List.mem_of_getElem? he) edge hmem).trans (hg.id_eq he)
  rw [hsource]
  refine label_mem_keys hg h he fun hs => ?_
  rw [hs] at hv
  cases hv

/-- A scanner among the entries that are emitted is one of the graph. -/
theorem exists_of_mem_scanners (hg : g.Built) {s : String × ScannerEntry}
    (hs : s ∈ g.pipeline.scanners) :
    ∃ e ∈ g.elements, ∃ t, e.kind = .scanner t ∧ s.2 = ⟨g.scannerRef t, e.edges.map g.portRef⟩ := by
  have hentry := (scanners_perm hg).mem_iff.1 (List.mem_map_of_mem hs)
  obtain ⟨e, he, heq⟩ := List.mem_map.1 hentry
  obtain ⟨he, hv⟩ := List.mem_filter.1 he
  refine ⟨e, he, ?_⟩
  have hlower := (Prod.mk.inj heq).2
  unfold entryOf at hlower
  cases hk : e.kind <;> simp_all

theorem Generable.references_mem_keys (h : g.Generable) (hg : g.Built) :
    ∀ r ∈ g.pipeline.references, r.key ∈ g.pipeline.keys r.registry := by
  intro r hr
  rcases List.mem_append.1 hr with hr | hr
  · obtain ⟨s, hs, hr⟩ := List.mem_flatMap.1 hr
    obtain ⟨e, he, t, hk, hentry⟩ := exists_of_mem_scanners hg hs
    obtain ⟨hscannable, hports⟩ := h.lowers e he t hk
    rw [hentry, List.map_map] at hr
    rcases List.mem_cons.1 hr with rfl | hr
    · exact scannerRef_mem_keys hg h.nodup hscannable
    · obtain ⟨edge, hedge, rfl⟩ := List.mem_map.1 hr
      exact portRef_mem_keys hg h.nodup (hports edge hedge)
  · obtain ⟨sub, hsub, hr⟩ := List.mem_flatMap.1 hr
    obtain ⟨w, hw, hsub⟩ := List.mem_flatMap.1 hsub
    obtain ⟨s, hs, rfl⟩ := List.mem_map.1 hw
    obtain ⟨edge, hedge, rfl⟩ := List.mem_map.1 hsub
    obtain ⟨id, hid, hedge⟩ := List.mem_flatMap.1 hedge
    have hwires := h.wires s ((strataInOrder_perm g).mem_iff.1 hs) id hid
    rw [List.mem_cons, List.mem_singleton] at hr
    rcases hr with rfl | rfl
    · exact outputPortRef_mem_keys hg h.nodup hedge
    · exact portRef_mem_keys hg h.nodup (hwires.2 edge hedge)

/-! ### Lookup tables -/

theorem exists_identity_eq_label {id : ElementId} (h : (g.element? id).isSome = true) :
    ∃ e ∈ g.elements, e.identity = g.label id := by
  obtain ⟨e, he⟩ := Option.isSome_iff_exists.1 h
  exact ⟨e, List.mem_of_getElem? he, by rw [label, he]⟩

theorem exists_of_mem_lookup {t : LookupTable}
    (h : ∀ p ∈ t, ∀ id ∈ p.1 :: p.2, (g.element? id).isSome = true) :
    ∀ row ∈ t.map fun p => (g.label p.1, p.2.map g.label), ∀ n ∈ row.1 :: row.2, ∃ e ∈ g.elements,
      e.identity = n := by
  intro row hrow n hn
  obtain ⟨p, hp, rfl⟩ := List.mem_map.1 hrow
  obtain ⟨id, hid, rfl⟩ := List.mem_map.1 (List.map_cons ▸ hn : n ∈ (p.1 :: p.2).map g.label)
  exact exists_identity_eq_label (h p hp id hid)

/-! ### Modules -/

theorem Generable.registered (h : g.Generable) (hg : g.Built) : g.Registered g.pipeline where
  tables := tables_perm hg h.nodup
  inputs := inputs_perm hg h.nodup
  operators := operators_perm hg
  scanners := scanners_perm hg
  nodup := nodup_keys hg h.nodup
  nodup_scanners := nodup_scannerKeys hg h.nodup
  references := h.references_mem_keys hg
  lookups row hrow := by
    rcases List.mem_append.1 hrow with hrow | hrow
    · exact exists_of_mem_lookup h.invalidation row hrow
    · exact exists_of_mem_lookup h.rescan row hrow

theorem length_eq_of_perm_entriesOf {l : List (String × Entry)} {vs : List Variant}
    (h : l.Perm (g.entriesOf vs)) :
    l.length = (g.ofVariants vs).length := by
  rw [h.length_eq, entriesOf, List.length_map]

theorem subscriptionCount_eq (wiring : List StratumWiring) :
    subscriptionCount wiring = (wiring.flatMap StratumWiring.subscriptions).length := by
  induction wiring with
  | nil => rfl
  | cons w wiring ih =>
    rw [List.flatMap_cons, List.length_append, ← ih]
    rfl

/-- The sizes that a module should have: the numbers of elements by sort, and the number of
subscriptions. -/
def sizes (g : Graph) (p : Pipeline) : Stats where
  tables := (g.ofVariants [.table]).length
  inputs := (g.ofVariants [.input]).length
  operators := (g.ofVariants [.join, .map]).length
  scanners := (g.ofVariants [.scanner]).length
  subscriptions := (p.wiring.flatMap StratumWiring.subscriptions).length

theorem Registered.stats_eq {p : Pipeline} (h : g.Registered p) : p.stats = g.sizes p := by
  have htables := length_eq_of_perm_entriesOf h.tables
  have hinputs := length_eq_of_perm_entriesOf h.inputs
  have hoperators := length_eq_of_perm_entriesOf h.operators
  have hscanners := length_eq_of_perm_entriesOf h.scanners
  rw [List.length_map] at htables hinputs hoperators hscanners
  rw [Pipeline.stats, sizes, htables, hinputs, hoperators, hscanners, subscriptionCount_eq]

/-- **Registries are complete and nothing dangles.** Every module that is generated from a graph
that steps make is written line by line from a pipeline that has one entry for every element and
refers to these entries only; the sizes that are reported about it are the numbers of these
elements. -/
theorem registered_of_generate (steps : List BuildStep) (o : Options) (m : Generated)
    (h : (ofSteps steps).generate o = .ok m) :
    ∃ p, Pipeline.ofGraph (ofSteps steps) = .ok p ∧ (ofSteps steps).Registered p ∧
    m.source = unlines (p.lines o) ∧
      m.stats = (ofSteps steps).sizes p := by
  have hg := built_ofSteps steps
  obtain ⟨⟨_, hgenerable⟩, rfl⟩ := (generate_eq_ok hg).1 h
  have hregistered := hgenerable.registered hg
  exact ⟨_, (Pipeline.ofGraph_eq_ok hg).2 ⟨hgenerable, rfl⟩, hregistered,
    Pipeline.source_generated o _, hregistered.stats_eq⟩

theorem registered_of_generate_unchecked :
    let steps : List BuildStep :=
      [.add (.table "t" 0), .add (.input "a"),
        .add (.join (.param default 0) (.param default 0) true), .add (.map (.param default 5) 0),
        .add (.scanner 1), .add (.scanner 0), .connect 1 2 .left, .connect 5 3 .input,
        .connect 4 0 .delta, .connect 3 9 .left, .stratum 3 [2, 2, 1, 2, 4],
        .invalidate 0 [5, 2, 2], .rescan 5 []]
    (ofSteps steps).validate.certificate.allPass = false ∧
      ∃ m, (ofSteps steps).generate {} = .ok m ∧
        ∃ p, Pipeline.ofGraph (ofSteps steps) = .ok p ∧ (ofSteps steps).Registered p ∧
          m.source = unlines (p.lines {}) ∧ m.stats = (ofSteps steps).sizes p := by
  intro steps
  have hok : ((ofSteps steps).generate {}).isOk = true := by decide +kernel
  refine ⟨by decide +kernel, ?_⟩
  cases hm : (ofSteps steps).generate {} with
  | error e => simp [hm, Except.isOk, Except.toBool] at hok
  | ok m => exact ⟨m, rfl, registered_of_generate steps {} m hm⟩

end Graph

end Dataflow
