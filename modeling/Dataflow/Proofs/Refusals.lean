import Dataflow.Proofs.Generation

/-!
# When generation fails

A module is refused for six reasons, each of them a statement about the parts of the graph
(`Emittable`). Of the edges only some are looked at: those that leave a scanner, and those that
leave an input, join or map in a stratum (`Examines`). All other edges are without effect: a step
that makes one may be left out of the steps (`emittable_connect_iff`), since it changes neither the
elements nor any edge that is looked at.
-/

namespace Dataflow

namespace Graph

variable {g g' : Graph} {edge : Edge} {o : Options}

/-! ### The conditions -/

/-- Generation looks at an edge: it leaves a scanner, or else an input, join or map that a stratum
lists. -/
def Examines (g : Graph) (edge : Edge) : Prop :=
  ∃ e, g.element? edge.source = some e ∧
    (e.variant = .scanner ∨
      (e.variant = .input ∨ e.variant = .join ∨ e.variant = .map) ∧
      ∃ s ∈ g.strata, edge.source ∈ s.elements)

/-- All that is needed for a module. The factory has an identifier for its name, and no two elements
are known by the same. Every scanner, in a stratum or not, reads a table or input. The edges that
are looked at end at ports that their targets have. Strata and lookup tables list elements that
exist. -/
structure Emittable (g : Graph) (o : Options) : Prop where
  factory : isIdentifier o.factory = true
  nodup : (g.elements.map Element.identity).Nodup
  scanners : ∀ e ∈ g.elements, ∀ t, e.kind = .scanner t →
    ∃ d, g.element? t = some d ∧ (d.variant = .table ∨ d.variant = .input)
  edges : ∀ edge ∈ g.edges, g.Examines edge →
    ∃ d, g.element? edge.target = some d ∧ edge.port ∈ d.variant.inputPorts
  strata : ∀ s ∈ g.strata, ∀ id ∈ s.elements, (g.element? id).isSome = true
  invalidation : ∀ p ∈ g.invalidation, ∀ id ∈ p.1 :: p.2, (g.element? id).isSome = true
  rescan : ∀ p ∈ g.rescan, ∀ id ∈ p.1 :: p.2, (g.element? id).isSome = true

theorem needsStratum_iff {v : Variant} :
    v.needsStratum = true ↔ v = .input ∨ v = .join ∨ v = .map := by
  cases v <;> decide

theorem mem_wiredEdges {id : ElementId} :
    edge ∈ g.wiredEdges id ↔
      ∃ e, g.element? id = some e ∧ e.variant.needsStratum = true ∧ edge ∈ e.edges := by
  refine ⟨exists_of_mem_wiredEdges, ?_⟩
  rintro ⟨e, he, hv, hedge⟩
  simpa [wiredEdges, he, hv] using hedge

theorem mem_edges_iff : edge ∈ g.edges ↔ ∃ e ∈ g.elements, edge ∈ e.edges := List.mem_flatMap

/-- The edges of scanners and the edges that are subscribed are the edges that are looked at. -/
theorem Built.forall_examined (hg : g.Built) :
    (∀ edge ∈ g.edges, g.Examines edge → g.Accepts edge) ↔
      (∀ e ∈ g.elements, ∀ t, e.kind = .scanner t → ∀ edge ∈ e.edges, g.Accepts edge) ∧
        ∀ s ∈ g.strata, ∀ id ∈ s.elements, ∀ edge ∈ g.wiredEdges id, g.Accepts edge := by
  constructor
  · intro h
    refine ⟨fun e he t ht edge hedge => ?_, fun s hs id hid edge hedge => ?_⟩
    · refine h edge (mem_edges_of_mem he hedge) ⟨e, ?_, .inl ?_⟩
      · rw [hg.source_eq he edge hedge]
        exact hg.element?_id he
      · rw [Element.variant, ht]
        rfl
    · obtain ⟨e, he, hv, hmem⟩ := mem_wiredEdges.1 hedge
      have hsource : edge.source = id := by
        rw [hg.source_eq (List.mem_of_getElem? he) edge hmem, hg.id_eq he]
      refine h edge
        (mem_edges_of_mem_wiredEdges hedge) ⟨e, ?_, .inr ⟨needsStratum_iff.1 hv, s, hs, ?_⟩⟩
      · rw [hsource]
        exact he
      · rw [hsource]
        exact hid
  · rintro ⟨hscanners, hstrata⟩ edge hedge ⟨d, hd, hlooked⟩
    obtain ⟨e, he, hmem⟩ := mem_edges_iff.1 hedge
    -- the element that holds the edge is the one that the edge names as its source
    rw [hg.source_eq he edge hmem] at hd hlooked
    obtain rfl : e = d := Option.some.inj ((hg.element?_id he).symm.trans hd)
    rcases hlooked with hv | ⟨hv, s, hs, hid⟩
    · obtain ⟨t, ht⟩ : ∃ t, e.kind = .scanner t := by
        unfold Element.variant at hv
        cases hk : e.kind <;> simp_all [ElementKind.variant]
      exact hscanners e he t ht edge hmem
    · exact hstrata s hs e.id hid edge (mem_wiredEdges.2 ⟨e, hd, needsStratum_iff.2 hv, hmem⟩)

/-- The conditions are those under which every stage of generation succeeds. -/
theorem Built.emittable_iff (hg : g.Built) :
    g.Emittable o ↔ isIdentifier o.factory = true ∧ g.Generable := by
  constructor
  · intro h
    have hexamined := hg.forall_examined.1 h.edges
    refine ⟨h.factory, h.nodup, fun e he t ht => ⟨?_, hexamined.1 e he t ht⟩,
      fun s hs id hid => ⟨h.strata s hs id hid, hexamined.2 s hs id hid⟩, h.invalidation, h.rescan⟩
    exact isScannable_iff.2 (h.scanners e he t ht)
  · rintro ⟨hfactory, h⟩
    refine ⟨hfactory, h.nodup, fun e he t ht => isScannable_iff.1 (h.lowers e he t ht).1, ?_,
      fun s hs id hid => (h.wires s hs id hid).1, h.invalidation, h.rescan⟩
    exact hg.forall_examined.2 ⟨fun e he t ht => (h.lowers e he t ht).2, fun s hs id hid =>
      (h.wires s hs id hid).2⟩

theorem Built.exists_generate_iff (hg : g.Built) : (∃ m, g.generate o = .ok m) ↔ g.Emittable o := by
  simp only [generate_eq_ok hg, hg.emittable_iff, exists_and_left, exists_eq, and_true]

/-! ### Graphs that differ in edges only -/

/-- Two graphs are the same but for their edges. -/
structure Alike (g g' : Graph) : Prop where
  elements : (g.elements.map fun e => (e.id, e.kind)) = g'.elements.map fun e => (e.id, e.kind)
  strata : g.strata = g'.strata
  invalidation : g.invalidation = g'.invalidation
  rescan : g.rescan = g'.rescan

namespace Alike

theorem symm (h : Alike g g') : Alike g' g :=
  ⟨h.elements.symm, h.strata.symm, h.invalidation.symm, h.rescan.symm⟩

theorem exists_element? (h : Alike g g') {id : ElementId} {e : Element}
    (he : g.element? id = some e) :
    ∃ e', g'.element? id = some e' ∧ e'.kind = e.kind := by
  have hget : (g'.elements.map fun e => (e.id, e.kind))[id]? = some (e.id, e.kind) := by
    rw [← h.elements, List.getElem?_map]
    exact congrArg _ he
  rw [List.getElem?_map] at hget
  obtain ⟨e', he', hpair⟩ := Option.map_eq_some_iff.1 hget
  exact ⟨e', he', (Prod.mk.inj hpair).2⟩

theorem isSome_element? (h : Alike g g') {id : ElementId} (hid : (g.element? id).isSome = true) :
    (g'.element? id).isSome = true := by
  obtain ⟨e, he⟩ := Option.isSome_iff_exists.1 hid
  obtain ⟨e', he', -⟩ := h.exists_element? he
  rw [he']
  rfl

theorem identities_eq (h : Alike g g') :
    g.elements.map Element.identity = g'.elements.map Element.identity := by
  have hidentity (l : List Element) : l.map Element.identity =
      (l.map fun e => (e.id, e.kind)).map fun p => p.2.relation?.getD (toString p.1) := by
    rw [List.map_map]
    rfl
  rw [hidentity, h.elements, ← hidentity]

theorem examines (h : Alike g g') (he : g.Examines edge) : g'.Examines edge := by
  obtain ⟨e, he, hv⟩ := he
  obtain ⟨e', he', hk⟩ := h.exists_element? he
  have hvariant : e'.variant = e.variant := congrArg ElementKind.variant hk
  exact ⟨e', he', by rwa [hvariant, ← h.strata]⟩

/-- The conditions carry over if no edge is added that is looked at. -/
theorem emittable (h : Alike g g') (hg' : g'.Built)
    (hedges : ∀ edge ∈ g'.edges, g'.Examines edge → edge ∈ g.edges) (he : g.Emittable o) :
    g'.Emittable o where
  factory := he.factory
  nodup := h.identities_eq ▸ he.nodup
  scanners d hd t ht := by
    obtain ⟨e, hmem, hk⟩ := h.symm.exists_element? (hg'.element?_id hd)
    obtain ⟨a, ha, hv⟩ := he.scanners e (List.mem_of_getElem? hmem) t (hk.trans ht)
    obtain ⟨a', ha', hk'⟩ := h.exists_element? ha
    have hvariant : a'.variant = a.variant := congrArg ElementKind.variant hk'
    exact ⟨a', ha', hvariant ▸ hv⟩
  edges edge hedge hx := by
    obtain ⟨a, ha, hp⟩ := he.edges edge (hedges edge hedge hx) (h.symm.examines hx)
    obtain ⟨a', ha', hk'⟩ := h.exists_element? ha
    have hvariant : a'.variant = a.variant := congrArg ElementKind.variant hk'
    exact ⟨a', ha', hvariant ▸ hp⟩
  strata s hs id hid := h.isSome_element? (he.strata s (h.strata ▸ hs) id hid)
  invalidation p hp id hid := h.isSome_element? (he.invalidation p (h.invalidation ▸ hp) id hid)
  rescan p hp id hid := h.isSome_element? (he.rescan p (h.rescan ▸ hp) id hid)

end Alike

/-! ### Steps that make edges -/

variable {before after steps : List BuildStep} {source target : ElementId} {port : InputPort}

/-- The edges of a graph are the ones that steps made. -/
theorem mem_edges_ofSteps : edge ∈ (ofSteps steps).edges ↔ edge ∈ connections 0 steps := by
  have hfilter := (built_ofSteps steps).filter_source edge.source
  rw [edgesOf_ofSteps] at hfilter
  have hmem := congrArg (edge ∈ ·) hfilter
  simpa using hmem

theorem connections_append (n : Nat) (as bs : List BuildStep) :
    connections n (as ++ bs) =
      connections n as ++ connections (n + (as.filterMap BuildStep.kind?).length) bs := by
  induction as generalizing n with
  | nil => rfl
  | cons step as ih =>
    cases step with
    | add kind =>
      have hlen :
          n + 1 + (as.filterMap BuildStep.kind?).length =
            n + ((as.filterMap BuildStep.kind?).length + 1) := by
        omega
      simp only [List.cons_append, connections, ih, List.filterMap_cons, BuildStep.kind?,
        List.length_cons, hlen]
    | connect | stratum | invalidate | rescan =>
      simp only [List.cons_append, connections, ih, List.filterMap_cons, BuildStep.kind?,
        List.append_assoc]

theorem mem_edges_connect
    (h : edge ∈ (ofSteps (before ++ .connect source target port :: after)).edges) :
    edge = ⟨source, target, port⟩ ∨ edge ∈ (ofSteps (before ++ after)).edges := by
  rw [mem_edges_ofSteps, connections_append, connections] at h
  rw [mem_edges_ofSteps, connections_append]
  simp only [List.mem_append] at h ⊢
  rcases h with h | h | h
  · exact .inr (.inl h)
  · split at h
    · exact .inl (List.mem_singleton.1 h)
    · cases h
  · exact .inr (.inr h)

theorem mem_edges_of_drop_connect (h : edge ∈ (ofSteps (before ++ after)).edges) :
    edge ∈ (ofSteps (before ++ .connect source target port :: after)).edges := by
  rw [mem_edges_ofSteps, connections_append] at h
  rw [mem_edges_ofSteps, connections_append, connections]
  simp only [List.mem_append] at h ⊢
  exact h.imp_right .inr

theorem pairs_ofSteps (steps : List BuildStep) :
    ((ofSteps steps).elements.map fun e => (e.id, e.kind)) =
      (List.range (steps.filterMap BuildStep.kind?).length).zip
        (steps.filterMap BuildStep.kind?) := by
  have hlen : (ofSteps steps).elements.length = (steps.filterMap BuildStep.kind?).length := by
    rw [← kinds_ofSteps, List.length_map]
  rw [← hlen, ← (built_ofSteps steps).ids, ← kinds_ofSteps, List.zip_map']

/-- A step that asks for an edge changes edges only. -/
theorem alike_connect (before after : List BuildStep) (source target : ElementId)
    (port : InputPort) :
    Alike (ofSteps (before ++ .connect source target port :: after))
    (ofSteps (before ++ after)) where
  elements := by
    rw [pairs_ofSteps, pairs_ofSteps, List.filterMap_append, List.filterMap_append]
    rfl
  strata := by
    rw [strata_ofSteps, strata_ofSteps, List.filterMap_append, List.filterMap_append]
    rfl
  invalidation := by
    rw [invalidation_ofSteps, invalidation_ofSteps, List.filterMap_append, List.filterMap_append]
    rfl
  rescan := by
    rw [rescan_ofSteps, rescan_ofSteps, List.filterMap_append, List.filterMap_append]
    rfl

/-- An edge that is not looked at is without effect. -/
theorem emittable_connect_iff
    (h :
      ¬(ofSteps (before ++ .connect source target port :: after)).Examines ⟨source, target, port⟩) :
    (ofSteps (before ++ .connect source target port :: after)).Emittable o ↔
      (ofSteps (before ++ after)).Emittable o := by
  have halike := alike_connect before after source target port
  refine ⟨halike.emittable (built_ofSteps _) fun edge hedge _ => mem_edges_of_drop_connect hedge,
    halike.symm.emittable (built_ofSteps _) fun edge hedge hx => ?_⟩
  rcases mem_edges_connect hedge with rfl | hedge
  · exact absurd hx h
  · exact hedge

/-- **Generation fails exactly when it has to.** A module is generated from a graph that steps make
if and only if the graph is emittable, and whether it is does not depend on any edge that leaves a
table, or an element in no stratum that is no scanner: the step that makes the edge may as well be
left out. -/
theorem generate_iff_emittable (steps : List BuildStep) (o : Options) :
    ((∃ m, (ofSteps steps).generate o = .ok m) ↔ (ofSteps steps).Emittable o) ∧
      ∀ before after source target port, steps = before ++ .connect source target port :: after →
        (∀ e, (ofSteps steps).element? source = some e →
          e.variant = .table ∨ e.variant ≠ .scanner ∧
          ∀ s ∈ (ofSteps steps).strata, source ∉ s.elements) →
        ((∃ m, (ofSteps steps).generate o = .ok m) ↔
          ∃ m, (ofSteps (before ++ after)).generate o = .ok m) := by
  refine ⟨(built_ofSteps steps).exists_generate_iff, ?_⟩
  rintro before after source target port rfl hsource
  rw [(built_ofSteps _).exists_generate_iff, (built_ofSteps _).exists_generate_iff]
  refine emittable_connect_iff ?_
  rintro ⟨e, he, hx⟩
  rcases hsource e he with hv | ⟨hv, hs⟩
  · rcases hx with hx | ⟨hx | hx | hx, -⟩ <;> cases hv.symm.trans hx
  · rcases hx with hx | ⟨-, s, hmem, hid⟩
    · exact hv hx
    · exact hs s hmem hid

end Graph

end Dataflow
