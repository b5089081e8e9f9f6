import Mathlib.Data.List.Perm.Basic
import Mathlib.Data.List.Sort
import Dataflow.Graph.Dot
import Dataflow.Proofs.Loading
import Dataflow.Proofs.Wiring

/-!
# Orders that do not matter

A document lists its strata in some order, and its edges in some order. Of the first nothing is seen
in the end, as long as the strata have distinct indices; of the second only the order of the edges
that leave one element.

* `Document.Rearranged`: two documents that differ in these orders only.
* `Rearranged.exists_withStrata`: their graphs are the same but for the order in which the strata
  are stored. The edges of an element are what the document lists for it, and an element follows
  from its number, kind and edges.
* What is made of a graph goes through its strata in increasing order (`ofGraph_withStrata`,
  `dot_withStrata`, `summary_withStrata`), and the checks count them (`certificate_withStrata`).
-/

namespace Dataflow

/-! ### Graphs with other strata -/

namespace Graph

/-- A graph with other strata. -/
def withStrata (g : Graph) (strata : List Stratum) : Graph := { g with strata := strata }

variable {g g' : Graph} {strata : List Stratum}

/-- Strata with distinct indices are put in one order, however they are stored. -/
theorem strataInOrder_withStrata (hp : strata.Perm g.strata)
    (hd : (g.strata.map Stratum.index).Nodup) :
    (g.withStrata strata).strataInOrder = g.strataInOrder := by
  have hd' : (strata.map Stratum.index).Nodup := (hp.map Stratum.index).nodup_iff.2 hd
  have hlt := List.pairwise_map.1 (pairwise_strataInOrder hd)
  have hlt' := List.pairwise_map.1 (pairwise_strataInOrder (g := g.withStrata strata) hd')
  have hperm : (g.withStrata strata).strataInOrder.Perm g.strataInOrder :=
    ((strataInOrder_perm (g.withStrata strata)).trans hp).trans (strataInOrder_perm g).symm
  exact hperm.eq_of_pairwise (fun _ _ _ _ hab hba => absurd hab (Nat.lt_asymm hba)) hlt' hlt

theorem drawNodes_withStrata (drawn ids : List ElementId) :
    (g.withStrata strata).drawNodes drawn ids = g.drawNodes drawn ids := by
  induction ids generalizing drawn with
  | nil => rfl
  | cons id ids ih =>
    have hid : (g.withStrata strata).element? id = g.element? id := rfl
    simp only [drawNodes, hid, ih]

theorem drawClusters_withStrata (drawn : List ElementId) (ss : List Stratum) :
    (g.withStrata strata).drawClusters drawn ss = g.drawClusters drawn ss := by
  induction ss generalizing drawn with
  | nil => rfl
  | cons s ss ih => simp only [drawClusters, drawNodes_withStrata, ih]

section InOrder

variable (h : (g.withStrata strata).strataInOrder = g.strataInOrder)
include h

theorem emissionOrder_withStrata : (g.withStrata strata).emissionOrder = g.emissionOrder := by
  unfold emissionOrder stratifiedElements
  rw [h]
  rfl

theorem wire_withStrata (ns : Names) : (g.withStrata strata).wire ns = g.wire ns := by
  unfold wire
  rw [h]
  rfl

/-- A pipeline takes the strata in order. -/
theorem ofGraph_withStrata : Pipeline.ofGraph (g.withStrata strata) = Pipeline.ofGraph g := by
  unfold Pipeline.ofGraph
  simp only [emissionOrder_withStrata h, wire_withStrata h]
  rfl

theorem generate_withStrata (o : Options) : (g.withStrata strata).generate o = g.generate o := by
  unfold generate
  rw [ofGraph_withStrata h]

/-- A picture takes the strata in order. -/
theorem dot_withStrata : (g.withStrata strata).dot = g.dot := by
  unfold dot picture
  rw [h, drawClusters_withStrata]
  rfl

/-- A summary takes the strata in order, and counts them. -/
theorem summary_withStrata (hl : strata.length = g.strata.length) :
    (g.withStrata strata).summary = g.summary := by
  have hl' : (g.withStrata strata).strata.length = g.strata.length := hl
  unfold summary
  rw [h, hl']
  rfl

end InOrder

theorem WellStratified.withStrata (h : g.WellStratified) (hp : strata.Perm g.strata) :
    (g.withStrata strata).WellStratified := by
  have helements : (strata.flatMap Stratum.elements).Perm (g.strata.flatMap Stratum.elements) :=
    hp.flatMap_right Stratum.elements
  exact
    { nodup_indices := (hp.map Stratum.index).nodup_iff.2 h.nodup_indices
      isSome := fun id hid => h.isSome id (helements.subset hid)
      nodup_elements := helements.nodup_iff.2 h.nodup_elements
      placed := fun e he hn => helements.symm.subset (h.placed e he hn) }

theorem lookupViolationsFrom_withStrata (role : LookupRole) (keys : List ElementId)
    (t : LookupTable) :
    (g.withStrata strata).lookupViolationsFrom role keys t =
      g.lookupViolationsFrom role keys t := by
  induction t generalizing keys with
  | nil => rfl
  | cons p t ih =>
    simp only [lookupViolationsFrom, ih]
    rfl

/-- The checks do not see in which order the strata are stored. -/
theorem certificate_withStrata (hp : strata.Perm g.strata) :
    (g.withStrata strata).validate.certificate = g.validate.certificate := by
  have hstrata : (g.withStrata strata).certificate.strata = g.certificate.strata := by
    rw [Bool.eq_iff_iff, ← certificate_validate, ← certificate_validate, certificate_strata,
      certificate_strata]
    exact ⟨fun h => h.withStrata hp.symm, fun h => h.withStrata hp⟩
  have hlookups : (g.withStrata strata).lookupViolations = g.lookupViolations := by
    simp only [lookupViolations, lookupViolationsFrom_withStrata]
    rfl
  rw [certificate_validate, certificate_validate]
  unfold certificate at hstrata ⊢
  rw [hlookups]
  exact congrArg (Certificate.mk _ _ _ _ · _) hstrata

end Graph

/-! ### Graphs by their edges -/

/-- The outputs of an element follow from its edges. -/
theorem Element.Formed.eq_of_edges {e e' : Element} (h : e.Formed) (h' : e'.Formed)
    (hid : e'.id = e.id) (hkind : e'.kind = e.kind) (hedges : e'.edges = e.edges) : e' = e := by
  have hvariant : e'.variant = e.variant := congrArg ElementKind.variant hkind
  have houtputs : e'.outputs = e.outputs := by
    rcases h with ⟨ho, hv⟩ | ⟨edges, ho, -, hne⟩ <;>
      rcases h' with ⟨ho', hv'⟩ | ⟨edges', ho', -, hne'⟩
    · rw [ho, ho']
    · -- a table without an output has no edges
      have hnil : edges' = [] := by simpa [Element.edges, ho, ho'] using hedges
      exact absurd hnil (hne' (hvariant.trans hv))
    · have hnil : edges = [] := by simpa [Element.edges, ho, ho'] using hedges.symm
      exact absurd hnil (hne (hvariant.symm.trans hv'))
    · have heq : edges' = edges := by simpa [Element.edges, ho, ho'] using hedges
      rw [ho, ho', hid, heq]
  cases e
  cases e'
  simp_all

namespace Graph

variable {g g' : Graph}

/-- The elements of a graph follow from their kinds and their edges. -/
theorem Built.elements_eq (hg : g.Built) (hg' : g'.Built)
    (hkinds : g'.elements.map Element.kind = g.elements.map Element.kind)
    (hedges : ∀ id, g'.edgesOf id = g.edgesOf id) : g'.elements = g.elements := by
  have hlength : g'.elements.length = g.elements.length := by
    simpa using congrArg List.length hkinds
  refine List.ext_getElem hlength fun i hi' hi => ?_
  have he : g.element? i = some g.elements[i] := List.getElem?_eq_getElem hi
  have he' : g'.element? i = some g'.elements[i] := List.getElem?_eq_getElem hi'
  refine (hg.formed _ (List.getElem_mem hi)).eq_of_edges
    (hg'.formed _ (List.getElem_mem hi')) ?_ ?_ ?_
  · rw [hg.id_eq he, hg'.id_eq he']
  · simpa [hi, hi'] using congrArg (·[i]?) hkinds
  · simpa [edgesOf, he, he'] using hedges i

end Graph

theorem ParsesTo.unique {source : String} {e e' : Expr} (h : ParsesTo source e)
    (h' : ParsesTo source e') : e = e' := by
  cases h.symm.trans h'
  rfl

/-! ### Documents with the same elements -/

namespace Document

variable {d d' : Document}

section SameElements

variable (h : d'.elements = d.elements)
include h

theorem resolve?_of_elements_eq (ref : ElementRef) : d'.resolve? ref = d.resolve? ref := by
  cases ref <;> simp only [resolve?, h]

theorem Denotes.of_elements_eq {ref : ElementRef} {id : ElementId} (hid : d'.Denotes ref id) :
    d.Denotes ref id := by
  rw [← resolve?_eq_some, ← resolve?_of_elements_eq h, resolve?_eq_some]
  exact hid

theorem Specifies.of_elements_eq {spec : ElementSpec} {kind : ElementKind}
    (hs : d'.Specifies spec kind) :
    d.Specifies spec kind := by
  cases hs with
  | table r k => exact .table r k
  | input r => exact .input r
  | join left hb hp => exact .join left hb hp
  | map arity hf => exact .map arity hf
  | scanner ht => exact .scanner (ht.of_elements_eq h)

theorem SpecifiesEdge.of_elements_eq {spec : EdgeSpec} {edge : Edge}
    (hs : d'.SpecifiesEdge spec edge) :
    d.SpecifiesEdge spec edge :=
  ⟨hs.source.of_elements_eq h, hs.target.of_elements_eq h, hs.port⟩

theorem SpecifiesStratum.of_elements_eq {spec : StratumSpec} {s : Stratum}
    (hs : d'.SpecifiesStratum spec s) :
    d.SpecifiesStratum spec s :=
  ⟨hs.index, hs.elements.imp fun _ _ hid => hid.of_elements_eq h⟩

theorem SpecifiesLookup.of_elements_eq {spec : LookupSpec} {p : ElementId × List ElementId}
    (hs : d'.SpecifiesLookup spec p) : d.SpecifiesLookup spec p :=
  ⟨hs.key.of_elements_eq h, hs.values.imp fun _ _ hid => hid.of_elements_eq h⟩

theorem resolvable_of_elements_eq {ref : ElementRef} : d'.Resolvable ref ↔ d.Resolvable ref := by
  cases ref <;> simp only [Resolvable, h]

end SameElements

/-! ### What entries describe is unique -/

theorem rightUnique_denotes : Relator.RightUnique d.Denotes := by
  intro ref id id' hid hid'
  exact Option.some.inj ((resolve?_eq_some.2 hid).symm.trans (resolve?_eq_some.2 hid'))

theorem rightUnique_specifies : Relator.RightUnique d.Specifies := by
  intro spec kind kind' h h'
  cases h with
  | table | input =>
    cases h'
    rfl
  | join left hb hp =>
    cases h' with
    | join _ hb' hp' => rw [hb.unique hb', hp.unique hp']
  | map arity hf =>
    cases h' with
    | map _ hf' => rw [hf.unique hf']
  | scanner ht =>
    cases h' with
    | scanner ht' => rw [rightUnique_denotes ht ht']

theorem rightUnique_specifiesEdge : Relator.RightUnique d.SpecifiesEdge := by
  rintro spec ⟨s, t, p⟩ ⟨s', t', p'⟩ h h'
  obtain rfl : s = s' := rightUnique_denotes h.source h'.source
  obtain rfl : t = t' := rightUnique_denotes h.target h'.target
  obtain rfl : p = p' := h.port.trans h'.port.symm
  rfl

theorem rightUnique_specifiesStratum : Relator.RightUnique d.SpecifiesStratum := by
  rintro spec ⟨i, es⟩ ⟨i', es'⟩ h h'
  obtain rfl : i = i' := h.index.trans h'.index.symm
  obtain rfl : es = es' := rightUnique_denotes.forall₂ h.elements h'.elements
  rfl

theorem rightUnique_specifiesLookup : Relator.RightUnique d.SpecifiesLookup := by
  rintro spec ⟨k, vs⟩ ⟨k', vs'⟩ h h'
  obtain rfl : k = k' := rightUnique_denotes h.key h'.key
  obtain rfl : vs = vs' := rightUnique_denotes.forall₂ h.values h'.values
  rfl

/-- The same entries describe the same lookups in documents with the same elements. -/
theorem lookups_eq {specs specs' : List LookupSpec} {t t' : LookupTable}
    (helements : d'.elements = d.elements) (hspecs : specs' = specs)
    (h : List.Forall₂ d.SpecifiesLookup specs t) (h' : List.Forall₂ d'.SpecifiesLookup specs' t') :
    t' = t := by
  subst hspecs
  exact rightUnique_specifiesLookup.forall₂ (h'.imp fun _ _ hs => hs.of_elements_eq helements) h

/-! ### Rearranged documents -/

/-- `d.Rearranged d'`: the document `d'` lists what `d` lists, with the strata in another order, and
the edges in another order in which those that leave one element come as before. -/
structure Rearranged (d d' : Document) : Prop where
  elements : d'.elements = d.elements
  edges : d'.edges.Perm d.edges
  leaving : ∀ id, (d'.edges.filter fun e => d.resolve? e.source == some id) =
    d.edges.filter fun e => d.resolve? e.source == some id
  strata : d'.strata.Perm d.strata
  invalidation : d'.invalidation = d.invalidation
  rescan : d'.rescan = d.rescan

namespace Rearranged

variable (h : d.Rearranged d')
include h

theorem loadable_iff : d'.Loadable ↔ d.Loadable := by
  have hrefs : (∀ ref ∈ d'.references, d'.Resolvable ref) ↔
      ∀ ref ∈ d.references, d.Resolvable ref := by
    simp only [forall_references, resolvable_of_elements_eq h.elements, h.elements, h.edges.mem_iff,
      h.strata.mem_iff, h.invalidation, h.rescan]
  have hfunctions : d'.functions = d.functions := by simp only [functions, h.elements]
  constructor
  · intro hd
    exact ⟨hrefs.1 hd.references, hfunctions ▸ hd.functions⟩
  · intro hd
    exact ⟨hrefs.2 hd.references, hfunctions ▸ hd.functions⟩

/-- The edges that leave an element are described alike. -/
theorem filter_source_eq {edges edges' : List Edge}
    (he : List.Forall₂ d.SpecifiesEdge d.edges edges)
    (he' : List.Forall₂ d.SpecifiesEdge d'.edges edges') (id : ElementId) :
    (edges'.filter fun edge => edge.source == id) = edges.filter fun edge => edge.source == id := by
  have hsource {spec : EdgeSpec} {edge : Edge} (hs : d.SpecifiesEdge spec edge) :
      (d.resolve? spec.source == some id) = true ↔ (edge.source == id) = true := by
    rw [resolve?_eq_some.2 hs.source, beq_iff_eq, beq_iff_eq, Option.some.injEq]
  have hleft := List.rel_filter (fun _ _ hs => hsource hs) he
  have hright := List.rel_filter (fun _ _ hs => hsource hs) he'
  rw [h.leaving id] at hright
  exact rightUnique_specifiesEdge.forall₂ hright hleft

/-- The strata are described alike, in another order. -/
theorem strata_perm {strata strata' : List Stratum}
    (hs : List.Forall₂ d.SpecifiesStratum d.strata strata)
    (hs' : List.Forall₂ d.SpecifiesStratum d'.strata strata') : strata'.Perm strata := by
  obtain ⟨strata'', hs'', hperm⟩ := List.perm_comp_forall₂ h.strata hs
  rw [rightUnique_specifiesStratum.forall₂ hs' hs'']
  exact hperm

/-- The graphs of both documents are the same but for the order in which the strata are stored. -/
theorem exists_withStrata {g g' : Graph} (hg : d.load.graph = some g)
    (hg' : d'.load.graph = some g') :
    ∃ strata, strata.Perm g.strata ∧ g' = g.withStrata strata := by
  obtain ⟨hd, hbuilt⟩ := describes_of_load hg
  obtain ⟨hd', hbuilt'⟩ := describes_of_load hg'
  have hkinds : g'.elements.map Element.kind = g.elements.map Element.kind := by
    have hspec := hd'.elements.imp fun _ _ hs => hs.of_elements_eq h.elements
    rw [h.elements] at hspec
    exact rightUnique_specifies.forall₂ hspec hd.elements
  have hedges (id : ElementId) : g'.edgesOf id = g.edgesOf id := by
    obtain ⟨edges, he, hof⟩ := hd.edges
    obtain ⟨edges', he', hof'⟩ := hd'.edges
    rw [hof, hof', h.filter_source_eq he (he'.imp fun _ _ hs => hs.of_elements_eq h.elements)]
  have helements : g'.elements = g.elements := hbuilt.elements_eq hbuilt' hkinds hedges
  have hdeclared (v : Variant) : g'.declared v = g.declared v := by
    simp only [Graph.declared, helements]
  have hinvalidation : g'.invalidation = g.invalidation :=
    lookups_eq h.elements h.invalidation hd.invalidation hd'.invalidation
  have hrescan : g'.rescan = g.rescan := lookups_eq h.elements h.rescan hd.rescan hd'.rescan
  refine ⟨g'.strata,
    h.strata_perm hd.strata (hd'.strata.imp fun _ _ hs => hs.of_elements_eq h.elements), ?_⟩
  have htables : g'.tables = g.tables := by rw [hbuilt.tables, hbuilt'.tables, hdeclared]
  have hinputs : g'.inputs = g.inputs := by rw [hbuilt.inputs, hbuilt'.inputs, hdeclared]
  cases g'
  simp_all [Graph.withStrata]

end Rearranged

/-- The strata of a graph have the indices that its document gives them. -/
theorem Describes.indices_eq {g : Graph} (h : d.Describes g) :
    g.strata.map Stratum.index = (d.strata.map StratumSpec.index).map UInt32.toNat := by
  rw [List.map_map, ← List.forall₂_eq_eq_eq, List.forall₂_map_left_iff, List.forall₂_map_right_iff]
  exact h.strata.flip.imp fun _ _ hs => hs.index

theorem Describes.nodup_indices {g : Graph} (h : d.Describes g)
    (hd : (d.strata.map StratumSpec.index).Nodup) :
    (g.strata.map Stratum.index).Nodup := by
  rw [h.indices_eq]
  exact hd.map fun _ _ heq => UInt32.toNat_inj.1 heq

/-- **Irrelevant orders do not matter.** If the strata of a document have distinct indices, a
rearranged document is loaded exactly if the document is, and then both graphs give the same module
or error for all options, the same picture, the same summary and the same certificate. -/
theorem rearranged_alike (h : d.Rearranged d') (hd : (d.strata.map StratumSpec.index).Nodup) :
    (d.load.graph.isSome = true ↔ d'.load.graph.isSome = true) ∧
    ∀ g g', d.load.graph = some g → d'.load.graph = some g' →
      (∀ o, g'.generate o = g.generate o) ∧ g'.dot = g.dot ∧ g'.summary = g.summary ∧
        g'.validate.certificate = g.validate.certificate := by
  refine ⟨by rw [isSome_load, isSome_load, h.loadable_iff], fun g g' hg hg' => ?_⟩
  obtain ⟨strata, hperm, rfl⟩ := h.exists_withStrata hg hg'
  have horder := Graph.strataInOrder_withStrata hperm ((describes_of_load hg).1.nodup_indices hd)
  exact ⟨Graph.generate_withStrata horder, Graph.dot_withStrata horder,
    Graph.summary_withStrata horder hperm.length_eq, Graph.certificate_withStrata hperm⟩

/-- The edges of one input stay in order, though one of them names it and the other gives its
position. -/
theorem rearranged_alike_inputs :
    let d : Document :=
      { elements := [.input "a", .input "b", .map "[$0]" 1, .table "t" 0]
        edges := [⟨.name "a", .index 2, .input⟩, ⟨.index 1, .index 2, .input⟩,
          ⟨.index 0, .name "t", .delta⟩, ⟨.index 2, .name "t", .delta⟩]
        strata := [⟨1, [.index 2, .name "t"]⟩, ⟨0, [.index 1, .name "a"]⟩] }
    let d' : Document :=
      { d with
        edges := [⟨.index 2, .name "t", .delta⟩, ⟨.name "a", .index 2, .input⟩,
          ⟨.index 0, .name "t", .delta⟩, ⟨.index 1, .index 2, .input⟩]
        strata := [⟨0, [.index 1, .name "a"]⟩, ⟨1, [.index 2, .name "t"]⟩] }
    d.Rearranged d' ∧ ∃ g g', d.load.graph = some g ∧ d'.load.graph = some g' ∧
    g'.generate {} = g.generate {} ∧
      g'.dot = g.dot ∧ g'.summary = g.summary ∧
      g'.validate.certificate = g.validate.certificate := by
  intro d d'
  have h : d.Rearranged d' :=
    { elements := rfl
      edges := by decide
      leaving := by
        intro id
        rcases id with _ | _ | _ | id
        · decide
        · decide
        · decide
        · rfl
      strata := by decide
      invalidation := rfl
      rescan := rfl }
  obtain ⟨hsome, halike⟩ := rearranged_alike h (by decide)
  obtain ⟨g, hg⟩ := Option.isSome_iff_exists.1 (by decide +kernel : d.load.graph.isSome = true)
  obtain ⟨g', hg'⟩ := Option.isSome_iff_exists.1 (hsome.1 (Option.isSome_iff_exists.2 ⟨g, hg⟩))
  obtain ⟨hgenerate, hrest⟩ := halike g g' hg hg'
  exact ⟨h, g, g', hg, hg', hgenerate {}, hrest⟩

end Document

end Dataflow
