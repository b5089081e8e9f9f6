import Dataflow.Proofs.Decoding
import Dataflow.Proofs.Generation
import Dataflow.Proofs.Loading

/-!
# Loaded graphs hold together

A graph may name elements that do not exist, and a registry may hold a relation for an element of
another sort. The checks report the one, and generation stops at either. A loaded graph does
neither, whatever else may be wrong with it: all numbers in it are numbers of its elements
(`Closed`).

* `Document.Describes.closed`: references are replaced by the elements that they lead to, so nothing
  else can be named.
* `Safe` computations do not fail with an internal error. Each function between a closed graph and
  its pipeline is safe, up to generation as a whole (`Closed.safe_generate`).
* No violation of a closed graph is about a number without an element
  (`Closed.isDangling_eq_false`).
-/

namespace Dataflow

/-! ### Numbers in a graph -/

/-- The element that a scanner reads. -/
def ElementKind.target? : ElementKind → Option ElementId
  | scanner t => some t
  | _ => none

/-- The numbers of an output: its owner, and the ends of its edges. -/
def OutputPort.mentions (o : OutputPort) : List ElementId :=
  o.owner :: o.connections.flatMap fun edge => [edge.source, edge.target]

/-- The numbers that an element has: its own, that of the element it reads, and those of its
outputs. -/
def Element.mentions (e : Element) : List ElementId :=
  e.id :: e.kind.target?.toList ++ e.outputs.flatMap OutputPort.mentions

/-- The edges and outputs of an element start at it, so only the targets are other elements. -/
theorem Element.Formed.forall_mentions {e : Element} (h : e.Formed) {P : ElementId → Prop} :
    (∀ id ∈ e.mentions, P id) ↔
      P e.id ∧ (∀ t, e.kind.target? = some t → P t) ∧ ∀ edge ∈ e.edges, P edge.target := by
  simp only [mentions, List.cons_append, List.forall_mem_cons, List.forall_mem_append,
    Option.mem_toList, List.forall_mem_flatMap, OutputPort.mentions, edges]
  refine and_congr_right fun hid => and_congr_right fun _ => ?_
  rcases h with ⟨ho, _⟩ | ⟨edges, ho, hs, _⟩
  · simp [ho]
  · simp only [ho, List.forall_mem_singleton]
    constructor
    · intro h edge hedge
      exact (h.2 edge hedge).2.1
    · intro h
      exact ⟨hid, fun edge hedge => ⟨hs edge hedge ▸ hid, h edge hedge, List.forall_mem_nil _⟩⟩

namespace Graph

/-- The numbers in a graph. -/
def mentions (g : Graph) : List ElementId :=
  g.elements.flatMap Element.mentions ++ (g.tables.entries ++ g.inputs.entries).map Prod.snd ++
    g.strata.flatMap Stratum.elements ++ (g.invalidation ++ g.rescan).flatMap fun p => p.1 :: p.2

/-- There is an element for every number in a graph. -/
def Closed (g : Graph) : Prop := ∀ id ∈ g.mentions, (g.element? id).isSome = true

variable {g : Graph}

theorem isSome_element? {id : ElementId} :
    (g.element? id).isSome = true ↔ id < g.elements.length := by
  simp [element?]

theorem isSome_of_mem_ofPairs (hg : g.Built) {v : Variant} {p : String × ElementId}
    (hp : p ∈ (Registry.ofPairs (g.declared v)).entries) : (g.element? p.2).isSome = true := by
  obtain ⟨e, he, -⟩ := hg.exists_of_mem_declared (Registry.mem_of_mem_ofPairs hp)
  exact Option.isSome_iff_exists.2 ⟨e, he⟩

/-- Building numbers the elements and fills the registries, so a graph is closed if its scanners,
edges, strata and lookup tables name elements. -/
theorem Built.closed_iff (hg : g.Built) :
    g.Closed ↔
      (∀ e ∈ g.elements, ∀ t, e.kind.target? = some t → (g.element? t).isSome = true) ∧
      (∀ e ∈ g.elements, ∀ edge ∈ e.edges, (g.element? edge.target).isSome = true) ∧
      (∀ s ∈ g.strata, ∀ id ∈ s.elements, (g.element? id).isSome = true) ∧
      (∀ p ∈ g.invalidation, ∀ id ∈ p.1 :: p.2, (g.element? id).isSome = true) ∧
      ∀ p ∈ g.rescan, ∀ id ∈ p.1 :: p.2, (g.element? id).isSome = true := by
  have helements : (∀ e ∈ g.elements, ∀ id ∈ e.mentions, (g.element? id).isSome = true) ↔
      (∀ e ∈ g.elements, ∀ t, e.kind.target? = some t → (g.element? t).isSome = true) ∧
        ∀ e ∈ g.elements, ∀ edge ∈ e.edges, (g.element? edge.target).isSome = true := by
    rw [← forall₂_and]
    refine forall₂_congr fun e he => ?_
    rw [(hg.formed e he).forall_mentions, hg.element?_id he]
    exact and_iff_right rfl
  have hregistries :
      ∀ id ∈ (g.tables.entries ++ g.inputs.entries).map Prod.snd,
        (g.element? id).isSome = true := by
    rw [List.forall_mem_map, List.forall_mem_append, hg.tables, hg.inputs]
    exact ⟨fun p => isSome_of_mem_ofPairs hg, fun p => isSome_of_mem_ofPairs hg⟩
  simp only [Closed, mentions, List.forall_mem_append, List.forall_mem_flatMap, helements,
    and_assoc]
  exact and_congr_right fun _ => and_congr_right fun _ => and_iff_right hregistries

end Graph

/-- Whatever a document describes has a number of one of its elements. -/
theorem Document.Describes.closed {d : Document} {g : Graph} (h : d.Describes g) (hg : g.Built) :
    g.Closed := by
  have hlength : d.elements.length = g.elements.length := by
    rw [h.elements.length_eq, List.length_map]
  have hdenotes (ref : ElementRef) (id : ElementId) (hid : d.Denotes ref id) :
      (g.element? id).isSome = true :=
    Graph.isSome_element?.2 (hlength ▸ hid.lt)
  have hlookup {specs : List LookupSpec} {t : LookupTable}
      (ht : List.Forall₂ d.SpecifiesLookup specs t) :
      ∀ p ∈ t, ∀ id ∈ p.1 :: p.2, (g.element? id).isSome = true := by
    refine forall_mem_of_forall₂ (fun spec p hp => ?_) ht
    exact List.forall_mem_cons.2 ⟨hdenotes _ _ hp.key, forall_mem_of_forall₂ hdenotes hp.values⟩
  refine hg.closed_iff.2 ⟨fun e he => ?_, fun e he edge hedge => ?_, ?_, hlookup h.invalidation,
    hlookup h.rescan⟩
  · refine forall_mem_of_forall₂
      (P := fun kind => ∀ t, kind.target? = some t → (g.element? t).isSome = true)
      (fun spec kind hspec t ht => ?_) h.elements e.kind (List.mem_map_of_mem he)
    cases hspec with
    | scanner hid => exact hdenotes _ _ (Option.some.inj ht ▸ hid)
    | table | input | join | map => cases ht
  · obtain ⟨edges, hedges, hof⟩ := h.edges
    have hmem : edge ∈ g.edgesOf e.id := by simpa [Graph.edgesOf, hg.element?_id he] using hedge
    rw [hof] at hmem
    exact forall_mem_of_forall₂ (fun _ _ hspec => hdenotes _ _ hspec.target) hedges edge
      (List.mem_of_mem_filter hmem)
  · exact forall_mem_of_forall₂ (fun _ _ hs => forall_mem_of_forall₂ hdenotes hs.elements) h.strata

/-! ### Errors of generation -/

/-- Errors that no document can be blamed for: a number without an element, or a relation that is
registered to an element of another sort. -/
def GenerateError.isInternal : GenerateError → Bool
  | unknownElement _ | misfiledRelation .. => true
  | _ => false

/-- A computation that does not fail with an internal error. -/
def Safe {α : Type} (x : Except GenerateError α) : Prop :=
  ∀ err, x = .error err → err.isInternal = false

section Safe

variable {α β : Type}

theorem safe_ok (a : α) : Safe (.ok a) := nofun

theorem safe_of_eq_ok {x : Except GenerateError α} {a : α} (h : x = .ok a) : Safe x := h ▸ safe_ok a

theorem safe_error {err : GenerateError} (h : err.isInternal = false) :
    Safe (.error err : Except GenerateError α) := by
  rintro _ ⟨⟩
  exact h

theorem Safe.bind {x : Except GenerateError α} {f : α → Except GenerateError β} (hx : Safe x)
    (hf : ∀ a, x = .ok a → Safe (f a)) : Safe (x >>= f) := by
  cases x with
  | error err => exact safe_error (hx err rfl)
  | ok a => exact hf a rfl

theorem safe_mapM {f : α → Except GenerateError β} {l : List α} (h : ∀ a ∈ l, Safe (f a)) :
    Safe (l.mapM f) := by
  induction l with
  | nil => exact safe_ok []
  | cons a l ih =>
    rw [List.forall_mem_cons] at h
    rw [List.mapM_cons]
    exact h.1.bind fun b _ => (ih h.2).bind fun bs _ => safe_ok (b :: bs)

end Safe

theorem safe_assign (owners : List (String × ElementId)) (es : List Element) :
    Safe (Names.assign owners es) := by
  induction es generalizing owners with
  | nil => exact safe_ok []
  | cons e es ih =>
    unfold Names.assign
    split
    · exact safe_error rfl
    · exact (ih _).bind fun _ _ => safe_ok _

theorem safe_inputMember (id : ElementId) (v : Variant) (p : InputPort) :
    Safe (inputMember id v p) := by
  unfold inputMember
  split <;> first | exact safe_ok _ | exact safe_error rfl

theorem safe_outputMember (id : ElementId) (v : Variant) : Safe (outputMember id v) := by
  unfold outputMember
  split
  · exact safe_error rfl
  · exact safe_ok _

namespace Graph

variable {g : Graph}

theorem safe_find {id : ElementId} (h : (g.element? id).isSome = true) : Safe (g.names.find id) :=
  safe_of_eq_ok ((names_find_eq_ok id _).2 ⟨h, rfl⟩)

theorem safe_get {id : ElementId} (h : (g.element? id).isSome = true) : Safe (g.get id) := by
  obtain ⟨e, he⟩ := Option.isSome_iff_exists.1 h
  exact safe_of_eq_ok (get_eq_ok.2 he)

theorem safe_scannerSource {target : ElementId} (h : (g.element? target).isSome = true)
    (scanner : ElementId) :
    Safe (g.scannerSource g.names scanner target) := by
  refine (safe_get h).bind fun e _ => ?_
  split
  · exact (safe_find h).bind fun _ _ => safe_ok _
  · exact (safe_find h).bind fun _ _ => safe_ok _
  · exact safe_error rfl

namespace Closed

theorem safe_elementRef (hc : g.Closed) (hg : g.Built) {id : ElementId}
    (h : (g.element? id).isSome = true) :
    Safe (g.elementRef g.names id) := by
  refine (safe_get h).bind fun e he => (safe_find h).bind fun n _ => ?_
  split
  · exact safe_ok _
  · exact safe_ok _
  · exact safe_ok _
  · exact safe_ok _
  · next t ht =>
    have hmem : e ∈ g.elements := List.mem_of_getElem? (get_eq_ok.1 he)
    exact safe_scannerSource ((hg.closed_iff.1 hc).1 e hmem t (by rw [ht]; rfl)) id

theorem safe_inputRef (hc : g.Closed) (hg : g.Built) {id : ElementId}
    (h : (g.element? id).isSome = true) (p : InputPort) : Safe (g.inputRef g.names id p) :=
  (safe_get h).bind fun e _ => (safe_inputMember id e.variant p).bind fun _ _ =>
    (hc.safe_elementRef hg h).bind fun _ _ => safe_ok _

theorem safe_outputRef (hc : g.Closed) (hg : g.Built) {id : ElementId}
    (h : (g.element? id).isSome = true) :
    Safe (g.outputRef g.names id) :=
  (safe_get h).bind fun e _ => (safe_outputMember id e.variant).bind fun _ _ =>
    (hc.safe_elementRef hg h).bind fun _ _ => safe_ok _

variable {e : Element}

theorem safe_edge (hc : g.Closed) (hg : g.Built) (he : e ∈ g.elements) {edge : Edge}
    (hedge : edge ∈ e.edges) :
    Safe (g.inputRef g.names edge.target edge.port) :=
  hc.safe_inputRef hg ((hg.closed_iff.1 hc).2.1 e he edge hedge) edge.port

theorem safe_lower (hc : g.Closed) (hg : g.Built) (he : e ∈ g.elements) :
    Safe (g.lower g.names e) := by
  unfold lower
  split
  · exact safe_ok _
  · exact safe_ok _
  · exact safe_ok _
  · exact safe_ok _
  · next t ht =>
    have htarget : (g.element? t).isSome = true := (hg.closed_iff.1 hc).1 e he t (by rw [ht]; rfl)
    exact (safe_scannerSource htarget e.id).bind fun source _ =>
      (safe_mapM fun edge hedge => hc.safe_edge hg he hedge).bind fun _ _ => safe_ok _

theorem safe_namedEntry (hc : g.Closed) (hg : g.Built) (he : e ∈ g.elements) :
    Safe (g.namedEntry g.names e) :=
  (hc.safe_lower hg he).bind fun _ _ =>
    (safe_find (Option.isSome_iff_exists.2 ⟨e, hg.element?_id he⟩)).bind fun _ _ => safe_ok _

theorem safe_namedLookup {t : LookupTable}
    (h : ∀ p ∈ t, ∀ id ∈ p.1 :: p.2, (g.element? id).isSome = true) :
    Safe (namedLookup g.names t) := by
  refine safe_mapM fun p hp => ?_
  obtain ⟨hkey, hvalues⟩ := List.forall_mem_cons.1 (h p hp)
  exact (safe_find hkey).bind fun key _ =>
    (safe_mapM fun id hid => safe_find (hvalues id hid)).bind fun _ _ => safe_ok _

theorem safe_elementSubscriptions (hc : g.Closed) (hg : g.Built) {id : ElementId}
    (h : (g.element? id).isSome = true) : Safe (g.elementSubscriptions g.names id) := by
  refine (safe_get h).bind fun e he => ?_
  have he : g.element? id = some e := get_eq_ok.1 he
  have hmem : e ∈ g.elements := List.mem_of_getElem? he
  have houtput : ∀ o ∈ e.outputs, Safe (g.outputSubscriptions g.names e o) := by
    intro o ho
    refine (hc.safe_outputRef hg (hg.id_eq he ▸ h)).bind fun source _ => safe_mapM fun edge hedge =>
      ?_
    exact (hc.safe_edge hg hmem (List.mem_flatMap.2 ⟨o, ho, hedge⟩)).bind fun _ _ => safe_ok _
  split
  · exact safe_ok _
  · exact safe_ok _
  · exact (safe_mapM houtput).bind fun _ _ => safe_ok _

theorem safe_wire (hc : g.Closed) (hg : g.Built) : Safe (g.wire g.names) := by
  refine safe_mapM fun s hs => (safe_mapM fun id hid => ?_).bind fun _ _ => safe_ok _
  have hstrata := (hg.closed_iff.1 hc).2.2.1
  exact hc.safe_elementSubscriptions hg (hstrata s ((strataInOrder_perm g).mem_iff.1 hs) id hid)

/-- A pipeline is made from a closed graph without internal errors, or not made for another reason.
-/
theorem safe_ofGraph (hc : g.Closed) (hg : g.Built) : Safe (Pipeline.ofGraph g) := by
  obtain ⟨-, -, -, hinvalidation, hrescan⟩ := hg.closed_iff.1 hc
  have hnames : Safe (Names.ofGraph g) := (safe_assign [] g.elements).bind fun _ _ => safe_ok _
  refine hnames.bind fun ns hns => ?_
  obtain rfl : ns = g.names := (Names.ofGraph_eq_ok.1 hns).2
  exact (safe_mapM fun p hp => safe_of_eq_ok (tableEntry_eq_ok hg hp)).bind fun tables _ =>
    (safe_mapM fun p hp => safe_of_eq_ok (inputEntry_eq_ok hg hp)).bind fun inputs _ =>
    (safe_mapM fun e he => hc.safe_namedEntry hg (mem_of_mem_emissionOrder he)).bind
      fun entries _ =>
    (safe_namedLookup hinvalidation).bind fun invalidation _ =>
    (safe_namedLookup hrescan).bind fun rescan _ =>
    (hc.safe_wire hg).bind fun _ _ => safe_ok _

theorem safe_generate (hc : g.Closed) (hg : g.Built) (o : Options) : Safe (g.generate o) := by
  unfold generate
  split
  · exact (hc.safe_ofGraph hg).bind fun _ _ => safe_ok _
  · exact safe_error rfl

end Closed

end Graph

/-! ### Violations -/

/-- A violation that is about a number without an element. -/
def Violation.isDangling : Violation → Bool
  | edgeTarget .. | stratumMember .. | lookupMember .. => true
  | _ => false

/-- Such violations are told from others by what is reported. -/
theorem Violation.isDangling_iff {v : Violation} :
    v.isDangling = true ↔
      (v.code = .port ∧ v.hint? = none) ∨ (v.code = .unplaced ∧ v.subject? = none) ∨
        (v.code = .lookup ∧ v.subject? = none) := by
  cases v with
  | edgePort t v p =>
    have hhint : (edgePort t v p).hint? ≠ none := by
      rw [hint?]
      split <;> simp
    simp [isDangling, code, hhint]
  | _ => simp [isDangling, code, hint?, subject?]

namespace Graph

variable {g : Graph} {v : Violation}

theorem isDangling_of_code {cs : List Code} (hv : v.code ∈ cs) (hport : .port ∉ cs)
    (hunplaced : .unplaced ∉ cs) (hlookup : .lookup ∉ cs) : v.isDangling = false := by
  rw [← Bool.not_eq_true, Violation.isDangling_iff]
  rintro (⟨hc, -⟩ | ⟨hc, -⟩ | ⟨hc, -⟩)
  · exact hport (hc ▸ hv)
  · exact hunplaced (hc ▸ hv)
  · exact hlookup (hc ▸ hv)

theorem isDangling_of_mem_ite {p : Prop} [Decidable p] {w : Violation} (hw : w.isDangling = false)
    (h : v ∈ if p then [w] else []) : v.isDangling = false := by
  rw [List.mem_ite_nil_right, List.mem_singleton] at h
  exact h.2 ▸ hw

theorem isDangling_of_mem_portViolations
    (h : ∀ e ∈ g.elements, ∀ edge ∈ e.edges, (g.element? edge.target).isSome = true)
    (hv : v ∈ g.portViolations) : v.isDangling = false := by
  obtain ⟨e, he, hv⟩ := List.mem_flatMap.1 hv
  rcases List.mem_append.1 hv with hv | hv
  · obtain ⟨o, -, hv⟩ := List.mem_flatMap.1 hv
    exact isDangling_of_mem_ite rfl hv
  · obtain ⟨edge, hedge, hv⟩ := List.mem_flatMap.1 hv
    obtain ⟨t, ht⟩ := Option.isSome_iff_exists.1 (h e he edge hedge)
    rw [edgeViolations, ht] at hv
    rw [List.mem_ite_nil_left, List.mem_singleton] at hv
    rw [hv.2]
    rfl

theorem isDangling_of_mem_memberViolations {index : Nat} {placed : List (ElementId × Nat)}
    {ids : List ElementId} (h : ∀ id ∈ ids, (g.element? id).isSome = true)
    (hv : v ∈ (g.memberViolations index placed ids).1) :
    v.isDangling = false := by
  induction ids generalizing placed with
  | nil => cases hv
  | cons id ids ih =>
    obtain ⟨hid, hids⟩ := List.forall_mem_cons.1 h
    have hid : ¬(g.element? id).isNone = true := by simpa [Option.isSome_iff_ne_none] using hid
    unfold memberViolations at hv
    rw [if_neg hid] at hv
    rcases List.mem_append.1 hv with hv | hv
    · split at hv
      · rw [List.mem_singleton.1 hv]
        rfl
      · cases hv
    · exact ih hids hv

theorem isDangling_of_mem_stratumViolations {indices : List Nat} {placed : List (ElementId × Nat)}
    {strata : List Stratum} (h : ∀ s ∈ strata, ∀ id ∈ s.elements, (g.element? id).isSome = true)
    (hv : v ∈ (g.stratumViolations indices placed strata).1) : v.isDangling = false := by
  induction strata generalizing indices placed with
  | nil => cases hv
  | cons s strata ih =>
    obtain ⟨hs, hstrata⟩ := List.forall_mem_cons.1 h
    simp only [stratumViolations, List.mem_append] at hv
    rcases hv with (hv | hv) | hv
    · exact isDangling_of_mem_ite rfl hv
    · exact isDangling_of_mem_memberViolations hs hv
    · exact ih hstrata hv

theorem isDangling_of_mem_strataViolations
    (h : ∀ s ∈ g.strata, ∀ id ∈ s.elements, (g.element? id).isSome = true)
    (hv : v ∈ g.strataViolations) : v.isDangling = false := by
  rcases List.mem_append.1 hv with hv | hv
  · exact isDangling_of_mem_stratumViolations h hv
  · obtain ⟨e, -, hv⟩ := List.mem_flatMap.1 hv
    exact isDangling_of_mem_ite rfl hv

theorem isDangling_of_mem_lookupViolationsFrom {role : LookupRole} {keys : List ElementId}
    {t : LookupTable} (h : ∀ p ∈ t, ∀ id ∈ p.1 :: p.2, (g.element? id).isSome = true)
    (hv : v ∈ g.lookupViolationsFrom role keys t) :
    v.isDangling = false := by
  induction t generalizing keys with
  | nil => cases hv
  | cons p t ih =>
    obtain ⟨hp, ht⟩ := List.forall_mem_cons.1 h
    simp only [lookupViolationsFrom, List.mem_append, List.mem_flatMap] at hv
    rcases hv with (hv | ⟨id, hid, hv⟩) | hv
    · exact isDangling_of_mem_ite rfl hv
    · rw [if_neg (by simpa [Option.isSome_iff_ne_none] using hp id hid)] at hv
      cases hv
    · exact ih ht hv

/-- No violation of a closed graph is about a number without an element. -/
theorem Closed.isDangling_eq_false (hc : g.Closed) (hg : g.Built) (hv : v ∈ g.violations) :
    v.isDangling = false := by
  obtain ⟨-, hedges, hstrata, hinvalidation, hrescan⟩ := hg.closed_iff.1 hc
  simp only [violations, lookupViolations, List.mem_append] at hv
  rcases hv with ((((hv | hv) | hv) | hv) | hv) | hv | hv
  · exact isDangling_of_code (code_of_mem_relationViolations hv) (by decide) (by decide) (by decide)
  · exact isDangling_of_code (code_of_mem_scannerViolations hv) (by decide) (by decide) (by decide)
  · exact isDangling_of_mem_portViolations hedges hv
  · exact isDangling_of_code (code_of_mem_functionsViolations hv) (by decide) (by decide)
      (by decide)
  · exact isDangling_of_mem_strataViolations hstrata hv
  · exact isDangling_of_mem_lookupViolationsFrom hinvalidation hv
  · exact isDangling_of_mem_lookupViolationsFrom hrescan hv

/-- Nothing that is reported about a closed graph is about a number without an element. -/
theorem Closed.diagnostic_not_mem (hc : g.Closed) (hg : g.Built) (hv : v.isDangling = true) :
    v.diagnostic ∉ g.validate.diagnostics := by
  rw [diagnostics_validate]
  intro hmem
  obtain ⟨w, hw, heq⟩ := List.mem_map.1 hmem
  have hcode : w.code = v.code := Option.some.inj (congrArg Diagnostic.code heq)
  have hsubject : w.subject? = v.subject? := congrArg Diagnostic.subject heq
  have hhint : w.hint? = v.hint? := congrArg Diagnostic.hint heq
  have hdangling : w.isDangling = true := by
    rw [Violation.isDangling_iff] at hv ⊢
    rwa [hcode, hsubject, hhint]
  rw [hc.isDangling_eq_false hg hw] at hdangling
  cases hdangling

/-! ### Loaded graphs -/

/-- A loaded graph was built from a document that describes it. -/
theorem exists_describes_of_load {text : String} (h : (load text).graph = some g) :
    ∃ d, Document.decode text = .ok d ∧ d.Describes g ∧ g.Built := by
  unfold load at h
  split at h
  · next d hd => exact ⟨d, hd, Document.describes_of_load h⟩
  · cases h

/-- **Loaded graphs hold together.** Whatever else is wrong with a loaded graph, generation does not
meet a number without an element or a misfiled relation, no check reports a number without an
element, and all numbers in the graph are numbers of its elements. In particular the greatest number
of 32 bits is none of them, as long as there are fewer elements. -/
theorem closed_of_load {text : String} (h : (load text).graph = some g) :
    (∀ o id, g.generate o ≠ .error (.unknownElement id)) ∧
      (∀ o r id v, g.generate o ≠ .error (.misfiledRelation r id v)) ∧
      (∀ source id, (Violation.edgeTarget source id).diagnostic ∉ g.validate.diagnostics) ∧
      (∀ index id, (Violation.stratumMember index id).diagnostic ∉ g.validate.diagnostics) ∧
      (∀ role id, (Violation.lookupMember role id).diagnostic ∉ g.validate.diagnostics) ∧
      g.Closed ∧ (g.elements.length < UInt32.size → UInt32.size - 1 ∉ g.mentions) := by
  obtain ⟨d, -, hd, hg⟩ := exists_describes_of_load h
  have hc : g.Closed := hd.closed hg
  refine ⟨fun o id herr => ?_, fun o r id v herr => ?_, fun _ _ => hc.diagnostic_not_mem hg rfl,
    fun _ _ => hc.diagnostic_not_mem hg rfl, fun _ _ => hc.diagnostic_not_mem hg rfl, hc,
    fun hlt hmem => ?_⟩
  · cases hc.safe_generate hg o _ herr
  · cases hc.safe_generate hg o _ herr
  · have hid : UInt32.size - 1 < g.elements.length := isSome_element?.1 (hc _ hmem)
    exact absurd hid (Nat.not_lt.2 (Nat.le_sub_one_of_lt hlt))

/-- A document with two elements for one relation, a scanner of itself and one of an operator, an
edge to a port that its target does not have, two strata of one index, an element in both, and a key
that comes twice. -/
def tangled : Document where
  elements := [.table "r" 0, .input "r", .scanner (.index 2), .map "[$0]" 0, .scanner (.index 3)]
  edges :=
    [⟨.index 2, .name "r", .left⟩, ⟨.index 0, .index 3, .input⟩, ⟨.index 3, .index 3, .delta⟩]
  strata := [⟨0, [.index 3, .index 1]⟩, ⟨0, [.index 3]⟩]
  invalidation := [⟨.name "r", [.index 2]⟩, ⟨.index 0, []⟩]

theorem closed_of_load_tangled :
    ∃ g, (load tangled.encode).graph = some g ∧ g.validate.certificate.allPass = false ∧
      (∀ id, g.generate {} ≠ .error (.unknownElement id)) ∧
      (∀ r id v, g.generate {} ≠ .error (.misfiledRelation r id v)) ∧
      (Violation.edgeTarget "2" 0).diagnostic ∉ g.validate.diagnostics ∧
      (Violation.stratumMember 0 3).diagnostic ∉ g.validate.diagnostics ∧
      (Violation.lookupMember .invalidation 0).diagnostic ∉ g.validate.diagnostics ∧
      g.Closed ∧ UInt32.size - 1 ∉ g.mentions := by
  have hchecked :
      tangled.load.graph.map (fun g => (g.validate.certificate.allPass, g.elements.length)) =
      some (false, 5) := by decide +kernel
  obtain ⟨g, hg, hpair⟩ := Option.map_eq_some_iff.1 hchecked
  obtain ⟨hpass, hlength⟩ := Prod.mk.inj hpair
  have hload : (load tangled.encode).graph = some g := by rw [load_encode, hg]
  obtain ⟨hunknown, hmisfiled, hedge, hstratum, hlookup, hclosed, hgreatest⟩ := closed_of_load hload
  exact ⟨g, hload, hpass, hunknown {}, hmisfiled {}, hedge "2" 0, hstratum 0 3,
    hlookup .invalidation 0, hclosed, hgreatest (by rw [hlength]; decide)⟩

end Graph

end Dataflow
