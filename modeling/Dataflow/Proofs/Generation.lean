import Dataflow.Pipeline.Source
import Dataflow.Proofs.Lexing
import Dataflow.Proofs.Wellformed

/-!
# When a pipeline is generated, and which one

Every function between a graph and its pipeline may fail. For each of them there is a condition
under which it succeeds and a value that it then has, and the lemma `…_eq_ok` says that it succeeds
under this condition only and with this value only. Together they give

* `Generable`, the condition under which a pipeline is generated, and `Graph.pipeline`, the pipeline
  that is generated (`Pipeline.ofGraph_eq_ok`);
* that every well-shaped graph is generable (`WellShaped.generable`), so that no graph that passes
  its checks is refused.
-/

namespace Dataflow

/-! ### Computations that may fail -/

section Except

variable {ε α β : Type}

theorem bind_eq_ok {x : Except ε α} {f : α → Except ε β} {b : β} :
    (x >>= f) = .ok b ↔ ∃ a, x = .ok a ∧ f a = .ok b := by
  cases x with
  | error e => simp [bind, Except.bind]
  | ok a => simp [bind, Except.bind]

theorem pure_eq_ok {a b : α} : (pure a : Except ε α) = .ok b ↔ b = a := by
  simp [pure, Except.pure, eq_comm]

/-- A computation over a list succeeds if it does for every member, and then has their values. -/
theorem mapM_eq_ok {f : α → Except ε β} {p : α → Prop} {v : α → β} {l : List α}
    (h : ∀ a ∈ l, ∀ b, f a = .ok b ↔ p a ∧ b = v a) (bs : List β) :
    l.mapM f = .ok bs ↔ (∀ a ∈ l, p a) ∧ bs = l.map v := by
  induction l generalizing bs with
  | nil => simp [pure_eq_ok]
  | cons a l ih =>
    rw [List.forall_mem_cons] at h
    simp only [List.mapM_cons, bind_eq_ok, pure_eq_ok, h.1, ih h.2, List.forall_mem_cons,
      List.map_cons]
    constructor
    · rintro ⟨b, ⟨ha, rfl⟩, cs, ⟨hl, rfl⟩, rfl⟩
      exact ⟨⟨ha, hl⟩, rfl⟩
    · rintro ⟨⟨ha, hl⟩, rfl⟩
      exact ⟨v a, ⟨ha, rfl⟩, l.map v, ⟨hl, rfl⟩, rfl⟩

end Except

/-! ### Names -/

/-- The names of a graph's elements. -/
def Graph.names (g : Graph) : Names := ⟨g.elements.map Element.identity⟩

theorem Names.assign_eq_ok {owners : List (String × ElementId)} {es : List Element}
    {ns : List String} :
    assign owners es = .ok ns ↔
      ((es.map Element.identity).Nodup ∧ ∀ n ∈ es.map Element.identity, n ∉ owners.map Prod.fst) ∧
        ns = es.map Element.identity := by
  induction es generalizing owners ns with
  | nil => simp [assign, eq_comm]
  | cons e es ih =>
    unfold assign
    cases hl : owners.lookup e.identity with
    | none =>
      have hfresh := Graph.lookup_eq_none.1 hl
      simp only [bind_eq_ok, pure_eq_ok, ih, List.map_cons, List.nodup_cons]
      clear ih
      grind
    | some first =>
      have hseen := Graph.mem_of_lookup_eq_some hl
      simp only [reduceCtorEq, false_iff, List.map_cons]
      clear ih
      grind

/-- Names are assigned unless two elements are known by the same. -/
theorem Names.ofGraph_eq_ok {g : Graph} {ns : Names} :
    Names.ofGraph g = .ok ns ↔ (g.elements.map Element.identity).Nodup ∧ ns = g.names := by
  simp only [ofGraph, bind_eq_ok, pure_eq_ok, assign_eq_ok]
  constructor
  · rintro ⟨names, ⟨⟨hnodup, _⟩, rfl⟩, rfl⟩
    exact ⟨hnodup, rfl⟩
  · rintro ⟨hnodup, rfl⟩
    exact ⟨_, ⟨⟨hnodup, by simp⟩, rfl⟩, rfl⟩

/-- The member that a port is in generated code. -/
def InputPort.member : InputPort → String
  | left => "leftInput"
  | right => "rightInput"
  | delta => "Delta"
  | input => "input"

theorem inputMember_eq_ok {id : ElementId} {v : Variant} {p : InputPort} {m : String} :
    inputMember id v p = .ok m ↔ p ∈ v.inputPorts ∧ m = p.member := by
  cases v <;> cases p <;> simp [inputMember, Variant.inputPorts, InputPort.member, eq_comm]

theorem outputMember_eq_ok {id : ElementId} {v : Variant} {m : String} :
    outputMember id v = .ok m ↔ v ≠ .table ∧ m = outputName := by
  cases v <;> simp [outputMember, eq_comm]

/-- The registry for a sort of elements; scanners have none. -/
def Variant.section? : Variant → Option Section
  | table => some .tables
  | input => some .inputs
  | join | map => some .operators
  | scanner => none

namespace Graph

variable {g : Graph}

theorem names_find_eq_ok (id : ElementId) (n : String) :
    g.names.find id = .ok n ↔ (g.element? id).isSome = true ∧ n = g.label id := by
  have hnames : g.names.names[id]? = (g.element? id).map Element.identity := List.getElem?_map
  unfold Names.find label
  rw [hnames]
  cases g.element? id with
  | none => simp
  | some e => simp [eq_comm]

theorem get_eq_ok {id : ElementId} {e : Element} : g.get id = .ok e ↔ g.element? id = some e := by
  unfold get
  cases g.element? id with
  | none => simp
  | some e => simp

/-! ### References -/

/-- The registry that an element is entered in. -/
def registry (g : Graph) (id : ElementId) : Section :=
  ((g.element? id).bind fun e => e.variant.section?).getD .operators

/-- The scanner of an element. -/
def scannerRef (g : Graph) (id : ElementId) : Reference := .scanner (g.registry id) (g.label id)

/-- The entry of an element. -/
def entryRef (g : Graph) (id : ElementId) : Reference := .entry (g.registry id) (g.label id)

/-- The element that a scanner reads. -/
def scanned? (g : Graph) (id : ElementId) : Option ElementId :=
  match (g.element? id).map Element.kind with
  | some (.scanner t) => some t
  | _ => none

/-- The reference to an element, if it has one. -/
def reference (g : Graph) (id : ElementId) : Reference :=
  match g.scanned? id with
  | some t => g.scannerRef t
  | none => g.entryRef id

/-- An element exists, and reads a table or input if it is a scanner. -/
def Resolves (g : Graph) (id : ElementId) : Prop :=
  (g.element? id).isSome = true ∧ ∀ t, g.scanned? id = some t → g.isScannable t = true

theorem scannerSource_eq_ok {scanner target : ElementId} {r : Reference} :
    g.scannerSource g.names scanner target = .ok r ↔
      g.isScannable target = true ∧ r = g.scannerRef target := by
  unfold scannerSource isScannable scannerRef registry
  cases ht : g.element? target with
  | none => simp [bind_eq_ok, get_eq_ok, ht]
  | some e =>
    have hfind {n : String} : g.names.find target = .ok n ↔ n = g.label target := by
      simp [names_find_eq_ok, ht]
    simp only [bind_eq_ok, get_eq_ok, ht, Option.some.injEq, exists_eq_left', Option.bind_some]
    cases e.variant with
    | table | input =>
      simp only [bind_eq_ok, pure_eq_ok, hfind, exists_eq_left, Variant.isScannable, true_and]
      rfl
    | join | map | scanner => simp [Variant.isScannable]

theorem elementRef_eq_ok {id : ElementId} {r : Reference} :
    g.elementRef g.names id = .ok r ↔ g.Resolves id ∧ r = g.reference id := by
  unfold elementRef Resolves reference scanned? entryRef registry
  cases he : g.element? id with
  | none => simp [bind_eq_ok, get_eq_ok, he]
  | some e =>
    have hfind {n : String} : g.names.find id = .ok n ↔ n = g.label id := by
      simp [names_find_eq_ok, he]
    simp only [bind_eq_ok, get_eq_ok, he, Option.some.injEq, exists_eq_left', hfind,
      Option.map_some]
    cases hk : e.kind <;>
      simp [pure_eq_ok, scannerSource_eq_ok, Element.variant, hk, ElementKind.variant,
        Variant.section?]

theorem scanned?_eq_some {id t : ElementId} :
    g.scanned? id = some t ↔ ∃ e, g.element? id = some e ∧ e.kind = .scanner t := by
  unfold scanned?
  cases g.element? id with
  | none => simp
  | some e => cases hk : e.kind <;> simp [hk]

/-- An element that is no scanner has an entry. -/
theorem elementRef_entry {id : ElementId} {e : Element} {r : Reference}
    (he : g.element? id = some e) (hv : e.variant ≠ .scanner) :
    g.elementRef g.names id = .ok r ↔ r = g.entryRef id := by
  have hs : g.scanned? id = none := by
    rw [Option.eq_none_iff_forall_ne_some]
    intro t ht
    obtain ⟨e', he', hk⟩ := scanned?_eq_some.1 ht
    cases he.symm.trans he'
    exact hv (by rw [Element.variant, hk]; rfl)
  simp [elementRef_eq_ok, Resolves, reference, hs, he]

/-- The port at which an edge ends. -/
def portRef (g : Graph) (edge : Edge) : PortReference := ⟨g.entryRef edge.target, edge.port.member⟩

theorem inputRef_eq_ok (edge : Edge) (r : PortReference) :
    g.inputRef g.names edge.target edge.port = .ok r ↔ g.Accepts edge ∧ r = g.portRef edge := by
  simp only [inputRef, bind_eq_ok, pure_eq_ok, get_eq_ok, inputMember_eq_ok, Accepts, portRef]
  constructor
  · rintro ⟨e, he, m, ⟨hp, rfl⟩, o, ho, rfl⟩
    have hv : e.variant ≠ .scanner := fun hv => by simp [hv, Variant.inputPorts] at hp
    rw [(elementRef_entry he hv).1 ho]
    exact ⟨⟨e, he, hp⟩, rfl⟩
  · rintro ⟨⟨e, he, hp⟩, rfl⟩
    have hv : e.variant ≠ .scanner := fun hv => by simp [hv, Variant.inputPorts] at hp
    exact ⟨e, he, _, ⟨hp, rfl⟩, _, (elementRef_entry he hv).2 rfl, rfl⟩

/-- The output of an element. -/
def outputPortRef (g : Graph) (id : ElementId) : PortReference := ⟨g.entryRef id, outputName⟩

theorem outputRef_eq_ok {id : ElementId} {e : Element} {r : PortReference}
    (he : g.element? id = some e) (hv : e.variant.needsStratum = true) :
    g.outputRef g.names id = .ok r ↔ r = g.outputPortRef id := by
  have ht : e.variant ≠ .table := fun h => by simp [h, Variant.needsStratum] at hv
  have hs : e.variant ≠ .scanner := fun h => by simp [h, Variant.needsStratum] at hv
  simp only [outputRef, bind_eq_ok, pure_eq_ok, get_eq_ok, he, outputMember_eq_ok,
    elementRef_entry he hs, Option.some.injEq, exists_eq_left', exists_eq_left, ne_eq, ht,
    not_false_eq_true, true_and, outputPortRef]

/-! ### Entries -/

/-- A scanner reads a table or input, and its edges end at ports that exist. -/
def Lowers (g : Graph) (e : Element) : Prop :=
  ∀ t, e.kind = .scanner t → g.isScannable t = true ∧ ∀ edge ∈ e.edges, g.Accepts edge

/-- What an element becomes. -/
def entryOf (g : Graph) (e : Element) : Entry :=
  match e.kind with
  | .table _ k => .table k
  | .input _ => .input
  | .join b p left => .operator (.join b p left)
  | .map f n => .operator (.map f n)
  | .scanner t => .scanner ⟨g.scannerRef t, e.edges.map g.portRef⟩

theorem lower_eq_ok {e : Element} {entry : Entry} :
    g.lower g.names e = .ok entry ↔ g.Lowers e ∧ entry = g.entryOf e := by
  unfold lower Lowers entryOf
  cases hk : e.kind with
  | table | input | join | map =>
    exact ⟨fun h => ⟨nofun, (Except.ok.inj h).symm⟩, fun h => congrArg _ h.2.symm⟩
  | scanner t =>
    have hports := mapM_eq_ok (l := e.edges) fun edge _ => inputRef_eq_ok (g := g) edge
    simp only [bind_eq_ok, pure_eq_ok, scannerSource_eq_ok, hports, ElementKind.scanner.injEq,
      forall_eq', and_assoc, exists_and_left, exists_eq_left]

theorem namedEntry_eq_ok (hg : g.Built) {e : Element} (he : e ∈ g.elements) (r : String × Entry) :
    g.namedEntry g.names e = .ok r ↔ g.Lowers e ∧ r = (e.identity, g.entryOf e) := by
  have hid := hg.element?_id he
  simp only [namedEntry, bind_eq_ok, pure_eq_ok, lower_eq_ok, names_find_eq_ok, hid,
    Option.isSome_some, true_and, and_assoc, exists_and_left, exists_eq_left, label]

/-! ### Registries -/

theorem map_filter {α β : Type} {p : α → Bool} {f : α → β} {l : List α} :
    (l.filter p).map f = l.filterMap fun a => if p a then some (f a) else none := by
  rw [← List.filterMap_eq_map, List.filterMap_filter]
  rfl

/-- The last key column of a table. -/
def lastKeyColumn (g : Graph) (id : ElementId) : Nat :=
  match (g.element? id).map Element.kind with
  | some (.table _ k) => k
  | _ => 0

theorem tableEntry_eq_ok (hg : g.Built) {p : String × ElementId} (hp : p ∈ g.tables.entries) :
    g.tableEntry g.names p = .ok (p.1, g.lastKeyColumn p.2) := by
  rw [hg.tables] at hp
  obtain ⟨e, he, hv, -⟩ := hg.exists_of_mem_declared (Registry.mem_of_mem_ofPairs hp)
  obtain ⟨r, k, hk⟩ : ∃ r k, e.kind = .table r k := by
    unfold Element.variant at hv
    cases hk : e.kind <;> simp_all [ElementKind.variant]
  simp only [tableEntry, bind_eq_ok, get_eq_ok, lower_eq_ok, he, Option.some.injEq, exists_eq_left',
    lastKeyColumn, Option.map_some]
  exact ⟨_, ⟨by simp [Lowers, hk], rfl⟩, by simp [entryOf, hk, pure, Except.pure]⟩

theorem inputEntry_eq_ok (hg : g.Built) {p : String × ElementId} (hp : p ∈ g.inputs.entries) :
    g.inputEntry g.names p = .ok p.1 := by
  rw [hg.inputs] at hp
  obtain ⟨e, he, hv, -⟩ := hg.exists_of_mem_declared (Registry.mem_of_mem_ofPairs hp)
  obtain ⟨r, hk⟩ : ∃ r, e.kind = .input r := by
    unfold Element.variant at hv
    cases hk : e.kind <;> simp_all [ElementKind.variant]
  simp only [inputEntry, bind_eq_ok, get_eq_ok, lower_eq_ok, he, Option.some.injEq, exists_eq_left']
  exact ⟨_, ⟨by simp [Lowers, hk], rfl⟩, by simp [entryOf, hk, pure, Except.pure]⟩

/-! ### The order of emission -/

theorem distinct_sublist (seen : List ElementId) (es : List Element) :
    (distinct seen es).Sublist es := by
  fun_induction distinct seen es with
  | case1 seen => exact .slnil
  | case2 seen e es hseen ih => exact ih.cons e
  | case3 seen e es hseen ih => exact ih.cons_cons e

theorem nodup_distinct (seen : List ElementId) (es : List Element) :
    ((distinct seen es).map Element.id).Nodup ∧ ∀ e ∈ distinct seen es, e.id ∉ seen := by
  fun_induction distinct seen es with
  | case1 seen => simp
  | case2 seen e es hseen ih => exact ih
  | case3 seen e es hseen ih =>
    simp only [List.map_cons, List.nodup_cons, List.mem_map, List.forall_mem_cons]
    refine ⟨⟨?_, ih.1⟩, hseen, fun e' he' hmem => ih.2 e' he' ?_⟩
    · rintro ⟨e', he', hid⟩
      refine ih.2 e' he' ?_
      rw [hid]
      exact List.mem_cons_self
    · exact List.mem_cons_of_mem _ hmem

theorem exists_mem_distinct {seen : List ElementId} {es : List Element} {e : Element} (he : e ∈ es)
    (hseen : e.id ∉ seen) : ∃ e' ∈ distinct seen es, e'.id = e.id := by
  fun_induction distinct seen es with
  | case1 seen => cases he
  | case2 seen d es hd ih =>
    rcases List.mem_cons.1 he with rfl | he
    · contradiction
    · exact ih he hseen
  | case3 seen d es hd ih =>
    by_cases hid : d.id = e.id
    · exact ⟨d, List.mem_cons_self, hid⟩
    · rcases List.mem_cons.1 he with rfl | he
      · contradiction
      · obtain ⟨e', he', hid'⟩ := ih he (by simp [hseen, Ne.symm hid])
        exact ⟨e', List.mem_cons_of_mem _ he', hid'⟩

theorem nodup_of_nodup_ids {es : List Element} (h : (es.map Element.id).Nodup) : es.Nodup :=
  List.Pairwise.of_map _ (fun _ _ hne heq => hne (congrArg _ heq)) h

theorem mem_of_mem_emissionOrder {e : Element} (h : e ∈ g.emissionOrder) : e ∈ g.elements := by
  have h := (distinct_sublist _ _).subset h
  simp only [List.mem_append, List.mem_map, stratifiedElements, List.mem_flatMap,
    List.mem_filterMap, Option.map_eq_some_iff] at h
  rcases h with ⟨p, ⟨s, hs, id, hid, e', he', rfl⟩, rfl⟩ | h
  · exact List.mem_of_getElem? he'
  · exact h

/-- Every element is emitted once, whatever the strata list. -/
theorem emissionOrder_perm (hg : g.Built) : g.emissionOrder.Perm g.elements := by
  have hnodup : g.emissionOrder.Nodup := nodup_of_nodup_ids (nodup_distinct [] _).1
  refine (List.perm_ext_iff_of_nodup hnodup (nodup_of_nodup_ids hg.nodup_ids)).2 fun e =>
    ⟨mem_of_mem_emissionOrder, fun he => ?_⟩
  -- some element with this number is emitted, and numbers are positions
  obtain ⟨e', he', hid⟩ :=
    exists_mem_distinct (List.mem_append_right _ he) (List.not_mem_nil (a := e.id))
  have h := hg.element?_id (mem_of_mem_emissionOrder he')
  rw [hid, hg.element?_id he] at h
  exact Option.some.inj h ▸ he'

/-! ### Lookup tables -/

theorem namedLookup_eq_ok {t : LookupTable} {n : NamedLookup} :
    namedLookup g.names t = .ok n ↔
      (∀ p ∈ t, ∀ id ∈ p.1 :: p.2, (g.element? id).isSome = true) ∧
        n = t.map fun p => (g.label p.1, p.2.map g.label) := by
  refine mapM_eq_ok (fun p _ q => ?_) n
  have hvalues := mapM_eq_ok (l := p.2) fun id _ => names_find_eq_ok (g := g) id
  simp only [bind_eq_ok, pure_eq_ok, names_find_eq_ok, hvalues, List.forall_mem_cons, and_assoc,
    exists_and_left, exists_eq_left]

/-! ### Wiring -/

/-- The edges that leave an element and are subscribed. -/
def wiredEdges (g : Graph) (id : ElementId) : List Edge :=
  match g.element? id with
  | some e => if e.variant.needsStratum then e.edges else []
  | none => []

/-- The subscription of an edge. -/
def subscription (g : Graph) (edge : Edge) : Subscription :=
  ⟨g.outputPortRef edge.source, g.portRef edge⟩

/-- An element exists, and its edges end at ports that exist if they are subscribed. -/
def Wires (g : Graph) (id : ElementId) : Prop :=
  (g.element? id).isSome = true ∧ ∀ edge ∈ g.wiredEdges id, g.Accepts edge

theorem outputSubscriptions_eq_ok (hg : g.Built) {e : Element} (he : e ∈ g.elements)
    (hv : e.variant.needsStratum = true) {o : OutputPort} (ho : o ∈ e.outputs)
    (subs : List Subscription) :
    g.outputSubscriptions g.names e o = .ok subs ↔
      (∀ edge ∈ o.connections, g.Accepts edge) ∧ subs = o.connections.map g.subscription := by
  simp only [outputSubscriptions, bind_eq_ok, outputRef_eq_ok (hg.element?_id he) hv,
    exists_eq_left]
  refine mapM_eq_ok (fun edge hedge sub => ?_) subs
  have hid : edge.source = e.id := hg.source_eq he edge (List.mem_flatMap.2 ⟨o, ho, hedge⟩)
  simp only [bind_eq_ok, pure_eq_ok, inputRef_eq_ok, subscription, hid, and_assoc, exists_and_left,
    exists_eq_left]

theorem elementSubscriptions_eq_ok (hg : g.Built) (id : ElementId) (subs : List Subscription) :
    g.elementSubscriptions g.names id = .ok subs ↔
      g.Wires id ∧ subs = (g.wiredEdges id).map g.subscription := by
  unfold elementSubscriptions Wires wiredEdges
  cases hid : g.element? id with
  | none => simp [bind_eq_ok, get_eq_ok, hid]
  | some e =>
    simp only [bind_eq_ok, get_eq_ok, hid, Option.some.injEq, exists_eq_left', Option.isSome_some,
      true_and]
    cases hv : e.variant with
    | table | scanner => simp [pure_eq_ok, Variant.needsStratum]
    | input | join | map =>
      have houtputs := mapM_eq_ok (l := e.outputs) fun o ho => outputSubscriptions_eq_ok hg
        (List.mem_of_getElem? hid) (by rw [hv]; rfl) ho
      simp only [bind_eq_ok, pure_eq_ok, houtputs, Variant.needsStratum, if_true, Element.edges,
        List.forall_mem_flatMap, List.map_flatMap, and_assoc, exists_and_left, exists_eq_left]
      rfl

/-- The subscriptions of a stratum. -/
def stratumWiring (g : Graph) (s : Stratum) : StratumWiring :=
  ⟨s.index, (s.elements.flatMap g.wiredEdges).map g.subscription⟩

theorem strataInOrder_perm (g : Graph) : g.strataInOrder.Perm g.strata :=
  List.mergeSort_perm g.strata _

theorem index_le_trans (a b c : Stratum) (hab : decide (a.index ≤ b.index) = true)
    (hbc : decide (b.index ≤ c.index) = true) : decide (a.index ≤ c.index) = true := by
  simp only [decide_eq_true_eq] at *
  omega

theorem index_le_total (a b : Stratum) :
    (decide (a.index ≤ b.index) || decide (b.index ≤ a.index)) = true := by
  simp only [Bool.or_eq_true, decide_eq_true_eq]
  omega

theorem strataInOrder_increasing (g : Graph) :
    g.strataInOrder.Pairwise fun a b => a.index ≤ b.index :=
  (List.pairwise_mergeSort index_le_trans index_le_total g.strata).imp of_decide_eq_true

theorem wire_eq_ok (hg : g.Built) {wiring : List StratumWiring} :
    g.wire g.names = .ok wiring ↔
      (∀ s ∈ g.strata, ∀ id ∈ s.elements, g.Wires id) ∧
      wiring = g.strataInOrder.map g.stratumWiring := by
  have hwire :=
    mapM_eq_ok (f := g.wireStratum g.names) (p := fun s => ∀ id ∈ s.elements, g.Wires id)
    (v := g.stratumWiring) (l := g.strataInOrder) fun s _ w => ?_
  · simpa only [wire, (strataInOrder_perm g).mem_iff] using hwire wiring
  · have helements := mapM_eq_ok (l := s.elements) fun id _ => elementSubscriptions_eq_ok hg id
    simp only [wireStratum, bind_eq_ok, pure_eq_ok, helements, stratumWiring, List.map_flatMap,
      and_assoc, exists_and_left, exists_eq_left]
    rfl

/-! ### Pipelines -/

/-- What has to hold of a graph for which a pipeline is generated. No two elements are known by the
same; scanners read tables and inputs, and feed ports that exist; strata list elements that exist,
whose edges end at ports that exist if they are subscribed; and the lookup tables name elements that
exist. -/
structure Generable (g : Graph) : Prop where
  nodup : (g.elements.map Element.identity).Nodup
  lowers : ∀ e ∈ g.elements, g.Lowers e
  wires : ∀ s ∈ g.strata, ∀ id ∈ s.elements, g.Wires id
  invalidation : ∀ p ∈ g.invalidation, ∀ id ∈ p.1 :: p.2, (g.element? id).isSome = true
  rescan : ∀ p ∈ g.rescan, ∀ id ∈ p.1 :: p.2, (g.element? id).isSome = true

/-- The elements under their names, in the order of emission. -/
def emitted (g : Graph) : List (String × Entry) :=
  g.emissionOrder.map fun e => (e.identity, g.entryOf e)

/-- The pipeline of a graph for which one is generated. -/
def pipeline (g : Graph) : Pipeline where
  tables := g.tables.entries.map fun p => (p.1, g.lastKeyColumn p.2)
  inputs := g.inputs.entries.map Prod.fst
  operators := g.emitted.filterMap operatorEntry?
  scanners := g.emitted.filterMap scannerEntry?
  invalidation := g.invalidation.map fun p => (g.label p.1, p.2.map g.label)
  rescan := g.rescan.map fun p => (g.label p.1, p.2.map g.label)
  wiring := g.strataInOrder.map g.stratumWiring

end Graph

/-- A pipeline is generated exactly from a generable graph. -/
theorem Pipeline.ofGraph_eq_ok {g : Graph} (hg : g.Built) {p : Pipeline} :
    Pipeline.ofGraph g = .ok p ↔ g.Generable ∧ p = g.pipeline := by
  have htables :=
    mapM_eq_ok (f := g.tableEntry g.names) (p := fun _ => True) (l := g.tables.entries)
    fun r hr q => by rw [Graph.tableEntry_eq_ok hg hr, Except.ok.injEq, true_and, eq_comm]
  have hinputs :=
    mapM_eq_ok (f := g.inputEntry g.names) (p := fun _ => True) (l := g.inputs.entries)
    fun r hr q => by rw [Graph.inputEntry_eq_ok hg hr, Except.ok.injEq, true_and, eq_comm]
  have hentries := mapM_eq_ok (l := g.emissionOrder) fun e he =>
    Graph.namedEntry_eq_ok hg (Graph.mem_of_mem_emissionOrder he)
  simp only [(Graph.emissionOrder_perm hg).mem_iff] at hentries
  simp only [ofGraph, bind_eq_ok, pure_eq_ok, Names.ofGraph_eq_ok, and_assoc, exists_and_left,
    exists_eq_left, htables, hinputs, hentries, Graph.namedLookup_eq_ok, Graph.wire_eq_ok hg,
    implies_true, true_and]
  exact ⟨fun ⟨hn, hl, hi, hr, hw, hp⟩ => ⟨⟨hn, hl, hw, hi, hr⟩, hp⟩,
    fun ⟨h, hp⟩ => ⟨h.nodup, h.lowers, h.invalidation, h.rescan, h.wires, hp⟩⟩

/-! ### Graphs that pass their checks -/

/-- A number is no identifier. -/
theorem ne_toString_of_isIdentifier {s : String} (h : isIdentifier s = true) (n : Nat) :
    s ≠ toString n := by
  rintro rfl
  obtain ⟨c, r, hcr, hc, _⟩ := exists_cons_of_isIdentifier h
  obtain ⟨d, r', hdr, hd, _⟩ := exists_digits n
  cases hcr.symm.trans hdr
  rw [isNameStart_of_isDigit hd] at hc
  cases hc

theorem toString_injective {m n : Nat} (h : toString m = toString n) : m = n := by
  obtain ⟨c, r, hcr, _, _, hm⟩ := exists_digits m
  obtain ⟨d, r', hdr, _, _, hn⟩ := exists_digits n
  rw [h, hdr] at hcr
  rw [← hm, ← hn, hcr]

namespace Graph

variable {g : Graph}

/-- Elements have distinct numbers and relations distinct names, and no relation is called like a
number. -/
theorem WellNamed.nodup_identity (h : g.WellNamed) (hg : g.Built) :
    (g.elements.map Element.identity).Nodup := by
  have hids := List.pairwise_map.1 hg.nodup_ids
  have hrelations := List.pairwise_filterMap.1 h.nodup
  refine List.pairwise_map.2 ((hids.and hrelations).imp_of_mem fun {a b} ha hb ⟨hid, hrel⟩ => ?_)
  have hname {e : Element} (he : e ∈ g.elements) {r : String} (hr : e.relation? = some r) :
      isIdentifier r = true :=
    (Bool.and_eq_true _ _ ▸ h.isRelationName e he r hr).1
  unfold Element.identity
  cases hra : a.relation? with
  | none =>
    cases hrb : b.relation? with
    | none => exact fun he => hid (toString_injective he)
    | some r => exact (ne_toString_of_isIdentifier (hname hb hrb) a.id).symm
  | some r =>
    cases hrb : b.relation? with
    | none => exact ne_toString_of_isIdentifier (hname ha hra) b.id
    | some r' => exact hrel r hra r' hrb

theorem exists_of_mem_wiredEdges {id : ElementId} {edge : Edge} (h : edge ∈ g.wiredEdges id) :
    ∃ e, g.element? id = some e ∧ e.variant.needsStratum = true ∧ edge ∈ e.edges := by
  unfold wiredEdges at h
  split at h
  · next e he =>
    split at h
    · next hv => exact ⟨e, he, hv, h⟩
    · cases h
  · cases h

theorem mem_edges_of_mem {e : Element} (he : e ∈ g.elements) {edge : Edge} (h : edge ∈ e.edges) :
    edge ∈ g.edges :=
  List.mem_flatMap.2 ⟨e, he, h⟩

theorem mem_edges_of_mem_wiredEdges {id : ElementId} {edge : Edge} (h : edge ∈ g.wiredEdges id) :
    edge ∈ g.edges := by
  obtain ⟨e, he, _, hedge⟩ := exists_of_mem_wiredEdges h
  exact mem_edges_of_mem (List.mem_of_getElem? he) hedge

/-- Every condition of generation follows from one of the checks. -/
theorem WellShaped.generable (h : g.WellShaped) (hg : g.Built) : g.Generable where
  nodup := h.named.nodup_identity hg
  lowers e he t ht :=
    ⟨h.scanned e he t ht, fun edge hedge => h.connected edge (mem_edges_of_mem he hedge)⟩
  wires s hs id hid := ⟨h.stratified.isSome id (List.mem_flatMap.2 ⟨s, hs, hid⟩),
    fun edge hedge => h.connected edge (mem_edges_of_mem_wiredEdges hedge)⟩
  invalidation := h.indexed.invalidation.isSome
  rescan := h.indexed.rescan.isSome

/-- A module is generated exactly from a generable graph, under a factory name that is an
identifier. -/
theorem generate_eq_ok (hg : g.Built) {o : Options} {m : Generated} :
    g.generate o = .ok m ↔
      (isIdentifier o.factory = true ∧ g.Generable) ∧ m = g.pipeline.generated o := by
  unfold generate
  split
  · next ho =>
    simp only [bind_eq_ok, pure_eq_ok, Pipeline.ofGraph_eq_ok hg, ho, true_and, and_assoc,
      exists_and_left, exists_eq_left]
  · next ho => simp [ho]

/-- **Checked graphs generate.** From every graph that steps make and that passes all checks, a
module is generated. -/
theorem generate_of_allPass (steps : List BuildStep) (o : Options)
    (ho : isIdentifier o.factory = true)
    (hpass : (ofSteps steps).validate.certificate.allPass = true) :
    ∃ m, (ofSteps steps).generate o = .ok m :=
  have hg := built_ofSteps steps
  ⟨_, (generate_eq_ok hg).2 ⟨⟨ho, (WellShaped.of_allPass hpass).generable hg⟩, rfl⟩⟩

theorem generate_of_allPass_join :
    let steps : List BuildStep :=
      [.add (.table "total" 0), .add (.input "left"), .add (.input "right"),
        .add (.join (.param default 0) (.param default 0) true), .add (.map (.param default 1) 2),
        .add (.scanner 0), .connect 1 3 .left, .connect 2 3 .right, .connect 3 4 .input,
        .connect 4 0 .delta, .connect 5 4 .input, .connect 0 4 .input, .stratum 7 [4, 3],
        .stratum 2 [1, 2], .invalidate 0 [3, 5], .rescan 5 [0]]
    (isIdentifier "createPipeline" = true ∧ (ofSteps steps).validate.certificate.allPass = true) ∧
      ∃ m, (ofSteps steps).generate {} = .ok m := by
  intro steps
  have ho : isIdentifier "createPipeline" = true := by decide
  have hpass : (ofSteps steps).validate.certificate.allPass = true := by decide +kernel
  exact ⟨⟨ho, hpass⟩, generate_of_allPass steps {} ho hpass⟩

end Graph

end Dataflow
