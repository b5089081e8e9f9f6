import Mathlib.Algebra.GroupWithZero.Nat
import Dataflow.Proofs.Registries

/-!
# Every edge is wired once

In a graph that passes its checks every edge is accounted for once. What becomes of it depends on
the element that it leaves:

* edges that leave neither a table nor a scanner are subscribed, each by one statement, in the order
  of the strata, of the elements that a stratum lists, and of the steps that made the edges;
* edges that leave a scanner are the targets of the scanner's entry, in the order of the steps that
  made them;
* edges that leave a table are counted by warnings.

`Accounted` says so, and `accounted_of_allPass` proves it.
-/

namespace Dataflow

/-! ### The texts of edges -/

namespace Graph

variable {g : Graph}

/-- The text of an entry: its registry, indexed by its name. -/
def entryText (g : Graph) (id : ElementId) : String :=
  (g.registry id).text ++ "[" ++ Script.quote (g.label id) ++ "]"

/-- The text of the port at which an edge ends. -/
def portText (g : Graph) (edge : Edge) : String :=
  g.entryText edge.target ++ "." ++ edge.port.member

/-- The statement that subscribes an edge. -/
def statementText (g : Graph) (edge : Edge) : String :=
  g.entryText edge.source ++ ".output.subscribe(" ++ g.portText edge ++ ");\n"

theorem render_subscription (edge : Edge) :
    (g.subscription edge).layout.render = g.statementText edge := by
  have hopen : ".output.subscribe(" = "." ++ outputName ++ ".subscribe(" := by decide
  have hclose : ");\n" = ");" ++ "\n" := by decide
  rw [(block_subscription (g.subscription edge)).render, unlines, unlines, String.append_empty]
  simp only [statementText, portText, hopen, hclose, Subscription.text, PortReference.text,
    subscription, portRef, outputPortRef, entryRef, Reference.text, entryText, String.append_assoc]

end Graph

/-! ### Edges by the elements that they leave -/

/-- The edges that leave an element of this sort are subscribed: it is neither a table nor a
scanner. -/
def Variant.isSubscribed (v : Variant) : Bool := v != .table && v != .scanner

namespace Graph

variable {g : Graph}

/-- An edge leaves an element of some sorts. -/
def leaves (g : Graph) (p : Variant → Bool) (edge : Edge) : Bool :=
  (g.element? edge.source).any fun e => p e.variant

/-- The edges that leave elements of some sorts. -/
def edgesFrom (g : Graph) (p : Variant → Bool) : List Edge := g.edges.filter (g.leaves p)

theorem Built.leaves_eq (hg : g.Built) {e : Element} (he : e ∈ g.elements) {edge : Edge}
    (hedge : edge ∈ e.edges) (p : Variant → Bool) : g.leaves p edge = p e.variant := by
  rw [leaves, hg.source_eq he edge hedge, hg.element?_id he, Option.any_some]

/-- The edges of an element leave one sort together. -/
theorem Built.filter_leaves (hg : g.Built) {e : Element} (he : e ∈ g.elements)
    (p : Variant → Bool) :
    e.edges.filter (g.leaves p) = if p e.variant then e.edges else [] := by
  split
  · next hp => exact List.filter_eq_self.2 fun edge hedge => (hg.leaves_eq he hedge p).trans hp
  · next hp => exact List.filter_eq_nil_iff.2 fun edge hedge => by rwa [hg.leaves_eq he hedge p]

theorem Built.edgesFrom_eq (hg : g.Built) (p : Variant → Bool) :
    g.edgesFrom p = g.elements.flatMap fun e => if p e.variant then e.edges else [] := by
  rw [edgesFrom, edges, List.filter_flatMap]
  exact List.flatMap_congr fun e he => hg.filter_leaves he p

/-- A list falls into three parts if each of its members is of one sort. -/
theorem perm_filter_sorts {α : Type} {l : List α} {p q r : α → Bool}
    (h : ∀ x ∈ l, (q x && !p x) = q x ∧ (!q x && !p x) = r x) :
    l.Perm (l.filter p ++ l.filter q ++ l.filter r) := by
  have hq : (l.filter fun x => !p x).filter q = l.filter q := by
    rw [List.filter_filter]
    exact List.filter_congr fun x hx => (h x hx).1
  have hr : ((l.filter fun x => !p x).filter fun x => !q x) = l.filter r := by
    rw [List.filter_filter]
    exact List.filter_congr fun x hx => (h x hx).2
  have hrest := List.filter_append_perm q (l.filter fun x => !p x)
  rw [hq, hr] at hrest
  rw [List.append_assoc]
  exact (List.filter_append_perm p l).symm.trans (hrest.symm.append_left _)

/-- Every edge is subscribed, or leaves a scanner, or leaves a table. -/
theorem Built.edges_perm (hg : g.Built) :
    g.edges.Perm
      (g.edgesFrom Variant.isSubscribed ++ g.edgesFrom (· == .scanner) ++
        g.edgesFrom (· == .table)) := by
  refine perm_filter_sorts fun edge hedge => ?_
  obtain ⟨e, he, hedge⟩ := List.mem_flatMap.1 hedge
  simp only [hg.leaves_eq he hedge]
  cases e.variant <;> decide

/-! ### Statements -/

theorem Built.wiredEdges_eq (hg : g.Built) (id : ElementId) :
    g.wiredEdges id = (g.edgesOf id).filter (g.leaves Variant.isSubscribed) := by
  unfold wiredEdges edgesOf
  cases he : g.element? id with
  | none => rfl
  | some e =>
    have hsort : e.variant.needsStratum = e.variant.isSubscribed := by cases e.variant <;> rfl
    simp only [Option.map_some, Option.getD_some, hg.filter_leaves (List.mem_of_getElem? he), hsort]

theorem flatMap_filter {α β : Type} {p : α → Bool} {f : α → List β} {l : List α} :
    (l.filter p).flatMap f = l.flatMap fun a => if p a then f a else [] := by
  induction l with
  | nil => rfl
  | cons a l ih => cases ha : p a <;> simp [ha, ih]

/-- Lists without repetition that share the members which matter give the same, up to order. -/
theorem flatMap_perm_of_nodup {α β : Type} {l m : List α} {f : α → List β} (hl : l.Nodup)
    (hm : m.Nodup) (h : ∀ a, f a ≠ [] → (a ∈ l ↔ a ∈ m)) : (l.flatMap f).Perm (m.flatMap f) := by
  have hfilter (k : List α) : (k.filter fun a => !(f a).isEmpty).flatMap f = k.flatMap f := by
    rw [flatMap_filter]
    congr 1
    funext a
    cases f a <;> rfl
  rw [← hfilter l, ← hfilter m]
  refine List.Perm.flatMap_right f
    ((List.perm_ext_iff_of_nodup (hl.filter _) (hm.filter _)).2 fun a => ?_)
  simp only [List.mem_filter, Bool.not_eq_true', List.isEmpty_eq_false_iff]
  exact ⟨fun ⟨ha, hne⟩ => ⟨(h a hne).1 ha, hne⟩, fun ⟨ha, hne⟩ => ⟨(h a hne).2 ha, hne⟩⟩

/-- In the order of the strata every subscribed edge comes once. -/
theorem WellStratified.wiredEdges_perm (h : g.WellStratified) (hg : g.Built) :
    ((g.strataInOrder.flatMap Stratum.elements).flatMap g.wiredEdges).Perm
      (g.edgesFrom Variant.isSubscribed) := by
  have hstrata := (strataInOrder_perm g).flatMap_right Stratum.elements
  have helements :
      g.edgesFrom Variant.isSubscribed = (g.elements.map Element.id).flatMap g.wiredEdges := by
    rw [hg.edgesFrom_eq, List.flatMap_map]
    refine List.flatMap_congr fun e he => ?_
    rw [hg.wiredEdges_eq, edgesOf, hg.element?_id he, Option.map_some, Option.getD_some,
      hg.filter_leaves he]
  rw [helements]
  refine flatMap_perm_of_nodup (hstrata.nodup_iff.2 h.nodup_elements) hg.nodup_ids fun id hne => ?_
  -- an element with subscribed edges exists and needs a stratum
  obtain ⟨edge, hedge⟩ := List.exists_mem_of_ne_nil _ hne
  obtain ⟨e, he, hv, _⟩ := exists_of_mem_wiredEdges hedge
  have hid := hg.id_eq he
  have hmem := List.mem_of_getElem? he
  rw [hstrata.mem_iff]
  exact iff_of_true (hid ▸ h.placed e hmem hv) (hid ▸ List.mem_map_of_mem hmem)

/-! ### Scanners -/

/-- The text of the entry of a scanner: what it reads, and the ports at which edges end. -/
def scannerText (g : Graph) (target : ElementId) (edges : List Edge) : String :=
  "\x7b scan: () => " ++ (g.entryText target ++ ".scanner()") ++ ", targets: [" ++
    ", ".intercalate (edges.map g.portText) ++ "] \x7d"

/-- The entry of an element that is a scanner, under its name; none for another element. -/
def scannerRows (g : Graph) (edges : List Edge) (e : Element) : List (String × String) :=
  match e.kind with
  | .scanner t => [(e.identity, g.scannerText t edges)]
  | _ => []

theorem text_scannerRef (id : ElementId) :
    (g.scannerRef id).text = g.entryText id ++ ".scanner()" := by
  have hclose : "].scanner()" = "]" ++ ".scanner()" := by decide
  rw [scannerRef, Reference.text, entryText, hclose, ← String.append_assoc]

theorem render_entryOf {e : Element} {t : ElementId} (h : e.kind = .scanner t) :
    (g.entryOf e).layout.render = g.scannerText t e.edges := by
  have hentry : g.entryOf e = .scanner ⟨g.scannerRef t, e.edges.map g.portRef⟩ := by
    rw [entryOf, h]
  have hports : (e.edges.map g.portRef).map PortReference.text = e.edges.map g.portText :=
    List.map_map
  have hrender := (spells_scanner ⟨g.scannerRef t, e.edges.map g.portRef⟩).render
  unfold ScannerEntry.text at hrender
  rw [text_scannerRef, hports] at hrender
  rw [hentry]
  exact hrender

/-- Every scanner has one entry, with its edges as targets. -/
theorem Built.scannerRows_perm (hg : g.Built) :
    (g.pipeline.scanners.map fun s => (s.1, s.2.layout.render)).Perm
      (g.elements.flatMap fun e => g.scannerRows e.edges e) := by
  have hentries := (scanners_perm hg).map fun t => (t.1, t.2.layout.render)
  have hrows : (g.entriesOf [.scanner]).map (fun t => (t.1, t.2.layout.render)) =
      g.elements.flatMap fun e => g.scannerRows e.edges e := by
    rw [entriesOf, ofVariants, List.map_map, List.map_eq_flatMap, flatMap_filter]
    refine congrArg (g.elements.flatMap ·) (funext fun e => ?_)
    cases hk : e.kind with
    | table | input | join | map =>
      simp [scannerRows, Element.variant, hk, ElementKind.variant]
    | scanner t =>
      simp [scannerRows, Element.variant, hk, ElementKind.variant, render_entryOf hk]
  rw [hrows, List.map_map] at hentries
  exact hentries

end Graph

/-! ### Warnings -/

/-- The number of edges that a violation counts. -/
def Violation.edgeCount? : Violation → Option Nat
  | .tableEdges _ n => some n
  | _ => none

/-- What a warning about so many edges says. -/
def edgeWarning (n : Nat) : String :=
  toString n ++ " outgoing edge(s) from a table are never subscribed"

theorem Violation.edgeCount?_eq_none {v : Violation} (h : v.code ≠ .tableEdge) :
    v.edgeCount? = none := by
  cases v with
  | tableEdges => exact absurd rfl h
  | _ => rfl

theorem Code.text_eq_iff {c : Code} : c.text = "W0110" ↔ c = .tableEdge := by
  cases c <;> decide

/-- The warnings among diagnostics are those of the violations that count edges. -/
theorem warnings_eq (vs : List Violation) :
    ((vs.map Violation.diagnostic).filter fun d => d.code.map Code.text == some "W0110").map
      Diagnostic.message =
      (vs.filterMap Violation.edgeCount?).map edgeWarning := by
  rw [Graph.map_filter, List.filterMap_map, List.map_filterMap]
  congr 1
  funext v
  by_cases hv : v.code = .tableEdge
  · cases v with
    | tableEdges => rfl
    | _ => cases hv
  · have hcode : (v.diagnostic.code.map Code.text == some "W0110") = false := by
      simpa [Violation.diagnostic, Code.text_eq_iff] using hv
    dsimp only [Function.comp_apply]
    rw [hcode, Violation.edgeCount?_eq_none hv]
    rfl

namespace Graph

variable {g : Graph}

theorem filterMap_edgeCount? {vs : List Violation} {codes : List Code}
    (h : ∀ v ∈ vs, v.code ∈ codes) (hcodes : .tableEdge ∉ codes) :
    vs.filterMap Violation.edgeCount? = [] :=
  List.filterMap_eq_nil_iff.2 fun v hv => Violation.edgeCount?_eq_none fun he =>
    hcodes (he ▸ h v hv)

theorem sum_edgeCount_tableEdges (e : Element) (os : List OutputPort) :
    ((os.flatMap (tableEdgeViolations e)).filterMap Violation.edgeCount?).sum =
      if e.variant == .table then (os.flatMap OutputPort.connections).length else 0 := by
  induction os with
  | nil => simp
  | cons o os ih =>
    rw [List.flatMap_cons, List.filterMap_append, List.sum_append_nat, ih, List.flatMap_cons,
      List.length_append]
    unfold tableEdgeViolations
    cases hc : o.connections with
    | nil => simp
    | cons edge edges => by_cases hv : e.variant = .table <;> simp [hv, Violation.edgeCount?]

theorem sum_edgeCount_ports (es : List Element) :
    ((es.flatMap fun e =>
      e.outputs.flatMap (tableEdgeViolations e) ++ e.edges.flatMap (g.edgeViolations e)).filterMap
        Violation.edgeCount?).sum =
      (es.flatMap fun e => if e.variant == .table then e.edges else []).length := by
  induction es with
  | nil => rfl
  | cons e es ih =>
    have hports : (e.edges.flatMap (g.edgeViolations e)).filterMap Violation.edgeCount? = [] := by
      refine filterMap_edgeCount? (fun v hv => ?_) (by decide : Code.tableEdge ∉ [Code.port])
      obtain ⟨edge, _, hv⟩ := List.mem_flatMap.1 hv
      exact code_of_mem_edgeViolations hv
    rw [List.flatMap_cons, List.filterMap_append, List.filterMap_append, hports, List.append_nil,
      List.sum_append_nat, sum_edgeCount_tableEdges, ih, List.flatMap_cons, List.length_append]
    split <;> rfl

/-- The warnings count the edges that leave tables. -/
theorem Built.sum_edgeCount (hg : g.Built) :
    (g.violations.filterMap Violation.edgeCount?).sum = (g.edgesFrom (· == .table)).length := by
  -- only the checks of ports report such counts
  simp only [violations, List.filterMap_append,
    filterMap_edgeCount? (fun _ => code_of_mem_relationViolations) (by decide),
    filterMap_edgeCount? (fun _ => code_of_mem_scannerViolations) (by decide),
    filterMap_edgeCount? (fun _ => code_of_mem_functionsViolations) (by decide),
    filterMap_edgeCount? (fun _ => code_of_mem_strataViolations) (by decide),
    filterMap_edgeCount? (fun _ => code_of_mem_lookupViolations) (by decide), List.nil_append,
    List.append_nil]
  rw [portViolations, sum_edgeCount_ports, hg.edgesFrom_eq]

/-! ### All edges -/

/-- Every edge of a graph is accounted for once by its pipeline and its diagnostics; `made` has the
edges in the order in which they were made. The statements are those of the subscribed edges, and
the number of them is the one that is reported. They come by stratum, in a stratum by element as it
is listed, and then as the edges were made. Every scanner has one entry, with its edges as they were
made. The numbers in the warnings add up to the edges that leave tables. -/
structure Accounted (g : Graph) (made : List Edge) (p : Pipeline) : Prop where
  sorts : g.edges.Perm
    (g.edgesFrom Variant.isSubscribed ++ g.edgesFrom (· == .scanner) ++ g.edgesFrom (· == .table))
  made_eq : ∀ id,
    (g.edges.filter fun edge => edge.source == id) = made.filter fun edge => edge.source == id
  statements : ((p.wiring.flatMap StratumWiring.subscriptions).map fun s => s.layout.render).Perm
    ((g.edgesFrom Variant.isSubscribed).map g.statementText)
  count : subscriptionCount p.wiring = (g.edgesFrom Variant.isSubscribed).length
  stats : ∀ o m, g.generate o = .ok m →
    m.stats.subscriptions = (g.edgesFrom Variant.isSubscribed).length
  ascending : (p.wiring.map StratumWiring.index).Pairwise (· < ·)
  strata : g.strataInOrder.Perm g.strata
  order : (p.wiring.map fun w => (w.index, w.subscriptions.map fun s => s.layout.render)) =
    g.strataInOrder.map fun s => (s.index, (s.elements.flatMap fun id =>
      (made.filter fun edge => edge.source == id).filter
        (g.leaves Variant.isSubscribed)).map g.statementText)
  scanners : (p.scanners.map fun s => (s.1, s.2.layout.render)).Perm
    (g.elements.flatMap fun e => g.scannerRows (made.filter fun edge => edge.source == e.id) e)
  scannerEdges : ((g.elements.filter fun e => e.variant == .scanner).flatMap fun e =>
    made.filter fun edge => edge.source == e.id) = g.edgesFrom (· == .scanner)
  warnings : ∃ counts : List Nat,
    ((g.validate.diagnostics.filter fun d => d.code.map Code.text == some "W0110").map
      Diagnostic.message) =
      counts.map edgeWarning ∧ counts.sum = (g.edgesFrom (· == .table)).length

theorem pairwise_strataInOrder (h : (g.strata.map Stratum.index).Nodup) :
    (g.strataInOrder.map Stratum.index).Pairwise (· < ·) := by
  have hnodup := ((strataInOrder_perm g).map Stratum.index).nodup_iff.2 h
  have hlt := (strataInOrder_increasing g).and (List.pairwise_map.1 hnodup)
  refine List.pairwise_map.2 (hlt.imp fun {a b} ⟨hab, hne⟩ => ?_)
  omega

theorem statements_pipeline (g : Graph) :
    (g.pipeline.wiring.flatMap StratumWiring.subscriptions).map (fun s => s.layout.render) =
      ((g.strataInOrder.flatMap Stratum.elements).flatMap g.wiredEdges).map g.statementText := by
  simp only [pipeline, stratumWiring, List.flatMap_map, List.map_flatMap, List.flatMap_assoc,
    List.map_map, render_subscription, Function.comp_def]

/-- A graph that was built and is well shaped accounts for every edge. -/
theorem WellShaped.accounted (h : g.WellShaped) (hg : g.Built) {made : List Edge}
    (hmade : ∀ id, g.edgesOf id = made.filter fun edge => edge.source == id) :
    g.Accounted made g.pipeline := by
  have hstatements :
      ((g.pipeline.wiring.flatMap StratumWiring.subscriptions).map fun s => s.layout.render).Perm
      ((g.edgesFrom Variant.isSubscribed).map g.statementText) := by
    rw [statements_pipeline]
    exact (h.stratified.wiredEdges_perm hg).map _
  have hcount :
      subscriptionCount g.pipeline.wiring = (g.edgesFrom Variant.isSubscribed).length := by
    simpa [subscriptionCount_eq] using hstatements.length_eq
  have hedges : ∀ e ∈ g.elements, e.edges = made.filter fun edge => edge.source == e.id := by
    intro e he
    rw [← hmade, edgesOf, hg.element?_id he]
    rfl
  refine
    { sorts := hg.edges_perm
      made_eq := fun id => by rw [hg.filter_source, hmade]
      statements := hstatements
      count := hcount
      stats := ?_
      ascending := ?_
      strata := strataInOrder_perm g
      order := ?_
      scanners := ?_
      scannerEdges := ?_
      warnings := ⟨_, ?_, hg.sum_edgeCount⟩ }
  · intro o m hm
    rw [((generate_eq_ok hg).1 hm).2]
    exact hcount
  · have hindex :
        g.pipeline.wiring.map StratumWiring.index = g.strataInOrder.map Stratum.index := by
      simp [pipeline, stratumWiring, Function.comp_def]
    rw [hindex]
    exact pairwise_strataInOrder h.stratified.nodup_indices
  · simp only [pipeline, stratumWiring, List.map_map, ← hmade, ← hg.wiredEdges_eq,
      Function.comp_def, render_subscription]
  · refine hg.scannerRows_perm.trans (.of_eq (List.flatMap_congr fun e he => ?_))
    rw [← hedges e he]
  · rw [hg.edgesFrom_eq, ← flatMap_filter]
    exact List.flatMap_congr fun e he => (hedges e (List.mem_filter.1 he).1).symm
  · rw [diagnostics_validate]
    exact warnings_eq g.violations

/-- **Every edge is wired once.** From every graph that steps make and that passes all checks, a
pipeline is generated that accounts for every edge. -/
theorem accounted_of_allPass (steps : List BuildStep)
    (hpass : (ofSteps steps).validate.certificate.allPass = true) :
    ∃ ns p, Names.ofGraph (ofSteps steps) = .ok ns ∧ (ofSteps steps).wire ns = .ok p.wiring ∧
      Pipeline.ofGraph (ofSteps steps) = .ok p ∧
      (ofSteps steps).Accounted (connections 0 steps) p := by
  have hg := built_ofSteps steps
  have hshape := WellShaped.of_allPass hpass
  have hgen := hshape.generable hg
  exact ⟨_, _, Names.ofGraph_eq_ok.2 ⟨hgen.nodup, rfl⟩, (wire_eq_ok hg).2 ⟨hgen.wires, rfl⟩,
    (Pipeline.ofGraph_eq_ok hg).2 ⟨hgen, rfl⟩, hshape.accounted hg (edgesOf_ofSteps steps)⟩

theorem accounted_of_allPass_join :
    let steps : List BuildStep :=
      [.add (.table "total" 0), .add (.input "left"), .add (.input "right"),
        .add (.join (.param default 0) (.param default 0) true), .add (.map (.param default 1) 2),
        .add (.scanner 0), .connect 1 3 .left, .connect 2 3 .right, .connect 3 4 .input,
        .connect 4 0 .delta, .connect 5 4 .input, .connect 0 4 .input, .connect 3 4 .input,
        .stratum 7 [4, 3], .stratum 2 [1, 2], .invalidate 0 [3, 5], .rescan 5 [0]]
    (ofSteps steps).validate.certificate.allPass = true ∧
      ∃ ns p, Names.ofGraph (ofSteps steps) = .ok ns ∧ (ofSteps steps).wire ns = .ok p.wiring ∧
        Pipeline.ofGraph (ofSteps steps) = .ok p ∧
        (ofSteps steps).Accounted (connections 0 steps) p := by
  intro steps
  have hpass : (ofSteps steps).validate.certificate.allPass = true := by decide +kernel
  exact ⟨hpass, accounted_of_allPass steps hpass⟩

end Graph

end Dataflow
