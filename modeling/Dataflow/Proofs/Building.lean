import Dataflow.Graph.Builder

/-!
# What building keeps

Every graph that is built from nothing by steps is in good order, whatever numbers the steps name:

* the number of an element is its position;
* an element has one output, which belongs to it and whose edges start at it, but a table has none
  until an edge leaves it;
* the registries follow from the elements: they hold the tables and inputs as they were declared,
  the first one for each relation.

`Built` says so. One step keeps it (`Built.apply`), and so every run of steps has it
(`built_ofSteps`).

The steps also tell the parts of the graph: its elements, strata and lookup entries are the ones
that steps added, in the order of the steps (`kinds_ofSteps` and what follows it), and the edges
that leave an element are the ones that steps made there (`edgesOf_ofSteps`). An edge from an
element that does not exist yet is not made (`connections`).
-/

namespace Dataflow

/-! ### Registries -/

/-- The registry of some declarations, where the first one of a name counts. -/
def Registry.ofPairs (ps : List (String × ElementId)) : Registry :=
  ps.foldl (fun r p => r.insertNew p.1 p.2) {}

namespace Registry

theorem ofPairs_append (ps : List (String × ElementId)) (name : String) (id : ElementId) :
    ofPairs (ps ++ [(name, id)]) = (ofPairs ps).insertNew name id := by
  simp [ofPairs]

theorem mem_insertEntry {name : String} {id : ElementId} {p : String × ElementId}
    {ps : List (String × ElementId)} (h : p ∈ insertEntry name id ps) :
    p = (name, id) ∨ p ∈ ps := by
  fun_induction insertEntry name id ps with
  | case1 => simpa using h
  | case2 n i rest hlt => simpa using h
  | case3 i rest hlt =>
    rcases List.mem_cons.1 h with rfl | h
    · exact .inl rfl
    · exact .inr (List.mem_cons_of_mem _ h)
  | case4 n i rest hlt heq ih =>
    rcases List.mem_cons.1 h with rfl | h
    · exact .inr List.mem_cons_self
    · exact (ih h).imp_right (List.mem_cons_of_mem _)

theorem mem_insertNew {r : Registry} {name : String} {id : ElementId} {p : String × ElementId}
    (h : p ∈ (r.insertNew name id).entries) : p = (name, id) ∨ p ∈ r.entries := by
  unfold insertNew at h
  split at h
  · exact .inr h
  · exact mem_insertEntry h

theorem mem_foldl_insertNew {ps : List (String × ElementId)} {p : String × ElementId} {r : Registry}
    (h : p ∈ (ps.foldl (fun r p => r.insertNew p.1 p.2) r).entries) : p ∈ r.entries ∨ p ∈ ps := by
  induction ps generalizing r with
  | nil => exact .inl h
  | cons q ps ih =>
    rcases ih h with h | h
    · rcases mem_insertNew h with rfl | h
      · exact .inr List.mem_cons_self
      · exact .inl h
    · exact .inr (List.mem_cons_of_mem q h)

/-- A registry holds nothing that was not declared. -/
theorem mem_of_mem_ofPairs {ps : List (String × ElementId)} {p : String × ElementId}
    (h : p ∈ (ofPairs ps).entries) : p ∈ ps :=
  (mem_foldl_insertNew h).resolve_left List.not_mem_nil

end Registry

/-! ### Elements -/

namespace Element

/-- An element has one output with edges that start at the element; a table has none, or one with
edges. -/
def Formed (e : Element) : Prop :=
  (e.outputs = [] ∧ e.variant = .table) ∨
    ∃ edges : List Edge, e.outputs = [⟨e.id, edges⟩] ∧ (∀ edge ∈ edges, edge.source = e.id) ∧
      (e.variant = .table → edges ≠ [])

@[simp] theorem connect_id (e : Element) (target : ElementId) (port : InputPort) :
    (e.connect target port).id = e.id := by
  unfold connect
  split <;> rfl

@[simp] theorem connect_kind (e : Element) (target : ElementId) (port : InputPort) :
    (e.connect target port).kind = e.kind := by
  unfold connect
  split <;> rfl

/-- The relation that an element of a sort declares, with its number. -/
def declares? (v : Variant) (e : Element) : Option (String × ElementId) :=
  (e.relation?.filter fun _ => e.variant == v).map fun r => (r, e.id)

theorem connect_declares? (v : Variant) (e : Element) (target : ElementId) (port : InputPort) :
    (e.connect target port).declares? v = e.declares? v := by
  simp only [declares?, variant, relation?, connect_kind, connect_id]

/-- The element that a step adds. -/
def fresh (id : ElementId) (kind : ElementKind) : Element :=
  ⟨id, kind, if kind.variant.hasOutput then [⟨id, []⟩] else []⟩

theorem formed_fresh (id : ElementId) (kind : ElementKind) : (fresh id kind).Formed := by
  cases kind with
  | table => exact .inl ⟨rfl, rfl⟩
  | input | join | map | scanner => exact .inr ⟨[], rfl, by simp, nofun⟩

theorem Formed.source_eq {e : Element} (h : e.Formed) : ∀ edge ∈ e.edges, edge.source = e.id := by
  rcases h with ⟨ho, _⟩ | ⟨edges, ho, hs, _⟩
  · simp [edges, ho]
  · simpa [Element.edges, ho] using hs

theorem Formed.connect {e : Element} (h : e.Formed) (target : ElementId) (port : InputPort) :
    (e.connect target port).Formed := by
  right
  rcases h with ⟨ho, _⟩ | ⟨edges, ho, hs, _⟩
  · exact ⟨[⟨e.id, target, port⟩], by simp [Element.connect, ho]⟩
  · refine ⟨edges ++ [⟨e.id, target, port⟩], by simp [Element.connect, ho], fun edge he => ?_,
      by simp⟩
    rw [connect_id]
    rcases List.mem_append.1 he with he | he
    · exact hs edge he
    · rw [List.mem_singleton.1 he]

theorem Formed.edges_connect {e : Element} (h : e.Formed) (target : ElementId) (port : InputPort) :
    (e.connect target port).edges = e.edges ++ [⟨e.id, target, port⟩] := by
  rcases h with ⟨ho, _⟩ | ⟨edges, ho, _, _⟩ <;> simp [Element.connect, Element.edges, ho]

end Element

/-! ### Graphs -/

namespace Graph

/-- The relations that elements of a sort declare, with these elements. -/
def declared (g : Graph) (v : Variant) : List (String × ElementId) :=
  g.elements.filterMap (Element.declares? v)

theorem elements_add (g : Graph) (kind : ElementKind) :
    (g.add kind).elements = g.elements ++ [.fresh g.nextId kind] := by
  cases kind <;> rfl

theorem declared_add (g : Graph) (kind : ElementKind) (v : Variant) :
    (g.add kind).declared v =
      g.declared v ++ ((Element.fresh g.nextId kind).declares? v).toList := by
  rw [declared, elements_add, List.filterMap_append]
  rfl

theorem element?_connect (g : Graph) (source target : ElementId) (port : InputPort)
    (id : ElementId) :
    (g.connect source target port).element? id =
      (g.element? id).map fun e => if source = id then e.connect target port else e := by
  simp only [element?, Graph.connect, List.getElem?_modify]
  rfl

theorem mem_elements_connect {g : Graph} {source target : ElementId} {port : InputPort}
    {e : Element} (h : e ∈ (g.connect source target port).elements) :
    ∃ e' ∈ g.elements, e = e' ∨ e = e'.connect target port := by
  obtain ⟨i, hi⟩ := List.mem_iff_getElem?.1 h
  replace hi : (g.connect source target port).element? i = some e := hi
  rw [element?_connect] at hi
  obtain ⟨e', he', rfl⟩ := Option.map_eq_some_iff.1 hi
  refine ⟨e', List.mem_of_getElem? he', ?_⟩
  split
  · exact .inr rfl
  · exact .inl rfl

/-- An edge changes nothing but the outputs of its source. -/
theorem map_connect (g : Graph) (source target : ElementId) (port : InputPort) {α : Type}
    {f : Element → α} (hf : ∀ e : Element, f (e.connect target port) = f e) :
    (g.connect source target port).elements.map f = g.elements.map f := by
  apply List.ext_getElem?
  intro i
  have h := element?_connect g source target port i
  simp only [element?] at h
  rw [List.getElem?_map, List.getElem?_map, h, Option.map_map]
  congr 1
  funext e
  simp only [Function.comp_apply]
  split
  · exact hf e
  · rfl

theorem declared_connect (g : Graph) (source target : ElementId) (port : InputPort) (v : Variant) :
    (g.connect source target port).declared v = g.declared v := by
  have h := map_connect g source target port fun e => Element.connect_declares? v e target port
  have hmap (l : List Element) :
      (l.map (Element.declares? v)).filterMap id = l.filterMap (Element.declares? v) := by
    rw [List.filterMap_map]
    rfl
  rw [declared, ← hmap, h, hmap, declared]

/-- The good order of a graph that was built: the number of an element is its position, the outputs
of every element are in order, and the tables and inputs are registered. -/
structure Built (g : Graph) : Prop where
  ids : g.elements.map Element.id = List.range g.elements.length
  formed : ∀ e ∈ g.elements, e.Formed
  tables : g.tables = .ofPairs (g.declared .table)
  inputs : g.inputs = .ofPairs (g.declared .input)

theorem built_empty : ({} : Graph).Built where
  ids := rfl
  formed := by simp
  tables := rfl
  inputs := rfl

namespace Built

variable {g : Graph}

theorem add (h : g.Built) (kind : ElementKind) : (g.add kind).Built where
  ids := by
    rw [elements_add, List.map_append, h.ids, List.length_append, List.length_singleton,
      List.range_succ]
    rfl
  formed e he := by
    rw [elements_add, List.mem_append, List.mem_singleton] at he
    rcases he with he | rfl
    · exact h.formed e he
    · exact Element.formed_fresh g.nextId kind
  tables := by
    rw [declared_add]
    cases kind with
    | table r k =>
      exact (congrArg (·.insertNew r g.nextId) h.tables).trans (Registry.ofPairs_append ..).symm
    | input | join | map | scanner => exact h.tables.trans (congrArg _ (List.append_nil _).symm)
  inputs := by
    rw [declared_add]
    cases kind with
    | input r =>
      exact (congrArg (·.insertNew r g.nextId) h.inputs).trans (Registry.ofPairs_append ..).symm
    | table | join | map | scanner => exact h.inputs.trans (congrArg _ (List.append_nil _).symm)

theorem connect (h : g.Built) (source target : ElementId) (port : InputPort) :
    (g.connect source target port).Built where
  ids := by
    rw [map_connect g source target port (by simp), h.ids]
    simp [Graph.connect]
  formed e he := by
    obtain ⟨e', he', rfl | rfl⟩ := mem_elements_connect he
    · exact h.formed _ he'
    · exact (h.formed _ he').connect target port
  tables := by rw [declared_connect]; exact h.tables
  inputs := by rw [declared_connect]; exact h.inputs

/-- One step keeps a graph in order. -/
theorem apply (h : g.Built) (step : BuildStep) : (g.apply step).Built := by
  cases step with
  | add kind => exact h.add kind
  | connect s t p => exact h.connect s t p
  | stratum | invalidate | rescan => exact ⟨h.ids, h.formed, h.tables, h.inputs⟩

end Built

/-- Every graph that steps make is in order. -/
theorem built_ofSteps (steps : List BuildStep) : (ofSteps steps).Built := by
  suffices h : ∀ g : Graph, g.Built → (steps.foldl Graph.apply g).Built from h {} built_empty
  induction steps with
  | nil => exact fun g h => h
  | cons step steps ih => exact fun g h => ih _ (h.apply step)

/-! ### Elements by their numbers -/

namespace Built

variable {g : Graph} {e : Element} {id : ElementId}

theorem id_eq (h : g.Built) (he : g.element? id = some e) : e.id = id := by
  have hid : (g.elements.map Element.id)[id]? = some e.id := by
    rw [List.getElem?_map]
    exact congrArg _ he
  rw [h.ids] at hid
  obtain ⟨hlt, hget⟩ := List.getElem?_eq_some_iff.1 hid
  rw [List.getElem_range] at hget
  exact hget.symm

theorem element?_id (h : g.Built) (he : e ∈ g.elements) : g.element? e.id = some e := by
  obtain ⟨i, hi⟩ := List.mem_iff_getElem?.1 he
  rw [h.id_eq hi]
  exact hi

theorem nodup_ids (h : g.Built) : (g.elements.map Element.id).Nodup := by
  rw [h.ids]
  exact List.nodup_range

theorem source_eq (h : g.Built) (he : e ∈ g.elements) : ∀ edge ∈ e.edges, edge.source = e.id :=
  (h.formed e he).source_eq

theorem exists_of_mem_declared (h : g.Built) {r : String} {v : Variant}
    (hd : (r, id) ∈ g.declared v) :
    ∃ e, g.element? id = some e ∧ e.variant = v ∧ e.relation? = some r := by
  obtain ⟨e, he, hed⟩ := List.mem_filterMap.1 hd
  obtain ⟨r', hr', hp⟩ := Option.map_eq_some_iff.1 hed
  obtain ⟨hr, hv⟩ := Option.filter_eq_some_iff.1 hr'
  cases hp
  exact ⟨e, h.element?_id he, eq_of_beq hv, hr⟩

end Built

/-! ### Edges -/

/-- The edges that leave an element, if it exists. -/
def edgesOf (g : Graph) (id : ElementId) : List Edge := ((g.element? id).map Element.edges).getD []

/-- Of members with distinct keys only one has something to add. -/
theorem flatMap_of_nodup_map {α β γ : Type} {l : List α} {key : α → β} {f : α → List γ} {a : α}
    (hl : (l.map key).Nodup) (ha : a ∈ l) (hf : ∀ b ∈ l, key b ≠ key a → f b = []) :
    l.flatMap f = f a := by
  induction l with
  | nil => cases ha
  | cons c l ih =>
    rw [List.map_cons, List.nodup_cons] at hl
    rw [List.flatMap_cons]
    rcases List.mem_cons.1 ha with rfl | ha
    · have hrest : l.flatMap f = [] := by
        refine List.flatMap_eq_nil_iff.2 fun b hb => hf b (List.mem_cons_of_mem _ hb) fun hkey =>
          hl.1 ?_
        exact hkey ▸ List.mem_map_of_mem hb
      rw [hrest, List.append_nil]
    · have hc : f c = [] := hf c List.mem_cons_self fun hkey => hl.1 (hkey ▸ List.mem_map_of_mem ha)
      rw [hc, List.nil_append]
      exact ih hl.2 ha fun b hb => hf b (List.mem_cons_of_mem _ hb)

/-- The edges that leave an element are those that start at it. -/
theorem Built.filter_source {g : Graph} (h : g.Built) (id : ElementId) :
    (g.edges.filter fun edge => edge.source == id) = g.edgesOf id := by
  have hne : ∀ e ∈ g.elements, e.id ≠ id → (e.edges.filter fun edge => edge.source == id) = [] := by
    intro e he hid
    refine List.filter_eq_nil_iff.2 fun edge hedge hs => hid ?_
    rw [← h.source_eq he edge hedge]
    exact eq_of_beq hs
  rw [edges, List.filter_flatMap, edgesOf]
  cases he : g.element? id with
  | none =>
    refine List.flatMap_eq_nil_iff.2 fun e hmem => hne e hmem fun hid => ?_
    rw [← hid, h.element?_id hmem] at he
    cases he
  | some e =>
    have hmem := List.mem_of_getElem? he
    have hid := h.id_eq he
    rw [flatMap_of_nodup_map h.nodup_ids hmem fun b hb hb' => hne b hb (hid ▸ hb')]
    refine List.filter_eq_self.2 fun edge hedge => ?_
    rw [h.source_eq hmem edge hedge, hid]
    exact beq_self_eq_true id

/-- The edges that steps make, in the order of the steps, where `n` elements were there before. -/
def connections (n : Nat) : List BuildStep → List Edge
  | [] => []
  | .add _ :: steps => connections (n + 1) steps
  | .connect s t p :: steps => (if s < n then [⟨s, t, p⟩] else []) ++ connections n steps
  | .stratum .. :: steps | .invalidate .. :: steps | .rescan .. :: steps => connections n steps

theorem edgesOf_add {g : Graph} (kind : ElementKind) (id : ElementId) :
    (g.add kind).edgesOf id = g.edgesOf id := by
  have hfresh : (Element.fresh g.nextId kind).edges = [] := by cases kind <;> rfl
  unfold edgesOf element?
  rw [elements_add]
  rcases Nat.lt_trichotomy id g.elements.length with hlt | rfl | hgt
  · rw [List.getElem?_append_left hlt]
  · simp [hfresh]
  · rw [List.getElem?_eq_none (by simp; omega), List.getElem?_eq_none (by omega)]

theorem Built.edgesOf_connect {g : Graph} (h : g.Built) (s t : ElementId) (p : InputPort)
    (id : ElementId) :
    (g.connect s t p).edgesOf id =
      g.edgesOf id ++ (if s < g.elements.length then [⟨s, t, p⟩] else []).filter fun edge =>
        edge.source == id := by
  unfold edgesOf
  rw [element?_connect]
  by_cases hid : s = id
  · subst hid
    cases he : g.element? s with
    | none => simp [List.getElem?_eq_none_iff.1 he]
    | some e =>
      have hlt : s < g.elements.length := (List.getElem?_eq_some_iff.1 he).1
      simp [hlt, (h.formed e (List.mem_of_getElem? he)).edges_connect, h.id_eq he]
  · have hnil :
        (if s < g.elements.length then [(⟨s, t, p⟩ : Edge)] else []).filter
          (fun edge => edge.source == id) = [] := by
      split <;> simp [hid]
    simp [hid, hnil]

theorem Built.edgesOf_foldl {g : Graph} (h : g.Built) (steps : List BuildStep) (id : ElementId) :
    (steps.foldl Graph.apply g).edgesOf id =
      g.edgesOf id ++ (connections g.elements.length steps).filter fun edge =>
        edge.source == id := by
  -- over all graphs that were built before the steps; `connections` counts their elements
  induction steps generalizing g with
  | nil => simp [connections]
  | cons step steps ih =>
    rw [List.foldl_cons, ih (h.apply step)]
    cases step with
    | add kind =>
      have hlen : (g.add kind).elements.length = g.elements.length + 1 := by simp [elements_add]
      simp only [Graph.apply, connections, edgesOf_add, hlen]
    | connect s t p =>
      have hlen : (g.connect s t p).elements.length = g.elements.length := by simp [Graph.connect]
      simp only [Graph.apply, connections, h.edgesOf_connect, hlen, List.filter_append,
        List.append_assoc]
    | stratum | invalidate | rescan => rfl

/-- The edges that leave an element are in the order in which they were made. -/
theorem edgesOf_ofSteps (steps : List BuildStep) (id : ElementId) :
    (ofSteps steps).edgesOf id = (connections 0 steps).filter fun edge => edge.source == id :=
  built_empty.edgesOf_foldl steps id

end Graph

/-! ### Parts by their steps -/

namespace BuildStep

/-- The kind of element that a step adds. -/
def kind? : BuildStep → Option ElementKind
  | add kind => some kind
  | _ => none

/-- The edge that a step asks for. -/
def edge? : BuildStep → Option Edge
  | connect s t p => some ⟨s, t, p⟩
  | _ => none

/-- The stratum that a step adds. -/
def stratum? : BuildStep → Option Stratum
  | stratum i es => some ⟨i, es⟩
  | _ => none

/-- The entry that a step adds to the invalidation table. -/
def invalidation? : BuildStep → Option (ElementId × List ElementId)
  | invalidate k vs => some (k, vs)
  | _ => none

/-- The entry that a step adds to the rescan table. -/
def rescan? : BuildStep → Option (ElementId × List ElementId)
  | rescan k vs => some (k, vs)
  | _ => none

end BuildStep

namespace Graph

/-- A part of a graph to which every step adds at the end is what the steps add, one after another.
-/
theorem part_ofSteps {α : Type} (part : Graph → List α) {added : BuildStep → Option α}
    (hempty : part {} = []) (hstep : ∀ g step, part (g.apply step) = part g ++ (added step).toList)
    (steps : List BuildStep) :
    part (ofSteps steps) = steps.filterMap added := by
  suffices h : ∀ g : Graph, part (steps.foldl Graph.apply g) = part g ++ steps.filterMap added by
    rw [ofSteps, h, hempty, List.nil_append]
  induction steps with
  | nil => simp
  | cons step steps ih =>
    intro g
    rw [List.foldl_cons, ih, hstep, List.append_assoc, List.filterMap_cons]
    cases added step <;> rfl

theorem kinds_ofSteps (steps : List BuildStep) :
    (ofSteps steps).elements.map Element.kind = steps.filterMap BuildStep.kind? := by
  refine part_ofSteps (fun g => g.elements.map Element.kind) rfl (fun g step => ?_) steps
  cases step with
  | add kind =>
    simp only [Graph.apply, elements_add, List.map_append, BuildStep.kind?]
    rfl
  | connect s t p =>
    simp [Graph.apply, map_connect g s t p (f := Element.kind) (by simp), BuildStep.kind?]
  | stratum | invalidate | rescan => exact (List.append_nil _).symm

theorem strata_ofSteps (steps : List BuildStep) :
    (ofSteps steps).strata = steps.filterMap BuildStep.stratum? := by
  refine part_ofSteps Graph.strata rfl (fun g step => ?_) steps
  cases step with
  | add kind => cases kind <;> exact (List.append_nil _).symm
  | stratum => rfl
  | connect | invalidate | rescan => exact (List.append_nil _).symm

theorem invalidation_ofSteps (steps : List BuildStep) :
    (ofSteps steps).invalidation = steps.filterMap BuildStep.invalidation? := by
  refine part_ofSteps Graph.invalidation rfl (fun g step => ?_) steps
  cases step with
  | add kind => cases kind <;> exact (List.append_nil _).symm
  | invalidate => rfl
  | connect | stratum | rescan => exact (List.append_nil _).symm

theorem rescan_ofSteps (steps : List BuildStep) :
    (ofSteps steps).rescan = steps.filterMap BuildStep.rescan? := by
  refine part_ofSteps Graph.rescan rfl (fun g step => ?_) steps
  cases step with
  | add kind => cases kind <;> exact (List.append_nil _).symm
  | rescan => rfl
  | connect | stratum | invalidate => exact (List.append_nil _).symm

/-- Every edge that steps ask for is made if its source is there from the start. -/
theorem connections_eq_filterMap {n : Nat} {steps : List BuildStep}
    (h : ∀ edge ∈ steps.filterMap BuildStep.edge?, edge.source < n) :
    connections n steps = steps.filterMap BuildStep.edge? := by
  induction steps generalizing n with
  | nil => rfl
  | cons step steps ih =>
    cases step with
    | add kind => exact ih fun edge he => Nat.lt_succ_of_lt (h edge he)
    | connect s t p =>
      have hs : s < n := h ⟨s, t, p⟩ List.mem_cons_self
      have hrest : connections n steps = steps.filterMap BuildStep.edge? :=
        ih fun edge he => h edge (List.mem_cons_of_mem _ he)
      simp [connections, hs, hrest, BuildStep.edge?]
    | stratum | invalidate | rescan => exact ih h

theorem connections_add_append (n : Nat) (kinds : List ElementKind) (steps : List BuildStep) :
    connections n (kinds.map BuildStep.add ++ steps) = connections (n + kinds.length) steps := by
  induction kinds generalizing n with
  | nil => rfl
  | cons kind kinds ih =>
    rw [List.map_cons, List.cons_append, connections, ih, List.length_cons]
    congr 1
    omega

end Graph

end Dataflow
