import Mathlib.Data.String.Basic
import Mathlib.Data.List.Induction
import Mathlib.Order.Bounds.Basic
import Dataflow.Proofs.Building

/-!
# What can be relied on in a graph

Elements are found by their numbers, tables and inputs by their relations, and edges by the element
that they leave. `Graph.Consistent` says what this relies on, and says it of the graph alone:

* an element fits its position (`Element.Fits`): it has the position as its number, and its outputs
  and edges have it as their owner and source;
* a registry leads from a relation to the first element that declares it, and to nothing else
  (`Graph.Registers`).

Elements have one kind of output, called `outputName`, so that an edge need not say at which output
it starts.

`Graph.consistent_ofSteps` proves it of every graph that steps make. What steps keep is
`Graph.Built`, in which the registries are made from the declarations in order; so it remains to see
that such a registry finds the first declaration (`Registry.find?_ofPairs`), and that declarations
are in the order of their elements (`Built.pairwise_declared`).
-/

namespace Dataflow

/-! ### Registries of declarations -/

theorem lookup_cons_eq_ite (p : String × ElementId) (ps : List (String × ElementId))
    (name : String) :
    (p :: ps).lookup name = if name = p.1 then some p.2 else ps.lookup name := by
  obtain ⟨n, i⟩ := p
  rw [List.lookup_cons]
  by_cases h : name = n
  · rw [beq_iff_eq.2 h, if_pos h]
  · rw [beq_eq_false_iff_ne.2 h, if_neg h]

namespace Registry

/-- The names are in increasing order, and so none comes twice. -/
def Increasing (r : Registry) : Prop := r.entries.Pairwise fun p q => p.1 < q.1

variable {name : String} {id : ElementId}

theorem lookup_insertEntry (name other : String) (id : ElementId) (es : List (String × ElementId)) :
    (insertEntry name id es).lookup other = if other = name then some id else es.lookup other := by
  fun_induction insertEntry name id es with
  | case1 => exact lookup_cons_eq_ite ..
  | case2 n i rest hlt => exact lookup_cons_eq_ite ..
  | case3 i rest hlt => by_cases h : other = name <;> simp [lookup_cons_eq_ite, h]
  | case4 n i rest hlt hne ih =>
    by_cases h : other = n
    · have hname : other ≠ name := fun he => hne (he.symm.trans h)
      rw [lookup_cons_eq_ite, if_pos h, if_neg hname, lookup_cons_eq_ite, if_pos h]
    · rw [lookup_cons_eq_ite, if_neg h, ih, lookup_cons_eq_ite, if_neg h]

theorem find?_insertNew (r : Registry) (name other : String) (id : ElementId) :
    (r.insertNew name id).find? other =
      (r.find? other).or (if other = name then some id else none) := by
  unfold insertNew
  by_cases h : other = name
  · subst h
    cases hfind : r.find? other with
    | none => simpa [insert, find?] using lookup_insertEntry other other id r.entries
    | some i => simpa using hfind
  · have hinsert : (r.insert name id).find? other = r.find? other := by
      rw [find?, insert, lookup_insertEntry, if_neg h, find?]
    rw [if_neg h, Option.or_none]
    split
    · rfl
    · exact hinsert

/-- Of several declarations of a name the first one counts. -/
theorem find?_ofPairs (ps : List (String × ElementId)) (name : String) :
    (ofPairs ps).find? name = ps.lookup name := by
  induction ps using List.reverseRecOn with
  | nil => rfl
  | append_singleton ps p ih =>
    rw [ofPairs_append, find?_insertNew, ih, List.lookup_append, lookup_cons_eq_ite]
    rfl

theorem increasing_insertEntry {es : List (String × ElementId)}
    (h : es.Pairwise fun p q => p.1 < q.1) :
    (insertEntry name id es).Pairwise fun p q => p.1 < q.1 := by
  fun_induction insertEntry name id es with
  | case1 => simp
  | case2 n i rest hlt =>
    refine List.pairwise_cons.2 ⟨List.forall_mem_cons.2 ⟨hlt, fun p hp => ?_⟩, h⟩
    exact lt_trans hlt ((List.pairwise_cons.1 h).1 p hp)
  | case3 i rest hlt => exact List.pairwise_cons.2 (List.pairwise_cons.1 h)
  | case4 n i rest hlt hne ih =>
    obtain ⟨hn, hrest⟩ := List.pairwise_cons.1 h
    refine List.pairwise_cons.2 ⟨fun p hp => ?_, ih hrest⟩
    rcases mem_insertEntry hp with rfl | hp
    · exact lt_of_le_of_ne (not_lt.1 hlt) (Ne.symm hne)
    · exact hn p hp

theorem Increasing.insertNew {r : Registry} (h : r.Increasing) (name : String) (id : ElementId) :
    (r.insertNew name id).Increasing := by
  unfold Registry.insertNew
  split
  · exact h
  · exact increasing_insertEntry h

theorem increasing_ofPairs (ps : List (String × ElementId)) : (ofPairs ps).Increasing := by
  induction ps using List.reverseRecOn with
  | nil => exact List.Pairwise.nil
  | append_singleton ps p ih =>
    rw [ofPairs_append]
    exact ih.insertNew p.1 p.2

end Registry

/-- In the order of their elements, the first declaration of a name is the one with the least
element. -/
theorem lookup_eq_some_iff_isLeast {ps : List (String × ElementId)}
    (h : ps.Pairwise fun p q => p.2 < q.2) {name : String} {id : ElementId} :
    ps.lookup name = some id ↔ IsLeast {j | (name, j) ∈ ps} id := by
  induction ps with
  | nil => simp [IsLeast]
  | cons p ps ih =>
    obtain ⟨hp, hps⟩ := List.pairwise_cons.1 h
    by_cases hname : name = p.1
    · have hleast : IsLeast {j | (name, j) ∈ p :: ps} p.2 := by
        refine ⟨by simp [hname], fun j hj => ?_⟩
        rcases List.mem_cons.1 hj with heq | hj
        · exact (congrArg Prod.snd heq).ge
        · exact (hp _ hj).le
      rw [lookup_cons_eq_ite, if_pos hname, Option.some.injEq]
      exact ⟨fun heq => heq ▸ hleast, hleast.unique⟩
    · have hset : {j | (name, j) ∈ p :: ps} = {j | (name, j) ∈ ps} := by
        ext j
        simp [Prod.ext_iff, hname]
      rw [lookup_cons_eq_ite, if_neg hname, ih hps, hset]

/-! ### Consistent graphs -/

/-- An element is in order at a position. Its number is the position, and its outputs and edges
start at it. It has one output, except that a table may have none, and else has one that edges
leave. -/
structure Element.Fits (e : Element) (id : ElementId) : Prop where
  id_eq : e.id = id
  one_output : e.variant ≠ .table → ∃ o, e.outputs = [o]
  table_output : e.variant = .table → e.outputs = [] ∨ ∃ o, e.outputs = [o] ∧ o.connections ≠ []
  owner_eq : ∀ o ∈ e.outputs, o.owner = id
  source_eq : ∀ o ∈ e.outputs, ∀ edge ∈ o.connections, edge.source = id

theorem Element.Formed.fits {e : Element} (h : e.Formed) : e.Fits e.id := by
  rcases h with ⟨ho, hv⟩ | ⟨edges, ho, hs, ht⟩
  · exact ⟨rfl, fun hne => absurd hv hne, fun _ => .inl ho, by simp [ho], by simp [ho]⟩
  · exact ⟨rfl, fun _ => ⟨_, ho⟩, fun hv => .inr ⟨_, ho, ht hv⟩, by simp [ho],
      by simpa [ho] using hs⟩

/-- An edge from an element is the last one of its one output. -/
theorem Element.Formed.connect_eq {e : Element} (h : e.Formed) (target : ElementId)
    (port : InputPort) :
    e.connect target port = { e with outputs := [⟨e.id, e.edges ++ [⟨e.id, target, port⟩]⟩] } := by
  rcases h with ⟨ho, _⟩ | ⟨edges, ho, _, _⟩ <;> simp [Element.connect, Element.edges, ho]

namespace Graph

variable {g : Graph}

/-- The element with a number is of a sort and has a relation. -/
def Declares (g : Graph) (v : Variant) (relation : String) (id : ElementId) : Prop :=
  ∃ e, g.element? id = some e ∧ e.variant = v ∧ e.relation? = some relation

/-- A registry has the relations of the elements of a sort, each with the first element that
declares it. -/
structure Registers (g : Graph) (v : Variant) (r : Registry) : Prop where
  increasing : r.Increasing
  find?_eq_some : ∀ relation id, r.find? relation = some id ↔
    IsLeast {j | g.Declares v relation j} id

/-- What can be relied on in a graph. -/
structure Consistent (g : Graph) : Prop where
  fits : ∀ id e, g.element? id = some e → e.Fits id
  tables : g.Registers .table g.tables
  inputs : g.Registers .input g.inputs

namespace Built

theorem mem_declared (h : g.Built) {v : Variant} {relation : String} {id : ElementId} :
    (relation, id) ∈ g.declared v ↔ g.Declares v relation id := by
  refine ⟨h.exists_of_mem_declared, ?_⟩
  rintro ⟨e, he, hv, hr⟩
  refine List.mem_filterMap.2 ⟨e, List.mem_of_getElem? he, ?_⟩
  simp [Element.declares?, hr, hv, h.id_eq he]

/-- Declarations are in the order of their elements. -/
theorem pairwise_declared (h : g.Built) (v : Variant) :
    (g.declared v).Pairwise fun p q => p.2 < q.2 := by
  have hids : g.elements.Pairwise fun e e' => e.id < e'.id := by
    rw [← List.pairwise_map, h.ids]
    exact List.pairwise_lt_range
  have hdeclares {e : Element} {p : String × ElementId} (hp : e.declares? v = some p) :
      p.2 = e.id := by
    obtain ⟨r, -, rfl⟩ := Option.map_eq_some_iff.1 hp
    rfl
  refine hids.filterMap _ fun e e' hlt p hp q hq => ?_
  rw [hdeclares hp, hdeclares hq]
  exact hlt

theorem registers_ofPairs (h : g.Built) (v : Variant) :
    g.Registers v (.ofPairs (g.declared v)) where
  increasing := Registry.increasing_ofPairs _
  find?_eq_some relation id := by
    rw [Registry.find?_ofPairs, lookup_eq_some_iff_isLeast (h.pairwise_declared v)]
    simp only [h.mem_declared]

theorem consistent (h : g.Built) : g.Consistent where
  fits _ e he := h.id_eq he ▸ (h.formed e (List.mem_of_getElem? he)).fits
  tables := h.tables ▸ h.registers_ofPairs .table
  inputs := h.inputs ▸ h.registers_ofPairs .input

theorem connect_eq (h : g.Built) (source target : ElementId) (port : InputPort) :
    g.connect source target port = (g.element? source).elim g fun e =>
      { g with
        elements :=
          g.elements.set source
            { e with outputs := [⟨source, e.edges ++ [⟨source, target, port⟩]⟩] } } := by
  unfold Graph.connect
  cases he : g.element? source with
  | none => rw [List.modify_eq_self (List.getElem?_eq_none_iff.1 he), Option.elim_none]
  | some e =>
    have hconnect := (h.formed e (List.mem_of_getElem? he)).connect_eq target port
    have hget : g.elements[source]? = some e := he
    rw [List.modify_eq_set_getElem?, hget, Option.elim_some, Option.map_eq_map, Option.map_some,
      Option.getD_some, hconnect, h.id_eq he]

end Built

/-- **Graphs are consistent while they are built.** Whatever steps were taken, with whatever numbers
in them, the graph is consistent: elements fit their positions, and the registries lead to the first
table and the first input with a relation. Its elements are the ones that steps added, in order. One
more edge is the last of the one output of its source, where it changes nothing else; if its source
does not exist, it changes nothing at all. -/
theorem consistent_ofSteps (steps : List BuildStep) :
    let g := ofSteps steps
    g.Consistent ∧
    g.elements.map Element.kind = steps.filterMap BuildStep.kind? ∧
    ∀ source target port,
      ofSteps (steps ++ [.connect source target port]) = (g.element? source).elim g fun e =>
        { g with
          elements :=
            g.elements.set source
              { e with outputs := [⟨source, e.edges ++ [⟨source, target, port⟩]⟩] } } := by
  intro g
  have hg : g.Built := built_ofSteps steps
  refine ⟨hg.consistent, kinds_ofSteps steps, fun source target port => ?_⟩
  rw [← hg.connect_eq source target port, ofSteps, List.foldl_append]
  rfl

end Graph

end Dataflow
