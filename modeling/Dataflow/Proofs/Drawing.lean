import Mathlib.Logic.Basic
import Dataflow.Graph.Dot
import Dataflow.Proofs.Generation

/-!
# What a picture shows, and where

Every element of a graph is drawn once. The clusters stand for the strata in order, and an element
is drawn in the first one whose stratum lists it, or outside all clusters if no stratum does
(`Graph.exists_placed`). A stratum may list an element twice, list one that an earlier stratum has,
or list a number without an element: what was drawn before is not drawn again, and what does not
exist is not drawn.

Clusters share the numbers drawn so far, as the elements of a pipeline share the numbers seen so far
(`distinct`). All nodes of a picture, one after another, are the elements in the order in which a
pipeline has them (`nodes_picture`).
-/

namespace Dataflow

/-! ### Strata in order -/

/-- `InOrder strata sorted`: the strata in increasing order, where those of one index keep their
order. -/
structure InOrder (strata sorted : List Stratum) : Prop where
  perm : sorted.Perm strata
  increasing : sorted.Pairwise fun s t => s.index ≤ t.index
  stable : ∀ i, (sorted.filter fun s => s.index = i) = strata.filter fun s => s.index = i

namespace Graph

variable {g : Graph} {seen drawn : List ElementId} {es es' : List Element} {strata : List Stratum}

theorem inOrder_strataInOrder (g : Graph) : InOrder g.strata g.strataInOrder := by
  have hperm := strataInOrder_perm g
  refine ⟨hperm, strataInOrder_increasing g, fun i => ?_⟩
  -- strata of one index are in order as they are, and sorting keeps what is in order
  have hsame : (g.strata.filter fun s => s.index = i).Pairwise fun s t =>
      decide (s.index ≤ t.index) = true := by
    refine List.pairwise_of_forall_mem_list fun s hs t ht => ?_
    simp only [List.mem_filter, decide_eq_true_eq] at *
    omega
  have hsorted := List.sublist_mergeSort index_le_trans index_le_total hsame List.filter_sublist
  have hsublist := hsorted.filter fun s => s.index = i
  simp only [List.filter_filter, Bool.and_self] at hsublist
  exact (hsublist.eq_of_length (hperm.filter _).length_eq.symm).symm

/-! ### Elements without repetition -/

theorem distinct_congr {seen' : List ElementId} (h : ∀ id, id ∈ seen ↔ id ∈ seen')
    (es : List Element) :
    distinct seen es = distinct seen' es := by
  induction es generalizing seen seen' with
  | nil => rfl
  | cons e es ih =>
    have hcons : ∀ id, id ∈ e.id :: seen ↔ id ∈ e.id :: seen' :=
      fun id => by simp only [List.mem_cons, h]
    rw [distinct, distinct, ih h, ih hcons]
    exact if_congr (h e.id) rfl rfl

/-- What was seen behind some elements is what was seen before them, and these elements. -/
theorem distinct_append (after : List ElementId)
    (h : ∀ id, id ∈ after ↔ id ∈ seen ∨ id ∈ es.map Element.id) :
    distinct seen (es ++ es') = distinct seen es ++ distinct after es' := by
  induction es generalizing seen with
  | nil => exact distinct_congr (fun id => by simp [h]) es'
  | cons e es ih =>
    rw [List.cons_append, distinct, distinct]
    split
    · next hseen =>
      refine ih fun id => ?_
      rw [h, List.map_cons, List.mem_cons]
      grind
    · refine congrArg (e :: ·) (ih fun id => ?_)
      rw [h, List.map_cons, List.mem_cons, List.mem_cons, or_left_comm, or_assoc]

/-- Elements that do not repeat are left out only if they were seen before. -/
theorem distinct_of_nodup (h : (es.map Element.id).Nodup) :
    distinct seen es = es.filter fun e => e.id ∉ seen := by
  induction es generalizing seen with
  | nil => rfl
  | cons e es ih =>
    rw [List.map_cons, List.nodup_cons] at h
    rw [distinct, List.filter_cons]
    by_cases hseen : e.id ∈ seen
    · simp only [hseen, not_true_eq_false, decide_false, Bool.false_eq_true, if_true, if_false,
        ih h.2]
    · simp only [hseen, not_false_eq_true, decide_true, if_true, if_false, ih h.2]
      refine congrArg (e :: ·) (List.filter_congr fun d hd => ?_)
      have hne : d.id ≠ e.id := fun heq => h.1 (heq ▸ List.mem_map_of_mem hd)
      simp [hne]

/-! ### Clusters -/

theorem drawNodes_fst (hg : g.Built) (drawn ids : List ElementId) :
    (g.drawNodes drawn ids).1 = distinct drawn (ids.filterMap g.element?) := by
  induction ids generalizing drawn with
  | nil => rfl
  | cons id ids ih =>
    rw [drawNodes, List.filterMap_cons]
    cases he : g.element? id with
    | none => exact ih drawn
    | some e =>
      simp only [distinct, hg.id_eq he]
      split
      · exact ih drawn
      · exact congrArg (e :: ·) (ih (id :: drawn))

theorem mem_drawNodes_snd (drawn ids : List ElementId) (id : ElementId) :
    id ∈ (g.drawNodes drawn ids).2 ↔ id ∈ drawn ∨ id ∈ ids ∧ (g.element? id).isSome = true := by
  induction ids generalizing drawn with
  | nil => simp [drawNodes]
  | cons i ids ih =>
    rw [drawNodes]
    cases he : g.element? i with
    | none =>
      simp only [ih]
      grind
    | some e =>
      by_cases hi : i ∈ drawn
      · simp only [hi, if_true, ih]
        grind
      · simp only [hi, if_false, ih]
        grind

/-- A cluster has elements of its stratum that were not drawn before. -/
theorem of_mem_drawNodes (hg : g.Built) {ids : List ElementId} {e : Element}
    (he : e ∈ (g.drawNodes drawn ids).1) :
    g.element? e.id = some e ∧ e.id ∈ ids ∧ e.id ∉ drawn := by
  rw [drawNodes_fst hg] at he
  obtain ⟨id, hid, hfind⟩ := List.mem_filterMap.1 ((distinct_sublist _ _).subset he)
  have heq := hg.id_eq hfind
  subst heq
  exact ⟨hfind, hid, (nodup_distinct _ _).2 e he⟩

theorem mem_map_filterMap (hg : g.Built) (ids : List ElementId) (id : ElementId) :
    id ∈ (ids.filterMap g.element?).map Element.id ↔ id ∈ ids ∧ (g.element? id).isSome = true := by
  simp only [List.mem_map, List.mem_filterMap, Option.isSome_iff_exists]
  constructor
  · rintro ⟨e, ⟨i, hi, he⟩, rfl⟩
    rw [hg.id_eq he]
    exact ⟨hi, e, he⟩
  · rintro ⟨hid, e, he⟩
    exact ⟨e, ⟨id, hid, he⟩, hg.id_eq he⟩

theorem drawClusters_cons (drawn : List ElementId) (s : Stratum) (strata : List Stratum) :
    g.drawClusters drawn (s :: strata) =
      (⟨s.index, (g.drawNodes drawn s.elements).1⟩ ::
        (g.drawClusters (g.drawNodes drawn s.elements).2 strata).1,
        (g.drawClusters (g.drawNodes drawn s.elements).2 strata).2) := rfl

/-- The clusters of some strata: each has elements of its own stratum which no stratum before it
lists. -/
theorem exists_rows (hg : g.Built) (drawn : List ElementId) (strata : List Stratum) :
    ∃ rows : List (Stratum × List Element), rows.map Prod.fst = strata ∧
      (g.drawClusters drawn strata).1 = rows.map (fun r => ⟨r.1.index, r.2⟩) ∧
      (∀ r ∈ rows, ∀ e ∈ r.2, g.element? e.id = some e ∧ e.id ∈ r.1.elements ∧ e.id ∉ drawn) ∧
      rows.Pairwise fun r r' => ∀ e ∈ r'.2, e.id ∉ r.1.elements := by
  induction strata generalizing drawn with
  | nil => exact ⟨[], rfl, rfl, by simp, .nil⟩
  | cons s strata ih =>
    obtain ⟨rows, hstrata, hclusters, hrows, hfirst⟩ := ih (g.drawNodes drawn s.elements).2
    simp only [mem_drawNodes_snd, not_or, not_and] at hrows
    refine ⟨(s, (g.drawNodes drawn s.elements).1) :: rows, congrArg (s :: ·) hstrata, ?_, ?_, ?_⟩
    · rw [drawClusters_cons, hclusters, List.map_cons]
    · refine List.forall_mem_cons.2 ⟨fun e he => of_mem_drawNodes hg he, fun r hr e he => ?_⟩
      obtain ⟨hfind, hlisted, hdrawn, -⟩ := hrows r hr e he
      exact ⟨hfind, hlisted, hdrawn⟩
    · refine List.pairwise_cons.2 ⟨fun r hr e he hlisted => ?_, hfirst⟩
      obtain ⟨hfind, -, -, hnot⟩ := hrows r hr e he
      exact hnot hlisted (by rw [hfind]; rfl)

theorem mem_drawClusters_snd (drawn : List ElementId) (strata : List Stratum) (id : ElementId) :
    id ∈ (g.drawClusters drawn strata).2 ↔
      id ∈ drawn ∨ id ∈ strata.flatMap Stratum.elements ∧ (g.element? id).isSome = true := by
  induction strata generalizing drawn with
  | nil => simp [drawClusters]
  | cons s strata ih =>
    simp only [drawClusters_cons, ih, mem_drawNodes_snd, List.flatMap_cons, List.mem_append,
      or_and_right, or_assoc]

theorem flatMap_drawClusters (hg : g.Built) (drawn : List ElementId) (strata : List Stratum) :
    (g.drawClusters drawn strata).1.flatMap Cluster.nodes =
      distinct drawn ((strata.flatMap Stratum.elements).filterMap g.element?) := by
  induction strata generalizing drawn with
  | nil => rfl
  | cons s strata ih =>
    rw [List.flatMap_cons, List.filterMap_append,
      distinct_append (g.drawNodes drawn s.elements).2 fun id => ?_]
    · rw [drawClusters_cons, List.flatMap_cons, ih, drawNodes_fst hg]
    · rw [mem_drawNodes_snd, mem_map_filterMap hg]

/-! ### Pictures -/

theorem clusters_picture (g : Graph) : g.picture.clusters = (g.drawClusters [] g.strataInOrder).1 :=
  rfl

theorem loose_picture (g : Graph) :
    g.picture.loose = g.elements.filter fun e => e.id ∉ (g.drawClusters [] g.strataInOrder).2 := rfl

/-- All nodes of a picture, in the order in which they are drawn. -/
theorem nodes_picture (hg : g.Built) :
    g.picture.clusters.flatMap Cluster.nodes ++ g.picture.loose = g.emissionOrder := by
  have hstratified : g.stratifiedElements.map Prod.snd =
      (g.strataInOrder.flatMap Stratum.elements).filterMap g.element? := by
    rw [stratifiedElements, List.map_flatMap, List.filterMap_flatMap]
    refine congrArg (g.strataInOrder.flatMap ·) (funext fun s => ?_)
    rw [List.map_filterMap]
    refine congrArg (s.elements.filterMap ·) (funext fun id => ?_)
    rw [Option.map_map]
    exact Option.map_id_apply
  rw [emissionOrder, hstratified, distinct_append (g.drawClusters [] g.strataInOrder).2 fun id =>
    ?_]
  · rw [clusters_picture, loose_picture, flatMap_drawClusters hg, distinct_of_nodup hg.nodup_ids]
  · rw [mem_drawClusters_snd, mem_map_filterMap hg]

/-- Where the elements of a graph are drawn: `rows` has the strata in order, each with the elements
that are drawn in its cluster, and `loose` the elements outside all clusters. Every element is drawn
once, in the cluster of the first stratum that lists it, or outside if none does. -/
structure Placed (g : Graph) (rows : List (Stratum × List Element)) (loose : List Element) :
    Prop where
  strata : InOrder g.strata (rows.map Prod.fst)
  once : (rows.flatMap Prod.snd ++ loose).Perm g.elements
  listed : ∀ r ∈ rows, ∀ e ∈ r.2, e.id ∈ r.1.elements
  first : rows.Pairwise fun r r' => ∀ e ∈ r'.2, e.id ∉ r.1.elements
  unlisted : ∀ e ∈ loose, ∀ s ∈ g.strata, e.id ∉ s.elements

/-- The nodes of a picture are where they belong. -/
theorem exists_placed (hg : g.Built) :
    ∃ rows, g.Placed rows g.picture.loose ∧ g.picture.clusters = rows.map fun r =>
      ⟨r.1.index, r.2⟩ := by
  obtain ⟨rows, hstrata, hclusters, hrows, hfirst⟩ := exists_rows hg [] g.strataInOrder
  refine ⟨rows, ⟨?_, ?_, ?_, hfirst, ?_⟩, hclusters⟩
  · rw [hstrata]
    exact inOrder_strataInOrder g
  · have hnodes : rows.flatMap Prod.snd = g.picture.clusters.flatMap Cluster.nodes := by
      rw [clusters_picture, hclusters, List.flatMap_map]
    rw [hnodes, nodes_picture hg]
    exact emissionOrder_perm hg
  · intro r hr e he
    exact (hrows r hr e he).2.1
  · intro e he s hs hlisted
    rw [loose_picture, List.mem_filter, decide_eq_true_eq, mem_drawClusters_snd,
      List.mem_flatMap] at he
    have hin : s ∈ g.strataInOrder := (strataInOrder_perm g).mem_iff.2 hs
    exact he.2 (.inr ⟨⟨s, hin, hlisted⟩, by rw [hg.element?_id he.1]; rfl⟩)

end Graph

end Dataflow
