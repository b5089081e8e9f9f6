import Dataflow.Proofs.Generation
import Dataflow.Proofs.Lines
import Dataflow.Proofs.Quoting

/-!
# Lookup tables are written faithfully

A lookup table is written as an object literal, with a line for each of its entries. Its text has
all that the table has (`lookups_faithful`): the keys, the order of the entries, and the values of
each with their order and repetitions.

Names may have anything in them, also the quotes, commas, brackets and line breaks that stand
between the parts of the text. So the text is not cut at these characters. Each part is taken off
the front of a text, and what follows it comes out of the same step: a quoted name
(`eq_of_quote_append`), a list of names (`eq_of_values_append`), a list of entries
(`eq_of_entries_append`).
-/

namespace Dataflow

open Script (quote)

/-! ### Parts at the front of a text -/

/-- A quoted text at the front of a text determines what was quoted and what follows. -/
theorem Script.eq_of_quote_append {s t : String} {r r' : List Char}
    (h : (quote s).toList ++ r = (quote t).toList ++ r') : s = t ∧ r = r' := by
  have hread (u : String) (rest : List Char) :
      Json.readStringChars ((quote u).toList ++ rest).tail = .ok (u.toList, rest) := by
    simpa [quote] using Json.readStringChars_quote u.toList rest
  have hsame : (Except.ok (s.toList, r) : Except Json.Fault _) = .ok (t.toList, r') := by
    rw [← hread, ← hread, h]
  obtain ⟨htext, hrest⟩ := Prod.mk.inj (Except.ok.inj hsame)
  exact ⟨String.toList_inj.1 htext, hrest⟩

/-- The values behind the first one of a lookup entry. -/
def furtherValues (names : List String) : List Char :=
  names.flatMap fun n => ',' :: ' ' :: (quote n).toList

theorem furtherValues_cons (n : String) (names : List String) :
    furtherValues (n :: names) = ',' :: ' ' :: ((quote n).toList ++ furtherValues names) := rfl

theorem toList_valuesText_cons (n : String) (names : List String) :
    (valuesText (n :: names)).toList =
      '[' :: ((quote n).toList ++ furtherValues names ++ [']']) := by
  have hfurther :
      (", ".intercalate ((n :: names).map quote)).toList =
        (quote n).toList ++ furtherValues names := by
    induction names generalizing n with
    | nil => simp [furtherValues]
    | cons m names ih =>
      rw [List.map_cons, List.map_cons, String.intercalate_cons_cons, ← List.map_cons,
        String.toList_append, ih]
      simp [furtherValues]
  simp only [valuesText, String.toList_append, hfurther]
  simp

theorem eq_of_furtherValues_append {names names' : List String} {r r' : List Char}
    (h : furtherValues names ++ ']' :: r = furtherValues names' ++ ']' :: r') :
    names = names' ∧ r = r' := by
  induction names generalizing names' with
  | nil =>
    cases names' with
    | nil => exact ⟨rfl, (List.cons.inj h).2⟩
    | cons n' names' => exact absurd (List.cons.inj h).1 (by decide)
  | cons n names ih =>
    cases names' with
    | nil => exact absurd (List.cons.inj h).1 (by decide)
    | cons n' names' =>
      simp only [furtherValues_cons, List.cons_append, List.append_assoc, List.cons.injEq,
        true_and] at h
      obtain ⟨rfl, hrest⟩ := Script.eq_of_quote_append h
      obtain ⟨rfl, rfl⟩ := ih hrest
      exact ⟨rfl, rfl⟩

/-- The values of a lookup entry at the front of a text determine themselves and what follows. -/
theorem eq_of_values_append {names names' : List String} {r r' : List Char}
    (h : (valuesText names).toList ++ r = (valuesText names').toList ++ r') :
    names = names' ∧ r = r' := by
  -- an empty list has its closing bracket where the others have a quote
  have hempty (n : String) (names : List String) (r r' : List Char) :
      (valuesText []).toList ++ r ≠ (valuesText (n :: names)).toList ++ r' := by
    rw [toList_valuesText_cons]
    intro h
    have hbracket : ']' = '"' := by
      simpa [valuesText, quote] using congrArg (fun cs => cs.tail.head?) h
    exact absurd hbracket (by decide)
  cases names with
  | nil =>
    cases names' with
    | nil => exact ⟨rfl, List.append_cancel_left h⟩
    | cons n' names' => exact absurd h (hempty n' names' r r')
  | cons n names =>
    cases names' with
    | nil => exact absurd h.symm (hempty n names r' r)
    | cons n' names' =>
      simp only [toList_valuesText_cons, List.cons_append, List.append_assoc, List.cons.injEq,
        true_and, List.nil_append] at h
      obtain ⟨rfl, hrest⟩ := Script.eq_of_quote_append h
      obtain ⟨rfl, rfl⟩ := eq_of_furtherValues_append hrest
      exact ⟨rfl, rfl⟩

/-! ### The text of a lookup table -/

namespace NamedLookup

/-- The entries of a lookup table, each on a line of its own. -/
def entryLines (t : NamedLookup) : List String :=
  t.map fun e => "  " ++ Script.entryText (e.1, valuesText e.2)

/-- The text of a lookup table. -/
def text (t : NamedLookup) : String :=
  if t.isEmpty then "\x7b\x7d" else "\x7b\n" ++ unlines t.entryLines ++ "\x7d"

theorem render_layout (t : NamedLookup) : t.layout.render = t.text := by
  cases t with
  | nil => rfl
  | cons e t =>
    have hentries := Pipeline.block_entries spells_values (e :: t) 1
    have hindent : Layout.indentation 1 = "  " := by decide
    simp only [layout, Script.object, List.map_cons, List.isEmpty_cons, Bool.false_eq_true,
      if_false, List.map_map, Function.comp_def] at hentries ⊢
    simp only [Layout.render, Layout.write, Layout.writeAll_cons, hentries, Layout.indentation_zero]
    simp only [Layout.writeAll, text, entryLines, hindent, List.isEmpty_cons, Bool.false_eq_true,
      if_false]
    rfl

/-- The entries of a lookup table in front of the brace that closes it determine themselves and what
follows. -/
theorem eq_of_entries_append {t t' : NamedLookup} {r r' : List Char}
    (h : (unlines t.entryLines).toList ++ '\x7d' :: r =
      (unlines t'.entryLines).toList ++ '\x7d' :: r') :
    t = t' ∧ r = r' := by
  have hcons (e : String × List String) (t : NamedLookup) (r : List Char) :
      (unlines (entryLines (e :: t))).toList ++ r =
        ' ' :: ' ' :: ((quote e.1).toList ++ ':' :: ' ' ::
          ((valuesText e.2).toList ++ ',' :: '\n' :: ((unlines t.entryLines).toList ++ r))) := by
    simp [entryLines, unlines, Script.entryText]
  induction t generalizing t' with
  | nil =>
    cases t' with
    | nil => exact ⟨rfl, (List.cons.inj h).2⟩
    | cons e' t' =>
      rw [hcons] at h
      exact absurd (List.cons.inj h).1 (by decide)
  | cons e t ih =>
    cases t' with
    | nil =>
      rw [hcons] at h
      exact absurd (List.cons.inj h).1 (by decide)
    | cons e' t' =>
      simp only [hcons, List.cons.injEq, true_and] at h
      obtain ⟨hkey, h⟩ := Script.eq_of_quote_append h
      simp only [List.cons.injEq, true_and] at h
      obtain ⟨hvalues, h⟩ := eq_of_values_append h
      simp only [List.cons.injEq, true_and] at h
      obtain ⟨rfl, rfl⟩ := ih h
      obtain rfl : e = e' := Prod.ext hkey hvalues
      exact ⟨rfl, rfl⟩

/-- Different lookup tables have different texts. -/
theorem eq_of_text_eq {t t' : NamedLookup} (h : t.text = t'.text) : t = t' := by
  have hempty (e : String × List String) (t : NamedLookup) : text [] ≠ text (e :: t) := by
    intro h
    have hbrace : some '\x7d' = some '\n' := by
      simpa [text] using congrArg (fun s => s.toList.tail.head?) h
    exact absurd hbrace (by decide)
  cases t with
  | nil =>
    cases t' with
    | nil => rfl
    | cons e' t' => exact absurd h (hempty e' t')
  | cons e t =>
    cases t' with
    | nil => exact absurd h.symm (hempty e t)
    | cons e' t' =>
      have hchars := congrArg String.toList h
      simp only [text, List.isEmpty_cons, Bool.false_eq_true, if_false, String.toList_append,
        List.append_assoc]
        at hchars
      exact (eq_of_entries_append (List.append_cancel_left hchars)).1

end NamedLookup

/-! ### Numbers and names -/

theorem eq_of_map_eq_map {α β : Type} {f : α → β} {l l' : List α}
    (hf : ∀ a ∈ l, ∀ b ∈ l', f a = f b → a = b) (h : l.map f = l'.map f) : l = l' := by
  induction l generalizing l' with
  | nil => exact (List.map_eq_nil_iff.1 h.symm).symm
  | cons a l ih =>
    cases l' with
    | nil => cases h
    | cons b l' =>
      rw [List.map_cons, List.map_cons, List.cons.injEq] at h
      obtain rfl := hf a List.mem_cons_self b List.mem_cons_self h.1
      rw [ih (fun a ha b hb => hf a (List.mem_cons_of_mem _ ha) b (List.mem_cons_of_mem _ hb)) h.2]

namespace Graph

variable {g : Graph}

/-- Elements are known apart if no two have the same identity. -/
theorem eq_of_label_eq (h : (g.elements.map Element.identity).Nodup) {id id' : ElementId}
    (hid : (g.element? id).isSome = true) (hid' : (g.element? id').isSome = true)
    (hlabel : g.label id = g.label id') :
    id = id' := by
  have hfind {i : ElementId} (hi : (g.element? i).isSome = true) :
      (g.elements.map Element.identity)[i]? = some (g.label i) := by
    obtain ⟨e, he⟩ := Option.isSome_iff_exists.1 hi
    have helement : g.elements[i]? = some e := he
    rw [List.getElem?_map, helement, label, he]
    rfl
  have hlt : id < (g.elements.map Element.identity).length :=
    (List.getElem?_eq_some_iff.1 (hfind hid)).1
  exact (List.getElem?_inj hlt h).1 ((hfind hid).trans (hlabel ▸ (hfind hid').symm))

/-- A lookup table is known from the names in it. -/
theorem eq_of_named_eq (h : (g.elements.map Element.identity).Nodup) {t t' : LookupTable}
    (ht : ∀ p ∈ t, ∀ id ∈ p.1 :: p.2, (g.element? id).isSome = true)
    (ht' : ∀ p ∈ t', ∀ id ∈ p.1 :: p.2, (g.element? id).isSome = true)
    (hnamed : (t.map fun p => (g.label p.1, p.2.map g.label)) =
      t'.map fun p => (g.label p.1, p.2.map g.label)) :
    t = t' := by
  refine eq_of_map_eq_map (fun p hp p' hp' hrow => ?_) hnamed
  obtain ⟨hkey, hvalues⟩ := Prod.mk.inj hrow
  obtain ⟨hkeys, hids⟩ := List.forall_mem_cons.1 (ht p hp)
  obtain ⟨hkeys', hids'⟩ := List.forall_mem_cons.1 (ht' p' hp')
  refine Prod.ext (eq_of_label_eq h hkeys hkeys' hkey) ?_
  exact eq_of_map_eq_map
    (fun id hid id' hid' hl => eq_of_label_eq h (hids id hid) (hids' id' hid') hl) hvalues

/-- **Lookup tables are written faithfully.** If the elements of a graph can be named, then a lookup
table cannot be written only if some key or value does not exist. Two tables without such keys and
values are both written, and if their texts are the same, then they have the same entries, in the
same order and with the same lists of values. -/
theorem lookups_faithful {ns : Names} (h : Names.ofGraph g = .ok ns) :
    (∀ t : LookupTable,
      (∃ err, namedLookup ns t = .error err) ↔ ∃ p ∈ t, ∃ id ∈ p.1 :: p.2, g.element? id = none) ∧
    ∀ t t' : LookupTable, (∀ p ∈ t ++ t', ∀ id ∈ p.1 :: p.2, ∃ e, g.element? id = some e) →
      ∃ n n', namedLookup ns t = .ok n ∧ namedLookup ns t' = .ok n' ∧
        (n.layout.render = n'.layout.render → t = t') := by
  obtain ⟨hnodup, rfl⟩ := Names.ofGraph_eq_ok.1 h
  constructor
  · intro t
    have hok {n : NamedLookup} := namedLookup_eq_ok (g := g) (t := t) (n := n)
    cases hn : namedLookup g.names t with
    | ok n =>
      have hsome := (hok.1 hn).1
      constructor
      · rintro ⟨err, herr⟩
        cases herr
      · rintro ⟨p, hp, id, hid, hnone⟩
        simpa [hnone] using hsome p hp id hid
    | error err =>
      refine ⟨fun _ => ?_, fun _ => ⟨err, rfl⟩⟩
      by_contra hnone
      simp only [not_exists, not_and] at hnone
      have hwritten :=
        hok.2 ⟨fun p hp id hid => Option.isSome_iff_ne_none.2 (hnone p hp id hid), rfl⟩
      cases hn.symm.trans hwritten
  · intro t t' hids
    simp only [← Option.isSome_iff_exists] at hids
    obtain ⟨ht, ht'⟩ := List.forall_mem_append.1 hids
    refine ⟨_, _, namedLookup_eq_ok.2 ⟨ht, rfl⟩, namedLookup_eq_ok.2 ⟨ht', rfl⟩, fun hrender => ?_⟩
    rw [NamedLookup.render_layout, NamedLookup.render_layout] at hrender
    exact eq_of_named_eq hnodup ht ht' (NamedLookup.eq_of_text_eq hrender)

/-- Names with the separators of the text in them do not make two tables look alike. -/
theorem lookups_faithful_separators :
    let g := ofSteps [.add (.table "1\", \"2" 0), .add (.input "],\n  \"7\": ["),
      .add (.map (.param default 0) 1), .add (.table "7" 0)]
    let t : LookupTable := [(0, [1, 2, 2]), (3, [])]
    let t' : LookupTable := [(0, [1, 2]), (3, [2])]
    ∃ ns n n', Names.ofGraph g = .ok ns ∧ namedLookup ns t = .ok n ∧ namedLookup ns t' = .ok n' ∧
      n.layout.render ≠ n'.layout.render ∧
      ∃ err, namedLookup ns [(0, [1]), (3, [2, 4])] = .error err := by
  intro g t t'
  have hns : Names.ofGraph g = .ok g.names := Names.ofGraph_eq_ok.2 ⟨by decide +kernel, rfl⟩
  have hids :
      ((t ++ t').all fun p => (p.1 :: p.2).all fun id => (g.element? id).isSome) = true := by
    decide +kernel
  obtain ⟨hfails, hwritten⟩ := lookups_faithful hns
  obtain ⟨n, n', hn, hn', heq⟩ := hwritten t t' fun p hp id hid =>
    Option.isSome_iff_exists.1 (List.all_eq_true.1 (List.all_eq_true.1 hids p hp) id hid)
  refine ⟨g.names, n, n', hns, hn, hn', fun hrender => absurd (heq hrender) (by decide), ?_⟩
  exact (hfails _).2 ⟨(3, [2, 4]), by simp, 4, by simp, by decide +kernel⟩

end Graph

end Dataflow
