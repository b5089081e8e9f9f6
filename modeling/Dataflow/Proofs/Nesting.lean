import Dataflow.Proofs.Munching
import Dataflow.Proofs.Phrases

/-!
# The spans of a tree

The tokens of a source come in order and take up its text (`Ordered`). A node spans its own text,
which is a part of the tokens (`Phrase.hasText`), and texts inside of texts and texts behind texts
have spans that are related in the same way. So the spans of a tree are exact and nested
(`placed_parse`).
-/

namespace Dataflow

open Piece (texts exprs Phrased)

variable {ts us vs : List PlacedToken} {t : PlacedToken} {e a : Expr} {ps : List Piece}
  {source : String}

/-! ### Tokens in order -/

/-- The spans of tokens are not empty, and come one behind the other. -/
structure Ordered (ts : List PlacedToken) : Prop where
  start_lt_stop : ∀ t ∈ ts, t.span.start < t.span.stop
  pairwise : (ts.map PlacedToken.span).Pairwise Span.Precedes

theorem ordered_lex (source : String) : Ordered (lex source).tokens where
  start_lt_stop t ht := by
    obtain ⟨before, text, after, hcuts, hne, -⟩ := cuts_of_mem_tokens ht
    exact hcuts.start_lt_stop hne
  pairwise := pairwise_tokens_lex source

theorem Ordered.sublist (h : Ordered ts) (hsub : us.Sublist ts) : Ordered us where
  start_lt_stop t ht := h.start_lt_stop t (hsub.subset ht)
  pairwise := h.pairwise.sublist (hsub.map _)

theorem Ordered.precedes (h : Ordered (us ++ vs)) {u v : PlacedToken} (hu : u ∈ us) (hv : v ∈ vs) :
    u.span.Precedes v.span := by
  have hpair := h.pairwise
  rw [List.map_append, List.pairwise_append] at hpair
  exact hpair.2.2 _ (List.mem_map_of_mem hu) _ (List.mem_map_of_mem hv)

/-- A text starts with one of its tokens. -/
theorem exists_start_eq (hne : ts ≠ []) : ∃ t ∈ ts, (Span.ofTokens ts).start = t.span.start := by
  obtain ⟨t, rest, rfl⟩ := List.exists_cons_of_ne_nil hne
  exact ⟨t, List.mem_cons_self, rfl⟩

/-- A text ends with one of its tokens. -/
theorem exists_stop_eq (hne : ts ≠ []) : ∃ t ∈ ts, (Span.ofTokens ts).stop = t.span.stop := by
  refine ⟨ts.getLast hne, List.getLast_mem hne, ?_⟩
  simp [Span.ofTokens, List.getLast?_eq_some_getLast hne]

theorem Ordered.start_le (h : Ordered ts) (ht : t ∈ ts) :
    (Span.ofTokens ts).start ≤ t.span.start := by
  obtain ⟨u, rest, rfl⟩ := List.exists_cons_of_ne_nil (List.ne_nil_of_mem ht)
  rcases List.mem_cons.1 ht with rfl | ht
  · exact Nat.le_refl _
  · have hu : u.span.start < u.span.stop := h.start_lt_stop u List.mem_cons_self
    have h' : Ordered ([u] ++ rest) := h
    have hprec : u.span.Precedes t.span := h'.precedes (List.mem_singleton_self u) ht
    exact hu.le.trans hprec

theorem Ordered.le_stop (h : Ordered ts) (ht : t ∈ ts) : t.span.stop ≤ (Span.ofTokens ts).stop := by
  obtain ⟨rest, v, rfl⟩ := (List.eq_nil_or_concat' ts).resolve_left (List.ne_nil_of_mem ht)
  have hstop : (Span.ofTokens (rest ++ [v])).stop = v.span.stop := by simp [Span.ofTokens]
  rw [hstop]
  rcases List.mem_append.1 ht with ht | ht
  · have hv : v.span.start < v.span.stop :=
      h.start_lt_stop v (List.mem_append_right rest (List.mem_singleton_self v))
    have hprec : t.span.Precedes v.span := h.precedes ht (List.mem_singleton_self v)
    exact Nat.le_trans hprec hv.le
  · rw [List.mem_singleton.1 ht]

theorem Ordered.within (h : Ordered ts) (ht : t ∈ ts) : t.span.Within (.ofTokens ts) :=
  ⟨h.start_le ht, h.le_stop ht⟩

theorem Ordered.start_lt_stop_ofTokens (h : Ordered ts) (hne : ts ≠ []) :
    (Span.ofTokens ts).start < (Span.ofTokens ts).stop := by
  obtain ⟨t, ht, hstart⟩ := exists_start_eq hne
  rw [hstart]
  exact (h.start_lt_stop t ht).trans_le (h.within ht).2

/-- A text inside of another one spans a part of it. -/
theorem Ordered.ofTokens_within (h : Ordered ts) (hne : us ≠ []) (hsub : us ⊆ ts) :
    (Span.ofTokens us).Within (.ofTokens ts) := by
  obtain ⟨u, hu, hstart⟩ := exists_start_eq hne
  obtain ⟨v, hv, hstop⟩ := exists_stop_eq hne
  exact ⟨hstart ▸ (h.within (hsub hu)).1, hstop ▸ (h.within (hsub hv)).2⟩

/-! ### Texts of nodes -/

/-- The node `e` is written with some of the tokens `ts`, next to each other, and spans them. Its
operands are written with all of the parentheses around them. -/
def HasText (ts : List PlacedToken) (e : Expr) : Prop :=
  ∃ ps, Form e ps ∧ Phrased ps ∧ texts ps <:+: ts ∧ e.span = .ofTokens (texts ps)

theorem HasText.mono (h : HasText us e) (hsub : us <:+: ts) : HasText ts e := by
  obtain ⟨ps, hform, hps, htext, hspan⟩ := h
  exact ⟨ps, hform, hps, htext.trans hsub, hspan⟩

theorem infix_texts {c : Expr} (h : .operand c ts ∈ ps) : ts <:+: texts ps := by
  obtain ⟨before, after, rfl⟩ := List.append_of_mem h
  exact ⟨texts before, texts after, by simp⟩

/-- Whatever occurs in a phrase has its text there. -/
theorem Phrase.hasText (h : Phrase ts e) (ha : a.Occurs e) : HasText ts a := by
  induction h with
  | @node e ps hform hps hspan ih =>
    cases ha with
    | here => exact ⟨ps, hform, hps, List.infix_rfl, hspan⟩
    | @child _ c hc ha =>
      rw [hform.children] at hc
      obtain ⟨us, hus⟩ := Piece.mem_exprs.1 hc
      exact (ih c us hus ha).mono (infix_texts hus)
  | group opening closing h ih => exact (ih ha).mono ⟨[_], [_], rfl⟩

/-- The span of an expression is that of some of the tokens of its phrase. -/
theorem Phrase.exists_span_eq (h : Phrase ts e) :
    ∃ us, us ≠ [] ∧ us ⊆ ts ∧ e.span = .ofTokens us := by
  obtain ⟨ps, hform, -, htext, hspan⟩ := h.hasText .here
  exact ⟨texts ps, hform.texts_ne_nil, htext.subset, hspan⟩

/-- The operands of a node span parts of its text. -/
theorem Piece.Phrased.within (h : Phrased ps) (ho : Ordered (texts ps)) {c : Expr}
    (hc : c ∈ exprs ps) :
    c.span.Within (.ofTokens (texts ps)) := by
  obtain ⟨ts, hts⟩ := Piece.mem_exprs.1 hc
  obtain ⟨us, hne, hsub, hspan⟩ := (h c ts hts).exists_span_eq
  rw [hspan]
  exact ho.ofTokens_within hne fun u hu => (infix_texts hts).subset (hsub hu)

/-- The operands of a node come one behind the other. -/
theorem Piece.Phrased.pairwise (h : Phrased ps) (ho : Ordered (texts ps)) :
    ((exprs ps).map Expr.span).Pairwise Span.Precedes := by
  induction ps with
  | nil => exact .nil
  | cons p ps ih =>
    cases p with
    | token t => exact ih (Piece.phrased_token.1 h) (ho.sublist (List.sublist_cons_self t _))
    | operand c ts =>
      obtain ⟨hc, h⟩ := Piece.phrased_operand.1 h
      refine List.pairwise_cons.2 ⟨?_, ih h (ho.sublist (List.sublist_append_right ts _))⟩
      intro s hs
      obtain ⟨d, hd, rfl⟩ := List.mem_map.1 hs
      obtain ⟨vs, hvs⟩ := Piece.mem_exprs.1 hd
      -- the last token of the one is before the first token of the other
      obtain ⟨cs, hcne, hcsub, hcspan⟩ := hc.exists_span_eq
      obtain ⟨ds, hdne, hdsub, hdspan⟩ := (h d vs hvs).exists_span_eq
      obtain ⟨u, hu, hstop⟩ := exists_stop_eq hcne
      obtain ⟨v, hv, hstart⟩ := exists_start_eq hdne
      have hprec : u.span.Precedes v.span :=
        ho.precedes (hcsub hu) ((infix_texts hvs).subset (hdsub hv))
      rw [hcspan, hdspan, Span.Precedes, hstop, hstart]
      exact hprec

/-! ### Placed nodes -/

/-- The span of a node `a` is exact, and the spans of its children are nested in it, in the order of
the source. A leaf is a single token, and a name is the text at its place. The span runs from the
first to the last token of the text of the node, which has the parentheses around its operands and
none around itself. -/
structure Expr.Placed (source : String) (a : Expr) : Prop where
  start_lt_stop : a.span.start < a.span.stop
  stop_le : a.span.stop ≤ source.utf8ByteSize
  start_eq : ∃ t ∈ (lex source).tokens, a.span.start = t.span.start
  stop_eq : ∃ t ∈ (lex source).tokens, a.span.stop = t.span.stop
  within : ∀ c ∈ a.children, c.span.Within a.span
  children : (a.children.map Expr.span).Pairwise Span.Precedes
  leaf : a.IsLeaf → ∃ t ∈ (lex source).tokens, t.token.leaf? t.span = some a ∧ a.span = t.span
  name : ∀ s n, a = .ident s n → ∃ before after, s.Cuts source before n.toList after
  text : HasText (lex source).tokens a

theorem HasText.exists_leaf (h : HasText ts a) (ha : a.IsLeaf) :
    ∃ t ∈ ts, t.token.leaf? t.span = some a ∧ a.span = t.span := by
  obtain ⟨ps, hform, -, htext, hspan⟩ := h
  rcases hform.own_tokens with ⟨t, ht, rfl⟩ | ⟨hleaf, -⟩
  · exact ⟨t, htext.subset (List.mem_singleton_self t), ht, hspan⟩
  · exact absurd ha hleaf

theorem HasText.placed (h : HasText (lex source).tokens a) : a.Placed source := by
  obtain ⟨ps, hform, hps, htext, hspan⟩ := id h
  have hne : texts ps ≠ [] := hform.texts_ne_nil
  have ho : Ordered (texts ps) := (ordered_lex source).sublist htext.sublist
  obtain ⟨first, hfirst, hstart⟩ := exists_start_eq hne
  obtain ⟨last, hlast, hstop⟩ := exists_stop_eq hne
  refine ⟨?_, ?_, ?_, ?_, ?_, ?_, h.exists_leaf, ?_, h⟩
  · rw [hspan]
    exact ho.start_lt_stop_ofTokens hne
  · obtain ⟨_, _, _, hcuts, -⟩ := cuts_of_mem_tokens (htext.subset hlast)
    rw [hspan, hstop]
    exact hcuts.stop_le
  · exact ⟨first, htext.subset hfirst, by rw [hspan, hstart]⟩
  · exact ⟨last, htext.subset hlast, by rw [hspan, hstop]⟩
  · intro c hc
    rw [hspan]
    exact hps.within ho (hform.children ▸ hc)
  · rw [hform.children]
    exact hps.pairwise ho
  · rintro s n rfl
    obtain ⟨⟨token, span⟩, ht, hleaf, -⟩ := h.exists_leaf trivial
    cases token <;> cases hleaf
    exact cuts_of_mem_idents ht

/-- **The spans of a parsed tree are exact and nested.** The tokens of the source are a phrase of
the tree, perhaps with parentheses around it, and every node in the tree is placed. -/
theorem placed_parse (h : (Expr.parse source).expr = some e) :
    Phrase (lex source).tokens e ∧ ∀ a : Expr, a.Occurs e → a.Placed source := by
  have hphrase := Expr.phrase_of_parse h
  exact ⟨hphrase, fun a ha => (hphrase.hasText ha).placed⟩

/-- Parentheses count if they are around an operand, but not around the node, and refused text does
not matter. -/
theorem placed_parse_parentheses :
    ∃ e, (Expr.parse "((x) * -(y)) @").expr = some e ∧ e.span = ⟨1, 11⟩ ∧
      e.children.map Expr.span = [⟨2, 3⟩, ⟨7, 11⟩] ∧
      Phrase (lex "((x) * -(y)) @").tokens e ∧ ∀ a : Expr, a.Occurs e →
      a.Placed "((x) * -(y)) @" := by
  have hspans :
      (Expr.parse "((x) * -(y)) @").expr.map (fun e => (e.span, e.children.map Expr.span)) =
      some (⟨1, 11⟩, [⟨2, 3⟩, ⟨7, 11⟩]) := by decide +kernel
  obtain ⟨e, he, heq⟩ := Option.map_eq_some_iff.1 hspans
  obtain ⟨hspan, hchildren⟩ := Prod.mk.inj heq
  exact ⟨e, he, hspan, hchildren, placed_parse he⟩

end Dataflow
