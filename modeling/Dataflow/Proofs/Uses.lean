import Dataflow.Proofs.Munching
import Dataflow.Proofs.Phrases

/-!
# References are the tokens of the source

The collectors walk a tree in which operands are regrouped and parentheses are gone. They find what
a reader of the tokens finds who knows nothing of trees: the parameters are the tokens that are
parameters, and the free names are the tokens that are names and do not follow a dot, each once and
in the order of the source.

`Collects` is what a reader of tokens and a walk of trees have to agree on, token by token and node
by node. They then agree on every phrase (`Collects.phrase`), and so on every source that is parsed
(`references_parse`).
-/

namespace Dataflow

open Piece (texts exprs)

/-! ### What tokens use -/

/-- The parameter that a token is. -/
def PlacedToken.paramUse? : PlacedToken → Option (UInt32 × Span)
  | ⟨.param i, s⟩ => some (i, s)
  | _ => none

/-- The name that a token is. -/
def PlacedToken.nameUse? : PlacedToken → Option (String × Span)
  | ⟨.ident n, s⟩ => some (n, s)
  | _ => none

/-- The parameters among some tokens. -/
def paramUses (ts : List PlacedToken) : List (UInt32 × Span) := ts.filterMap PlacedToken.paramUse?

/-- The names among some tokens that do not follow a dot, where the token `previous` comes first. -/
def nameUsesAfter (previous : Option Token) (ts : List PlacedToken) : List (String × Span) :=
  ((previous :: ts.map fun t => some t.token).zip ts).filterMap fun p =>
    if p.1 = some (.symbol .dot) then none else p.2.nameUse?

/-- The names among some tokens that do not follow a dot. -/
def nameUses (ts : List PlacedToken) : List (String × Span) := nameUsesAfter none ts

theorem nameUsesAfter_cons (previous : Option Token) (t : PlacedToken) (ts : List PlacedToken) :
    nameUsesAfter previous (t :: ts) =
      (if previous = some (.symbol .dot) then none else t.nameUse?).toList ++
        nameUsesAfter (some t.token) ts := by
  simp only [nameUsesAfter, List.map_cons, List.zip_cons_cons, List.filterMap_cons]
  split <;> simp [*]

/-- The token before matters only if it is a dot. -/
theorem nameUsesAfter_eq {previous : Option Token} (h : previous ≠ some (.symbol .dot))
    (ts : List PlacedToken) :
    nameUsesAfter previous ts = nameUses ts := by
  cases ts with
  | nil => rfl
  | cons t ts => simp [nameUses, nameUsesAfter_cons, h]

/-- The next token is read by itself behind one that is no dot. -/
theorem nameUses_cons {t : PlacedToken} (h : t.token ≠ .symbol .dot) (ts : List PlacedToken) :
    nameUses (t :: ts) = t.nameUse?.toList ++ nameUses ts := by
  rw [nameUses, nameUsesAfter_cons, nameUsesAfter_eq (by simpa using h)]
  rfl

theorem nameUses_member (dot name : Span) (n : String) (ts : List PlacedToken) :
    nameUses (⟨.symbol .dot, dot⟩ :: ⟨.ident n, name⟩ :: ts) = nameUses ts := by
  rw [nameUses, nameUsesAfter_cons, nameUsesAfter_cons, nameUsesAfter_eq (by simp)]
  rfl

theorem mem_of_mem_nameUses {n : String} {s : Span} {ts : List PlacedToken}
    (h : (n, s) ∈ nameUses ts) :
    ⟨.ident n, s⟩ ∈ ts := by
  obtain ⟨⟨previous, token, span⟩, hp, hn⟩ := List.mem_filterMap.1 h
  have ht : ⟨token, span⟩ ∈ ts := (List.of_mem_zip hp).2
  dsimp only at hn
  split at hn
  · cases hn
  · cases token <;> cases hn
    exact ht

/-! ### Reading tokens and walking trees -/

/-- What `scan` reads from tokens, `collect` collects from trees: the same from a leaf, nothing from
symbols and from the name of a field, and all else from the children. -/
structure Collects {α : Type} (scan : List PlacedToken → List α) (collect : Expr → List α) :
    Prop where
  leaf : ∀ {t : PlacedToken} {e : Expr} (rest : List PlacedToken),
    t.token.leaf? t.span = some e → scan (t :: rest) = collect e ++ scan rest
  symbol : ∀ {s : Symbol} (span : Span) (rest : List PlacedToken),
    s ≠ .dot → scan (⟨.symbol s, span⟩ :: rest) = scan rest
  member : ∀ (dot name : Span) (n : String) (rest : List PlacedToken),
    scan (⟨.symbol .dot, dot⟩ :: ⟨.ident n, name⟩ :: rest) = scan rest
  inner : ∀ {e : Expr}, ¬ e.IsLeaf → collect e = e.children.flatMap collect

namespace Collects

variable {α : Type} {scan : List PlacedToken → List α} {collect : Expr → List α}

/-- Pieces whose own tokens are symbols are read operand by operand. -/
theorem pieces (hc : Collects scan collect) {ps : List Piece}
    (hoperands : ∀ c ts, .operand c ts ∈ ps → ∀ rest, scan (ts ++ rest) = collect c ++ scan rest)
    (hsymbols : Piece.Symbolic ps) (rest : List PlacedToken) :
    scan (texts ps ++ rest) = (exprs ps).flatMap collect ++ scan rest := by
  induction ps with
  | nil => rfl
  | cons p ps ih =>
    have ih := ih (fun c ts h => hoperands c ts (List.mem_cons_of_mem _ h))
      (fun t h => hsymbols t (List.mem_cons_of_mem _ h))
    cases p with
    | token t =>
      obtain ⟨token, span⟩ := t
      obtain ⟨s, hs, rfl⟩ := hsymbols _ List.mem_cons_self
      simpa [hc.symbol span _ hs] using ih
    | operand c ts =>
      have hts := hoperands c ts List.mem_cons_self (texts ps ++ rest)
      simp [hts, ih]

/-- **Reading the tokens of a phrase collects what the walk of its tree collects.** The rest of the
tokens is read as if the phrase had not been there, since no phrase ends in a dot. -/
theorem phrase (hc : Collects scan collect) {ts : List PlacedToken} {e : Expr} (h : Phrase ts e)
    (rest : List PlacedToken) : scan (ts ++ rest) = collect e ++ scan rest := by
  induction h generalizing rest with
  | node hform _ _ ih =>
    rcases hform.own_tokens with ⟨t, ht, rfl⟩ | ⟨hleaf, ⟨b, bs, dot, name, n, rfl⟩ | hsymbols⟩
    · exact hc.leaf rest ht
    · have hb := ih b bs List.mem_cons_self
      simp [hc.inner hleaf, hform.children, hb, hc.member]
    · rw [hc.inner hleaf, hform.children]
      exact hc.pieces ih hsymbols rest
  | group opening closing _ ih =>
    simp [hc.symbol opening _ (by decide : Symbol.leftParen ≠ .dot), ih,
      hc.symbol closing _ (by decide : Symbol.rightParen ≠ .dot)]

/-- The tokens of a source that is parsed give what its tree gives. -/
theorem parse (hc : Collects scan collect) (hnil : scan [] = []) {source : String} {e : Expr}
    (h : (Expr.parse source).expr = some e) : collect e = scan (lex source).tokens := by
  simpa [hnil] using (hc.phrase (Expr.phrase_of_parse h) []).symm

end Collects

theorem collects_paramUses : Collects paramUses Expr.paramRefs where
  leaf := by
    rintro ⟨token, span⟩ e rest h
    cases token <;> cases h <;>
      simp [paramUses, List.filterMap_cons, PlacedToken.paramUse?, Expr.paramRefs]
  symbol _ _ _ := rfl
  member _ _ _ _ := rfl
  inner := by
    intro e he
    cases e with
    | literal | param | ident => exact absurd trivial he
    | tuple | index | field | call | unary | binary => exact Expr.paramRefs_eq _

theorem collects_nameUses : Collects nameUses Expr.freeNames where
  leaf := by
    rintro ⟨token, span⟩ e rest h
    cases token <;> cases h <;> rw [nameUses_cons (by simp)] <;>
      simp [PlacedToken.nameUse?, Expr.freeNames]
  symbol span rest hs := nameUses_cons (by simpa using hs) rest
  member := nameUses_member
  inner := by
    intro e he
    cases e with
    | literal | param | ident => exact absurd trivial he
    | tuple | index | field | call | unary | binary => exact Expr.freeNames_eq _

/-- **The collectors see every use, once and in the order of the source.** If a source is parsed,
the parameters of the tree are the tokens that are parameters, and its free names are the tokens
that are names and do not follow a dot, with their texts and places. -/
theorem references_parse {source : String} {e : Expr} (h : (Expr.parse source).expr = some e) :
    e.paramRefs = paramUses (lex source).tokens ∧ e.freeNames = nameUses (lex source).tokens ∧
    ∀ n s, (n, s) ∈ e.freeNames → ∃ before after, s.Cuts source before n.toList after := by
  refine ⟨collects_paramUses.parse rfl h, collects_nameUses.parse rfl h, ?_⟩
  intro n s hn
  rw [collects_nameUses.parse rfl h] at hn
  exact cuts_of_mem_idents (mem_of_mem_nameUses hn)

/-- Names behind dots are left out, here also one that is used freely elsewhere. -/
theorem references_parse_nested :
    ∃ e, (Expr.parse "f($1, a.b.f)[$0] - (x.y - [$2, b])").expr = some e ∧
      e.paramRefs = [(1, ⟨2, 4⟩), (0, ⟨13, 15⟩), (2, ⟨27, 29⟩)] ∧
      e.freeNames = [("f", ⟨0, 1⟩), ("a", ⟨6, 7⟩), ("x", ⟨20, 21⟩), ("b", ⟨31, 32⟩)] := by
  obtain ⟨e, he⟩ := Option.isSome_iff_exists.1
    (by decide +kernel : (Expr.parse "f($1, a.b.f)[$0] - (x.y - [$2, b])").expr.isSome = true)
  obtain ⟨hparams, hnames, -⟩ := references_parse he
  refine ⟨e, he, hparams.trans ?_, hnames.trans ?_⟩
  · decide +kernel
  · decide +kernel

end Dataflow
