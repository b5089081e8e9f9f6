import Dataflow.Proofs.Covering
import Dataflow.Proofs.Parsing

/-!
# Where parsing stops

Tokens are viable if some sentence begins with them. The stack machine takes exactly the viable
lists of tokens (`exists_steps_iff`):

* whatever stands open on its stack can be closed (`Opens.viable`), so that all it has read can be
  continued to a sentence;
* it reads a sentence from the first token to the last, and so every beginning of one.

Therefore it stops at the first token with which no sentence goes on, and this token is the one that
is reported.
-/

namespace Dataflow

namespace Grammar

/-- Some sentence begins with the tokens. -/
def Viable (ts : List Token) : Prop := ∃ us tree, Sentence (ts ++ us) tree

theorem Viable.of_append {ts : List Token} (us : List Token) (h : Viable (ts ++ us)) :
    Viable ts := by
  obtain ⟨vs, tree, hs⟩ := h
  exact ⟨us ++ vs, tree, by rwa [← List.append_assoc]⟩

end Grammar

namespace Parser

open Grammar

variable {stack : List Frame} {ts us vs : List Token} {c d : Category} {e : Expr} {es : List Expr}
  {st : State} {ps : List PlacedToken}

/-! ### Closing what stands open -/

/-- A list of items is closed by its bracket. -/
theorem Purpose.Begins.exists_derives {p : Purpose} (hb : p.Begins us) (hi : Items vs es) :
    ∃ tree, Derives .suffixed (us ++ vs ++ [.symbol p.closer]) tree := by
  cases p with
  | tuple opening =>
    subst hb
    exact ⟨_, .atom (.tuple hi)⟩
  | call f =>
    obtain ⟨fs, rfl, hf⟩ := hb
    exact ⟨_, by simpa [Purpose.closer] using Derives.call hf hi⟩

/-- A phrase that a stack waits for makes a beginning of a sentence with it: the operators take it
as their last operand, and the brackets can be closed. -/
theorem Opens.viable (ho : Opens stack ts c) (hd : Derives d vs e) (hc : c.rank ≤ d.rank) :
    Viable (ts ++ vs) := by
  -- from the innermost frame outwards, with the phrase growing by what each frame adds to it
  induction ho generalizing vs d e with
  | nil => exact ⟨[], e, by simpa using hd.loosen hc⟩
  | binary ho hrank hop hleft ih =>
    have hphrase := ih (.binary hop hleft (hd.loosen hc)) hrank
    simpa using hphrase
  | unary span ho hsign ih =>
    have hphrase := ih (.unary hsign (hd.loosen hc)) ho.rank_le
    simpa using hphrase
  | group span ho ih =>
    have hphrase := ih (.group (hd.loosen hc)) (Nat.le_trans ho.rank_le (by decide))
    exact .of_append [.symbol .rightParen] (by simpa using hphrase)
  | index ho hb ih =>
    have hphrase := ih (.index hb (hd.loosen hc)) (Nat.le_trans ho.rank_le (by decide))
    exact .of_append [.symbol .rightBracket] (by simpa using hphrase)
  | tuple ho hb hi ih =>
    obtain ⟨tree, hnode⟩ := hb.exists_derives (.plain (hi.snoc (hd.loosen hc)))
    have hphrase := ih hnode (Nat.le_trans ho.rank_le (by decide))
    exact .of_append [.symbol .rightBracket] (by simpa [Purpose.closer] using hphrase)
  | call ho hb hi ih =>
    obtain ⟨tree, hnode⟩ := hb.exists_derives (.plain (hi.snoc (hd.loosen hc)))
    have hphrase := ih hnode (Nat.le_trans ho.rank_le (by decide))
    exact .of_append [.symbol .rightParen] (by simpa [Purpose.closer] using hphrase)

/-- All that was read up to some state is the beginning of a sentence. -/
theorem Traces.viable (h : Traces st ts) : Viable ts := by
  cases st with
  | start stack =>
    obtain ⟨c, ho⟩ := h
    -- any operand will do
    have hnull : Derives .suffixed [.null] (.literal default .null) := .atom (.literal .null)
    exact .of_append [.null] (ho.viable hnull (Nat.le_trans ho.rank_le (by decide)))
  | after stack x =>
    obtain ⟨c, us, vs, ho, hx, rfl⟩ := h
    exact ho.viable hx (Nat.le_trans ho.rank_le (by decide))
  | member stack x =>
    obtain ⟨c, us, vs, ho, hx, rfl⟩ := h
    have hfield := ho.viable (.field "name" hx) (Nat.le_trans ho.rank_le (by decide))
    exact .of_append [.ident "name"] (by simpa using hfield)

/-- The machine takes exactly the beginnings of sentences. -/
theorem exists_steps_iff : (∃ st, steps? (.start []) ps = some st) ↔ Viable (tokens ps) := by
  constructor
  · rintro ⟨st, hst⟩
    have hstart : Traces (.start []) [] := ⟨.expr, .nil⟩
    exact (hstart.steps hst).viable
  · rintro ⟨us, tree, hs⟩
    -- the places of the tokens that go on do not matter
    have hplaced : tokens (ps ++ us.map fun t => ⟨t, default⟩) = tokens ps ++ us := by
      simp [Function.comp_def]
    rw [← hplaced] at hs
    obtain ⟨e, he, -⟩ := ofTokens_of_sentence hs 0
    obtain ⟨st, hst, -⟩ := run_eq_ok_iff.1 he
    rw [steps?_append, Option.bind_eq_some_iff] at hst
    obtain ⟨st', hst', -⟩ := hst
    exact ⟨st', hst'⟩

theorem steps?_eq_none_iff : steps? (.start []) ps = none ↔ ¬Viable (tokens ps) := by
  rw [← exists_steps_iff, ← Option.ne_none_iff_exists', Decidable.not_not]

/-! ### The error of a run -/

/-- A run fails at a token that cannot be taken after those before it, or at the end. -/
theorem run_eq_error {n : Nat} {err : SyntaxError} (h : run n st ps = .error err) :
    (∃ k t, ps[k]? = some t ∧ steps? st (ps.take (k + 1)) = none ∧
      (∀ j ≤ k, steps? st (ps.take j) ≠ none) ∧
      err.span = t.span ∧ err.found = some t.token) ∨
    (steps? st ps ≠ none ∧ err.span = .empty n ∧ err.found = none) := by
  induction ps generalizing st with
  | nil =>
    rw [run] at h
    split at h
    · cases h
    · cases h
      exact .inr ⟨by simp, rfl, rfl⟩
  | cons t ps ih =>
    rw [run] at h
    split at h
    · next st' hst' =>
      rcases ih h with ⟨k, t', ht', hnone, hsome, hspan, hfound⟩ | ⟨hsome, hspan, hfound⟩
      · refine .inl ⟨k + 1, t', by simpa using ht', ?_, ?_, hspan, hfound⟩
        · rw [List.take_succ_cons, steps?_of_cons hst', hnone]
        · intro j hj
          cases j with
          | zero => simp
          | succ j =>
            rw [List.take_succ_cons, steps?_of_cons hst']
            exact hsome j (Nat.le_of_succ_le_succ hj)
      · exact .inr ⟨by rwa [steps?_of_cons hst'], hspan, hfound⟩
    · next hnone =>
      cases h
      refine .inl ⟨0, t, rfl, ?_, ?_, rfl, rfl⟩
      · simp [steps?_cons, hnone]
      · intro j hj
        obtain rfl := Nat.le_zero.1 hj
        simp

end Parser

open Grammar

/-- A syntax error marks where tokens stop being the beginning of a sentence: at the first token
with which they are none, or at the end if they could go on but are no sentence. -/
def SyntaxError.Marks (e : SyntaxError) (length : Nat) (ts : List PlacedToken) : Prop :=
  (∃ k t, ts[k]? = some t ∧ ¬Viable (Parser.tokens (ts.take (k + 1))) ∧
    (∀ j < k, Viable (Parser.tokens (ts.take (j + 1)))) ∧ e.span = t.span ∧
    e.found = some t.token) ∨
  ((∃ us tree, us ≠ [] ∧ Sentence (Parser.tokens ts ++ us) tree) ∧
    (¬∃ tree, Sentence (Parser.tokens ts) tree) ∧
    e.span = ⟨length, length⟩ ∧ e.found = none)

theorem Parser.marks_of_ofTokens {length : Nat} {ts : List PlacedToken} {e : SyntaxError}
    (h : Expr.ofTokens length ts = .error e) : e.Marks length ts := by
  rcases run_eq_error h with ⟨k, t, ht, hnone, hsome, hspan, hfound⟩ | ⟨hsome, hspan, hfound⟩
  · refine .inl ⟨k, t, ht, steps?_eq_none_iff.1 hnone, fun j hj => ?_, hspan, hfound⟩
    exact exists_steps_iff.1 (Option.ne_none_iff_exists'.1 (hsome (j + 1) hj))
  · have hno : ¬∃ tree, Sentence (tokens ts) tree := by
      rintro ⟨tree, hs⟩
      obtain ⟨e', he', -⟩ := ofTokens_of_sentence hs length
      cases h.symm.trans he'
    obtain ⟨us, tree, hs⟩ := exists_steps_iff.1 (Option.ne_none_iff_exists'.1 hsome)
    refine .inr ⟨⟨us, tree, ?_, hs⟩, hno, hspan, hfound⟩
    rintro rfl
    exact hno ⟨tree, by simpa using hs⟩

/-- **A syntax error is where the first fault is.** There is no tree exactly if a syntax error is
reported; there is one such error then, behind the errors of the lexer, and it marks where the
tokens stop being the beginning of a sentence. The errors of the lexer are in the order of the
source. -/
theorem parse_marks_fault (source : String) :
    ((Expr.parse source).expr = none ↔ ∃ e, .syntactic e ∈ (Expr.parse source).errors) ∧
      ((Expr.parse source).expr ≠ none →
        (Expr.parse source).errors = (lex source).errors.map .lexical) ∧
      ((Expr.parse source).expr = none →
        ∃ e : SyntaxError,
          (Expr.parse source).errors = (lex source).errors.map .lexical ++ [.syntactic e] ∧
          e.Marks source.utf8ByteSize (lex source).tokens) ∧
      ((lex source).errors.map LexError.span).Pairwise Span.Precedes := by
  unfold Expr.parse
  dsimp only
  split
  · exact ⟨by simp, fun _ => rfl, by simp, pairwise_errors_lex source⟩
  · next e he =>
    exact ⟨by simp, fun h => absurd rfl h, fun _ => ⟨e, rfl, Parser.marks_of_ofTokens he⟩,
      pairwise_errors_lex source⟩

end Dataflow
