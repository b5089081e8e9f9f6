import Dataflow.Proofs.Certificates
import Dataflow.Proofs.Loading
import Dataflow.Proofs.Rendering

/-!
# What parsed expressions are made of

The leaves of an expression that was parsed are tokens of its source, and the lexer makes only some
tokens: names are identifiers and no keywords, and integers have no sign. So every name in a parsed
expression is an identifier (`ParsesTo.leaves`).

* `Expr.Leaves P` says that all leaves of an expression have a property.
* The leaves of a tree stand among the tokens that it was read from (`Derives.leaves`), and the
  tokens that it is rendered with are its leaves and symbols (`Leaves.of_mem_tokens`).
-/

namespace Dataflow

open Grammar

/-! ### Leaves -/

namespace Expr

/-- The tokens that an expression has besides symbols and its parts. -/
def ownTokens : Expr → List Token
  | literal _ v => [v.token]
  | param _ i => [.param i]
  | ident _ n | field _ _ n => [.ident n]
  | _ => []

/-- All leaves of an expression have a property. -/
def Leaves (P : Token → Prop) (e : Expr) : Prop := ∀ a : Expr, a.Occurs e → ∀ t ∈ a.ownTokens, P t

variable {P Q : Token → Prop} {e : Expr}

theorem leaves_iff : e.Leaves P ↔ (∀ t ∈ e.ownTokens, P t) ∧ ∀ c ∈ e.children, c.Leaves P := by
  constructor
  · intro h
    exact ⟨h e .here, fun c hc a ha => h a (.child hc ha)⟩
  · rintro ⟨hown, hchildren⟩ a ha
    cases ha with
    | here => exact hown
    | child hc ha => exact hchildren _ hc a ha

theorem Leaves.imp (h : e.Leaves P) (hPQ : ∀ t, P t → Q t) : e.Leaves Q :=
  fun a ha t ht => hPQ t (h a ha t ht)

theorem Leaves.mono {ts us : List Token} (h : e.Leaves (· ∈ ts)) (hsub : ts ⊆ us) :
    e.Leaves (· ∈ us) :=
  h.imp fun _ ht => hsub ht

theorem of_mem_itemTokens {es : List Expr} (hsymbol : ∀ s, P (.symbol s))
    (h : ∀ e ∈ es, ∀ t ∈ e.tokens, P t) :
    ∀ t ∈ itemTokens es, P t := by
  induction es with
  | nil =>
    rw [itemTokens]
    exact List.forall_mem_nil _
  | cons e es ih =>
    obtain ⟨he, hes⟩ := List.forall_mem_cons.1 h
    cases es with
    | nil => rwa [itemTokens]
    | cons f es =>
      simpa only [itemTokens, List.forall_mem_append, List.forall_mem_cons]
        using ⟨he, hsymbol _, ih hes⟩

/-- The tokens of an expression are its leaves and symbols. -/
theorem Leaves.of_mem_tokens (hsymbol : ∀ s, P (.symbol s)) (h : e.Leaves P) :
    ∀ t ∈ e.tokens, P t := by
  have hgroup {needed : Bool} {ts : List Token} (hts : ∀ t ∈ ts, P t) :
      ∀ t ∈ groupTokens needed ts, P t :=
    (forall_mem_groupTokens (hsymbol _) (hsymbol _)).2 hts
  induction e using induction_children with
  | h e ih =>
    obtain ⟨hown, hchildren⟩ := leaves_iff.1 h
    have ih := fun c hc => ih c hc (hchildren c hc)
    cases e with
    | literal | param | ident => simpa only [tokens, ownTokens] using hown
    | tuple s items =>
      simp only [tokens, List.forall_mem_append, List.forall_mem_cons]
      exact ⟨⟨hsymbol _, of_mem_itemTokens hsymbol ih⟩, hsymbol _, List.forall_mem_nil _⟩
    | index s b i =>
      simp only [tokens, List.forall_mem_append, List.forall_mem_cons]
      exact ⟨⟨hgroup (ih b (by simp [children])), hsymbol _, ih i (by simp [children])⟩, hsymbol _,
        List.forall_mem_nil _⟩
    | field s b n =>
      simp only [tokens, List.forall_mem_append, List.forall_mem_cons]
      exact ⟨hgroup (ih b (by simp [children])), hsymbol _, hown _ (by simp [ownTokens]),
        List.forall_mem_nil _⟩
    | call s f args =>
      obtain ⟨hf, hargs⟩ := List.forall_mem_cons.1 ih
      simp only [tokens, List.forall_mem_append, List.forall_mem_cons]
      exact ⟨⟨hgroup hf, hsymbol _, of_mem_itemTokens hsymbol hargs⟩, hsymbol _,
        List.forall_mem_nil _⟩
    | unary s op e =>
      simp only [tokens, List.forall_mem_cons]
      exact ⟨hsymbol _, hgroup (ih e (by simp [children]))⟩
    | binary s op l r =>
      simp only [tokens, List.forall_mem_append, List.forall_mem_cons]
      exact ⟨hgroup (ih l (by simp [children])), hsymbol _, hgroup (ih r (by simp [children]))⟩

theorem withoutSpansAll_eq (es : List Expr) : withoutSpansAll es = es.map withoutSpans := by
  induction es with
  | nil => simp [withoutSpansAll]
  | cons e es ih => simp [withoutSpansAll, ih]

theorem children_withoutSpans (e : Expr) :
    e.withoutSpans.children = e.children.map withoutSpans := by
  cases e <;> simp [withoutSpans, children, withoutSpansAll_eq]

theorem ownTokens_withoutSpans (e : Expr) : e.withoutSpans.ownTokens = e.ownTokens := by
  cases e <;> simp [withoutSpans, ownTokens]

/-- Spans do not matter to the leaves. -/
theorem leaves_withoutSpans : e.withoutSpans.Leaves P ↔ e.Leaves P := by
  induction e using induction_children with
  | h e ih =>
    rw [leaves_iff, leaves_iff, ownTokens_withoutSpans, children_withoutSpans, List.forall_mem_map]
    exact and_congr_right fun _ => forall₂_congr ih

end Expr

namespace Grammar

mutual

/-- The leaves of a tree stand among its tokens. -/
theorem Derives.leaves {c : Category} {ts : List Token} {e : Expr} (h : Derives c ts e) :
    e.Leaves (· ∈ ts) := by
  match h with
  | .operand h | .unsigned h | .atom h => exact h.leaves
  | .group h => exact h.leaves.mono (by simp)
  | .unary _ h =>
    exact Expr.leaves_iff.2 ⟨List.forall_mem_nil _,
      List.forall_mem_singleton.2 (h.leaves.mono (by simp))⟩
  | .binary _ hl hr =>
    refine Expr.leaves_iff.2 ⟨List.forall_mem_nil _,
      List.forall_mem_cons.2 ⟨?_, List.forall_mem_singleton.2 ?_⟩⟩
    · exact hl.leaves.mono (by simp)
    · exact hr.leaves.mono (by simp)
  | .index hb hi =>
    refine Expr.leaves_iff.2 ⟨List.forall_mem_nil _,
      List.forall_mem_cons.2 ⟨?_, List.forall_mem_singleton.2 ?_⟩⟩
    · exact hb.leaves.mono (by simp)
    · exact hi.leaves.mono fun t ht => by simp [ht]
  | .field n h =>
    exact Expr.leaves_iff.2 ⟨by simp [Expr.ownTokens],
      List.forall_mem_singleton.2 (h.leaves.mono (by simp))⟩
  | .call hf hi =>
    refine Expr.leaves_iff.2 ⟨List.forall_mem_nil _, List.forall_mem_cons.2 ⟨?_, fun e he => ?_⟩⟩
    · exact hf.leaves.mono (by simp)
    · exact (hi.leaves e he).mono fun t ht => by simp [ht]
  | .tuple hi =>
    exact Expr.leaves_iff.2 ⟨List.forall_mem_nil _, fun e he => (hi.leaves e he).mono (by simp)⟩
  | .literal hv =>
    exact Expr.leaves_iff.2 ⟨by cases hv <;> simp [Expr.ownTokens, Literal.token],
      List.forall_mem_nil _⟩
  | .param i => exact Expr.leaves_iff.2 ⟨by simp [Expr.ownTokens], List.forall_mem_nil _⟩
  | .ident n => exact Expr.leaves_iff.2 ⟨by simp [Expr.ownTokens], List.forall_mem_nil _⟩

theorem Items.leaves {ts : List Token} {es : List Expr} (h : Items ts es) :
    ∀ e ∈ es, e.Leaves (· ∈ ts) := by
  match h with
  | .empty => exact List.forall_mem_nil _
  | .plain h => exact h.leaves
  | .trailing h => exact fun e he => (h.leaves e he).mono (by simp)

theorem Sequence.leaves {ts : List Token} {es : List Expr} (h : Sequence ts es) :
    ∀ e ∈ es, e.Leaves (· ∈ ts) := by
  match h with
  | .one h => exact List.forall_mem_singleton.2 h.leaves
  | .more h he =>
    refine List.forall_mem_append.2 ⟨fun e hmem => ?_, List.forall_mem_singleton.2 ?_⟩
    · exact (h.leaves e hmem).mono (by simp)
    · exact he.leaves.mono (by simp)

end

end Grammar

/-! ### Tokens of the lexer -/

/-- What the lexer keeps to: names are identifiers and no keywords, and integers have no sign. -/
def Token.Lexical : Token → Prop
  | ident n => IsName n
  | int n => 0 ≤ n.toInt
  | _ => True

theorem lexical_wordToken {c : Char} {r : List Char} (hc : isNameStart c = true)
    (hr : ∀ d ∈ r, isNameChar d = true) :
    (wordToken (c :: r)).Lexical := by
  have hname : isIdentifier (String.ofList (c :: r)) = true := by
    rw [isIdentifier, String.toList_ofList, Bool.and_eq_true, List.all_eq_true]
    exact ⟨hc, hr⟩
  unfold wordToken
  split
  · trivial
  · split
    · trivial
    · split
      · trivial
      · next htrue hfalse hnull =>
        refine ⟨hname, ?_⟩
        simp only [List.mem_cons, List.not_mem_nil, or_false, not_or, ← String.toList_inj,
          String.toList_ofList]
        exact ⟨htrue, hfalse, hnull⟩

theorem lexical_ofToken? {n k : Nat} {t? : Option Token} {t : Token} (h : ∀ t ∈ t?, t.Lexical)
    (ht : Munch.ofToken? n t? = ⟨k, .token t⟩) : t.Lexical := by
  cases t? with
  | none => cases ht
  | some u =>
    cases ht
    exact h t rfl

theorem lexical_intToken? (ds : List Char) : ∀ t ∈ intToken? ds, t.Lexical := by
  intro t ht
  unfold intToken? at ht
  split at ht
  · next hlt =>
    cases ht
    have hlt : digitsValue ds < 2 ^ 63 := hlt
    simp only [Token.Lexical]
    rw [Int64.toInt_ofNat_of_lt hlt]
    omega
  · cases ht

theorem lexical_munchNumber {c : Char} {r : List Char} {k : Nat} {t : Token}
    (h : munchNumber c r = ⟨k, .token t⟩) : t.Lexical := by
  unfold munchNumber at h
  have hfloat (whole fraction : List Char) (e : Int) :
      ∀ t ∈ floatToken? whole fraction e, t.Lexical := by
    intro t ht
    unfold floatToken? at ht
    dsimp only at ht
    split at ht
    · cases ht
      trivial
    · cases ht
  dsimp only at h
  split at h
  · split at h
    · exact lexical_ofToken? (lexical_intToken? _) h
    · exact lexical_ofToken? (hfloat _ _ _) h
  · exact lexical_ofToken? (lexical_intToken? _) h

/-- Every token that is matched is one of the lexer's. -/
theorem lexical_munch {c : Char} {r : List Char} {k : Nat} {t : Token}
    (h : munch c r = ⟨k, .token t⟩) :
    t.Lexical := by
  have hparam (ds : List Char) : ∀ t ∈ paramToken? ds, t.Lexical := by
    intro t ht
    unfold paramToken? at ht
    split at ht <;> cases ht
    trivial
  have hstr (body : List Char) :
      ∀ t ∈ (unescape? body).map (Token.str ∘ String.ofList), t.Lexical := by
    intro t ht
    obtain ⟨cs, -, rfl⟩ := Option.map_eq_some_iff.1 ht
    trivial
  unfold munch at h
  split at h
  · cases h
  · split at h
    · next hc =>
      cases h
      exact lexical_wordToken hc (List.all_eq_true.1 List.all_takeWhile)
    · split at h
      · exact lexical_munchNumber h
      · split at h
        · dsimp only at h
          split at h
          · cases h
          · exact lexical_ofToken? (hparam _) h
        · split at h
          · unfold munchString at h
            split at h
            · exact lexical_ofToken? (hstr _) h
            · cases h
          · split at h <;> cases h
            trivial

theorem lexical_of_mem_lexemesFrom {offset : Nat} {cs : List Char} {p : PlacedToken}
    (h : p ∈ (lexemesFrom offset cs).filterMap Lexeme.token?) : p.token.Lexical := by
  fun_induction lexemesFrom offset cs with
  | case1 offset => cases h
  | case2 offset c r m text ih =>
    rw [List.filterMap_cons] at h
    split at h
    · exact ih h
    · next q hq =>
      rcases List.mem_cons.1 h with rfl | h
      · unfold Lexeme.token? at hq
        split at hq
        · next t ht =>
          cases hq
          exact lexical_munch (k := m.extra) (by rw [← ht])
        · cases hq
      · exact ih h

theorem lexical_of_mem_lex {source : String} {p : PlacedToken} (h : p ∈ (lex source).tokens) :
    p.token.Lexical :=
  lexical_of_mem_lexemesFrom h

/-! ### Parsed expressions -/

/-- The leaves of an expression that was parsed are tokens of its source. -/
theorem ParsesTo.leaves_mem {source : String} {e : Expr} (h : ParsesTo source e) :
    e.Leaves (· ∈ Parser.tokens (lex source).tokens) := by
  unfold ParsesTo Expr.parse at h
  dsimp only at h
  split at h
  · next e' he' =>
    obtain rfl : e' = e := Option.some.inj (congrArg Parsed.expr h)
    have hs : Sentence (Parser.tokens (lex source).tokens) e'.withoutSpans :=
      Parser.sentence_of_ofTokens he'
    exact Expr.leaves_withoutSpans.1 hs.leaves
  · cases congrArg Parsed.expr h

theorem ParsesTo.leaves {source : String} {e : Expr} (h : ParsesTo source e) :
    e.Leaves Token.Lexical := by
  refine h.leaves_mem.imp fun t ht => ?_
  obtain ⟨p, hp, rfl⟩ := List.mem_map.1 ht
  exact lexical_of_mem_lex hp

end Dataflow
