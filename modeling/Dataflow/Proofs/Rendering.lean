import Dataflow.Proofs.Tokens

/-!
# Reading what was rendered

A rendered expression is parsed back to the same tree (`parse_render`), as long as its leaves are
read as they are written and strict equality does not occur in it. Then the text is cut into the
tokens of the expression again (`lexes_render`), and they are a phrase with the expression as its
tree.
-/

namespace Dataflow

open Grammar

/-! ### Expressions that can be read back -/

/-- A name of the expression language that is no keyword. -/
def IsName (s : String) : Prop := isIdentifier s = true ∧ s ∉ ["true", "false", "null"]

/-- A double is written as digits, a point and digits, and this text is read as the same double. -/
def Binary64.Readable (x : Binary64) : Prop :=
  (∃ whole fraction : List Char, whole ≠ [] ∧ fraction ≠ [] ∧ (∀ c ∈ whole, c.isDigit = true) ∧
    (∀ c ∈ fraction, c.isDigit = true) ∧ x.literalText.toList = whole ++ '.' :: fraction) ∧
  (lex x.literalText).tokens.map PlacedToken.token = [.float x]

/-- The text of a literal is read as the same literal: an integer has no sign, and every control
character of a text has an escape. -/
def Literal.Readable : Literal → Prop
  | int n => 0 ≤ n.toInt
  | float x => x.Readable
  | str s => ∀ c ∈ s.toList, Escapable c
  | bool _ | null => True

namespace Expr

mutual

/-- An expression over `n` parameters whose leaves are read back, without the two operators that are
written in another way than they are read. -/
def Readable (n : Nat) : Expr → Prop
  | literal _ v => v.Readable
  | param _ i => i.toNat < n
  | ident _ name => IsName name
  | tuple _ items => AllReadable n items
  | index _ b i => b.Readable n ∧ i.Readable n
  | field _ b name => b.Readable n ∧ IsName name
  | call _ f args => f.Readable n ∧ AllReadable n args
  | unary _ _ e => e.Readable n
  | binary _ op l r => op ≠ .equal ∧ op ≠ .notEqual ∧ l.Readable n ∧ r.Readable n

/-- Every expression of a list is read back. -/
def AllReadable (n : Nat) : List Expr → Prop
  | [] => True
  | e :: es => e.Readable n ∧ AllReadable n es

end

/-- Parameters that are named as the expression language writes them. -/
def numberedParams (n : Nat) : List String := (List.range n).map fun i => "$" ++ toString i

end Expr

/-! ### Texts of single lexemes -/

/-- `Munched cs k`: the text `cs` is an operand of one lexeme, which has the kind `k`. -/
def Munched (cs : List Char) (k : LexemeKind) : Prop :=
  ∃ c r, cs = c :: r ∧ isBlank c = false ∧ c ≠ '=' ∧ ∀ rest, Boundary rest →
  munch c (r ++ rest) = ⟨r.length, k⟩

namespace Munched

theorem int {n : Int64} (hn : 0 ≤ n.toInt) :
    Munched (toString n.toInt).toList (.token (.int n)) := by
  obtain ⟨k, hk⟩ := Int.eq_ofNat_of_zero_le hn
  obtain ⟨c, r, hcr, hc, hr, hv⟩ := exists_digits k
  have hlt : k < 2 ^ 63 := by
    have := n.toInt_lt
    omega
  have hof : Int64.ofNat k = n := by
    rw [← Int64.ofInt_eq_ofNat, ← hk, Int64.ofInt_toInt]
  have ht : intToken? (c :: r) = some (.int n) := by
    simp only [intToken?, hv, Nat.pow_eq, hlt, if_true, hof]
  have hs : toString n.toInt = toString k := by
    rw [hk]
    rfl
  rw [hs, hcr]
  exact ⟨c, r, rfl, isBlank_of_isDigit hc, ne_equals_of (by decide) hc, fun rest hb =>
    munch_int hc hr hb ht⟩

theorem float {x : Binary64} (hx : x.Readable) :
    Munched x.literalText.toList (.token (.float x)) := by
  obtain ⟨⟨whole, fraction, hne, hne', hw, hf, htext⟩, hlex⟩ := hx
  cases whole with
  | nil => exact absurd rfl hne
  | cons c r =>
    obtain ⟨hc, hr⟩ : c.isDigit = true ∧ ∀ d ∈ r, d.isDigit = true := by simpa using hw
    -- the value is known only through reading the whole text, where nothing follows it
    have ht : floatToken? (c :: r) fraction 0 = some (.float x) := by
      have hm := munch_float hc hr hf hne' boundary_nil
      rw [List.append_nil] at hm
      have hl := tokens_lex_of_munch htext hm
      cases ht : floatToken? (c :: r) fraction 0 <;> simp_all
    rw [htext]
    refine ⟨c, _, rfl, isBlank_of_isDigit hc, ne_equals_of (by decide) hc, fun rest hb => ?_⟩
    have hm := munch_float hc hr hf hne' hb
    rwa [ht] at hm

theorem str {s : String} (hs : ∀ c ∈ s.toList, Escapable c) :
    Munched (Script.quote s).toList (.token (.str s)) := by
  have hq : (Script.quote s).toList = '"' :: (s.toList.flatMap Script.quoteChar ++ ['"']) := by
    simp [Script.quote]
  rw [hq]
  exact ⟨_, _, rfl, by decide, by decide, fun rest _ => munch_quote hs⟩

theorem param (i : UInt32) : Munched ("$" ++ toString i.toNat).toList (.token (.param i)) := by
  obtain ⟨c, r, hcr, hc, hr, hv⟩ := exists_digits i.toNat
  have ht : paramToken? (c :: r) = some (.param i) := by
    simp only [paramToken?, hv, i.toNat_lt_size, if_true, UInt32.ofNat_toNat]
  have hd : ∀ d ∈ c :: r, d.isDigit = true := by
    simpa using And.intro hc hr
  have hs : ("$" ++ toString i.toNat).toList = '$' :: c :: r := by
    rw [String.toList_append, hcr]
    rfl
  rw [hs]
  exact ⟨_, _, rfl, by decide, by decide, fun rest hb =>
    munch_param hd (List.cons_ne_nil c r) hb ht⟩

theorem word {c : Char} {r : List Char} (hc : isNameStart c = true)
    (hr : ∀ d ∈ r, isNameChar d = true) :
    Munched (c :: r) (.token (wordToken (c :: r))) :=
  ⟨c, r, rfl, isBlank_of_isNameStart hc, ne_equals_of (by decide) hc, fun _ hb =>
    munch_word hc hr hb⟩

theorem ident {s : String} (hs : IsName s) : Munched s.toList (.token (.ident s)) := by
  obtain ⟨c, r, hcr, hc, hr⟩ := exists_cons_of_isIdentifier hs.1
  have hw : wordToken s.toList = .ident s := by
    have hkey := hs.2
    simp only [List.mem_cons, List.not_mem_nil, or_false, not_or] at hkey
    simp only [wordToken, String.toList_inj, hkey, if_false, String.ofList_toList]
  rw [← hw, hcr]
  exact word hc hr

theorem bool (b : Bool) : Munched (Literal.bool b).render.toList (.token (.bool b)) := by
  cases b with
  | false =>
    exact word (c := 'f') (r := ['a', 'l', 's', 'e']) (by decide) (List.all_eq_true.1 (by decide))
  | true =>
    exact word (c := 't') (r := ['r', 'u', 'e']) (by decide) (List.all_eq_true.1 (by decide))

theorem null : Munched Literal.null.render.toList (.token .null) :=
  word (c := 'n') (r := ['u', 'l', 'l']) (by decide) (List.all_eq_true.1 (by decide))

theorem starts {cs : List Char} {k : LexemeKind} (h : Munched cs k) : Starts cs := by
  obtain ⟨c, r, rfl, hb, he, -⟩ := h
  exact ⟨c, rfl, hb, he⟩

/-- A text of one token is taken off the front. -/
theorem lexes {cs rest : List Char} {t : Token} {us : List Token} (h : Munched cs (.token t))
    (hb : Boundary rest) (hl : Lexes rest us) : Lexes (cs ++ rest) (t :: us) := by
  obtain ⟨c, r, rfl, -, -, hm⟩ := h
  exact hl.token_append (hm rest hb)

end Munched

/-! ### Reading the tokens -/

variable {n : Nat}

/-- The text of a token is read as the same token. -/
def Token.Readable (n : Nat) : Token → Prop
  | symbol s => s ≠ .equal ∧ s ≠ .notEqual
  | param i => i.toNat < n
  | ident s => IsName s
  | int k => (Literal.int k).Readable
  | float x => (Literal.float x).Readable
  | str s => (Literal.str s).Readable
  | bool _ | null => True

namespace Token.Readable

variable {t : Token}

theorem munched (h : t.Readable n) (hs : ∀ s, t ≠ .symbol s) :
    Munched (t.target (Expr.numberedParams n)).toList (.token t) := by
  cases t with
  | symbol s => exact absurd rfl (hs s)
  | param i =>
    have hi : i.toNat < n := h
    have htarget : (Token.param i).target (Expr.numberedParams n) = "$" ++ toString i.toNat := by
      simp [Token.target, Expr.numberedParams, hi]
    rw [htarget]
    exact .param i
  | ident s => exact .ident h
  | int k => exact .int h
  | float x => exact .float h
  | str s => exact .str h
  | bool b => exact .bool b
  | null => exact .null

theorem solid (h : t.Readable n) : t.Solid (Expr.numberedParams n) := by
  cases t with
  | symbol s => trivial
  | ident s => exact h.1
  | param | int | float | str | bool | null => exact (h.munched (by simp)).starts

/-- A token is taken off the front of a text. -/
theorem lexes {rest : List Char} {us : List Token} (h : t.Readable n) (hb : t.EndsBefore rest)
    (hl : Lexes rest us) :
    Lexes ((t.target (Expr.numberedParams n)).toList ++ rest) (t :: us) := by
  cases t with
  | symbol s =>
    obtain ⟨h1, h2⟩ := h
    rw [Token.target_symbol h1 h2]
    exact hl.symbol s fun he => hb (.inl he)
  | param | ident | int | float | str | bool | null => exact (h.munched (by simp)).lexes hb hl

end Token.Readable

/-- Tokens that are read back are read from the text that consists of them. -/
theorem Spaced.lexes {cs : List Char} {ts : List Token}
    (h : Spaced (Expr.numberedParams n) [] cs ts) (hts : ∀ t ∈ ts, t.Readable n) : Lexes cs ts := by
  induction h with
  | nil => exact .nil
  | space hhead _ ih => exact (ih hts).space hhead
  | token t hb _ ih =>
    obtain ⟨ht, hts⟩ := List.forall_mem_cons.1 hts
    exact ht.lexes hb (ih hts)

namespace Expr

theorem readable_groupTokens {needed : Bool} {ts : List Token} :
    (∀ t ∈ groupTokens needed ts, t.Readable n) ↔ ∀ t ∈ ts, t.Readable n :=
  forall_mem_groupTokens (by simp [Token.Readable]) (by simp [Token.Readable])

mutual

/-- The tokens of an expression that can be read back are read back. -/
theorem readable_tokens : (e : Expr) → e.Readable n → ∀ t ∈ e.tokens, t.Readable n
  | literal _ v, h => by
    rw [Readable] at h
    rw [tokens, List.forall_mem_singleton]
    cases v <;> exact h
  | param _ i, h => by
    rw [Readable] at h
    rw [tokens, List.forall_mem_singleton]
    exact h
  | ident _ s, h => by
    rw [Readable] at h
    rw [tokens, List.forall_mem_singleton]
    exact h
  | tuple _ items, h => by
    rw [Readable] at h
    have hi := readable_itemTokens items h
    simp only [tokens, List.forall_mem_append, List.forall_mem_cons]
    exact ⟨⟨(by simp [Token.Readable]), hi⟩, (by simp [Token.Readable]), List.forall_mem_nil _⟩
  | index _ b i, h => by
    rw [Readable] at h
    have hb := readable_tokens b h.1
    have hi := readable_tokens i h.2
    simp only [tokens, List.forall_mem_append, List.forall_mem_cons]
    exact ⟨⟨readable_groupTokens.2 hb, (by simp [Token.Readable]), hi⟩, (by simp [Token.Readable]),
      List.forall_mem_nil _⟩
  | field _ b s, h => by
    rw [Readable] at h
    have hb := readable_tokens b h.1
    simp only [tokens, List.forall_mem_append, List.forall_mem_cons]
    exact ⟨readable_groupTokens.2 hb, (by simp [Token.Readable]), h.2, List.forall_mem_nil _⟩
  | call _ f args, h => by
    rw [Readable] at h
    have hf := readable_tokens f h.1
    have ha := readable_itemTokens args h.2
    simp only [tokens, List.forall_mem_append, List.forall_mem_cons]
    exact ⟨⟨readable_groupTokens.2 hf, (by simp [Token.Readable]), ha⟩, (by simp [Token.Readable]),
      List.forall_mem_nil _⟩
  | unary _ op e, h => by
    rw [Readable] at h
    have he := readable_tokens e h
    simp only [tokens, List.forall_mem_cons]
    exact ⟨by cases op <;> simp [Token.Readable, UnaryOp.symbol], readable_groupTokens.2 he⟩
  | binary _ op l r, h => by
    rw [Readable] at h
    obtain ⟨h1, h2, hl, hr⟩ := h
    have hl := readable_tokens l hl
    have hr := readable_tokens r hr
    have hop : (Token.symbol op.symbol).Readable n := by
      cases op with
      | equal | notEqual => contradiction
      | _ => simp [Token.Readable, BinaryOp.symbol]
    simp only [tokens, List.forall_mem_append, List.forall_mem_cons]
    exact ⟨readable_groupTokens.2 hl, hop, readable_groupTokens.2 hr⟩

theorem readable_itemTokens :
    (es : List Expr) → AllReadable n es → ∀ t ∈ itemTokens es, t.Readable n
  | [], _ => by
    rw [itemTokens]
    exact List.forall_mem_nil _
  | [e], h => by
    rw [AllReadable] at h
    rw [itemTokens]
    exact readable_tokens e h.1
  | e :: f :: es, h => by
    rw [AllReadable] at h
    have he := readable_tokens e h.1
    have hes := readable_itemTokens (f :: es) h.2
    simp only [itemTokens, List.forall_mem_append, List.forall_mem_cons]
    exact ⟨he, (by simp [Token.Readable]), hes⟩

end

/-- A rendered expression that can be read back is cut into its tokens. -/
theorem lexes_render {e : Expr} (h : e.Readable n) :
    Lexes (e.render (numberedParams n)).toList e.tokens := by
  have htokens := readable_tokens e h
  have hspaced :=
    (written_render e fun t ht => (htokens t ht).solid).fragment [] [] [] boundary_nil .nil
  rw [List.append_nil, List.append_nil] at hspaced
  exact hspaced.lexes htokens

end Expr

/-- **Rendering round trip.** A readable expression over `n` parameters, rendered with the
parameters named as they are written, is parsed without errors to the same tree, whatever its spans.
-/
theorem Expr.parse_render (n : Nat) (e : Expr) (h : e.Readable n) :
    (Expr.parse (e.render (numberedParams n))).errors = [] ∧
      ∃ e', (Expr.parse (e.render (numberedParams n))).expr = some e' ∧
      e'.withoutSpans = e.withoutSpans := by
  have hl : Lexes (e.render (numberedParams n)).toList e.tokens := lexes_render h
  obtain ⟨htokens, herrors⟩ := hl.lex
  have hs : Sentence (Parser.tokens (lex (e.render (numberedParams n))).tokens) e.withoutSpans := by
    rw [Parser.tokens, htokens]
    exact (derives_tokens e).loosen e.category.one_le_rank
  obtain ⟨e', he', hspans⟩ :=
    Parser.ofTokens_of_sentence hs (e.render (numberedParams n)).utf8ByteSize
  have hp : Expr.parse (e.render (numberedParams n)) = ⟨some e', []⟩ := by
    simp only [parse, he', herrors, List.map_nil]
  exact ⟨by rw [hp], e', by rw [hp], hspans⟩

theorem Expr.parse_render_nested :
    let x := Binary64.ofDecimal false 15 (-1)
    let e : Expr := .binary default .and
      (.unary default .not (.call default (.ident default "f")
        [.param default 1, .literal default (.str "a\n\"b\"")]))
      (.binary default .less
        (.field default
          (.index default (.tuple default [.literal default (.bool true), .literal default .null])
            (.literal default (.int 0))) "size")
        (.binary default .sub (.literal default (.float x)) (.binary default .sub
          (.field default (.literal default (.int 7)) "x")
          (.unary default .neg (.param default 0)))))
    e.Readable 2 ∧ (Expr.parse (e.render (numberedParams 2))).errors = [] ∧
      ∃ e', (Expr.parse (e.render (numberedParams 2))).expr = some e' ∧
      e'.withoutSpans = e.withoutSpans := by
  intro x e
  have hx : x.Readable :=
    ⟨⟨['1'], ['5'], by decide, by decide, List.all_eq_true.1 (by decide),
      List.all_eq_true.1 (by decide), by decide +kernel⟩, by decide +kernel⟩
  have he : e.Readable 2 := by
    simp [e, Expr.Readable, Expr.AllReadable, Literal.Readable, hx, IsName]
    decide
  exact ⟨he, Expr.parse_render 2 e he⟩

end Dataflow
