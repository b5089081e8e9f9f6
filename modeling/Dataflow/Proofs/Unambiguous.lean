import Dataflow.Proofs.Words

/-!
# Generated operators are unambiguous

Two maps with the same text have the same arity and the same function, and two joins with the same
text have the same keys and the same build side (`operators_unambiguous`). Only spans are lost.

* A function is known from its text, since the words of the text are those of its tokens, and the
  tokens are read as the function in one way only (`withoutSpans_eq_of_render_eq`).
* The arity is known from the head, which ends at its first closing parenthesis and has a dollar
  sign for each parameter (`eq_of_lambdaHead_append`).
* The second key of a join stands behind the first lone equals sign, which is the one of its arrow
  (`eq_of_join_text_eq`).
-/

namespace Dataflow

/-! ### Functions -/

/-- The tokens of an expression determine it up to spans. -/
theorem Expr.withoutSpans_eq_of_tokens_eq {e e' : Expr} (h : e.tokens = e'.tokens) :
    e.withoutSpans = e'.withoutSpans := by
  -- both are what the parser makes of these tokens, wherever they stand
  have hread (a : Expr) : ∃ a', Expr.ofTokens 0 (a.tokens.map (⟨·, default⟩)) = .ok a' ∧
      a'.withoutSpans = a.withoutSpans := by
    refine Parser.ofTokens_of_sentence ?_ 0
    rw [Parser.tokens, List.map_map]
    simpa [Function.comp_def] using a.derives_tokens.loosen (d := .expr) a.category.one_le_rank
  obtain ⟨a, ha, hspans⟩ := hread e
  obtain ⟨a', ha', hspans'⟩ := hread e'
  rw [h, ha'] at ha
  rw [← hspans, ← hspans', Except.ok.inj ha]

/-- A function of `n` parameters: an expression that was parsed, with its parameters in range. -/
structure Expr.IsFunction (n : Nat) (f : Expr) : Prop where
  parsed : ∃ source, ParsesTo source f
  inRange : ∀ s i, (param s i).Occurs f → i.toNat < n

/-- The doubles that occur in expressions. -/
def Expr.Floats (es : List Expr) (x : Binary64) : Prop :=
  ∃ e ∈ es, ∃ s, (literal s (.float x)).Occurs e

section Functions

variable {n : Nat} {F : Binary64 → Prop} {f g : Expr}

/-- A source without fault is a function if its parameters are in range. Doubles occur only if they
are in the source. -/
theorem Expr.exists_isFunction (source : String) {ts : List Token}
    (hok : (Expr.parse source).isOk = true) (hts : Parser.tokens (lex source).tokens = ts)
    (hparams : ∀ i, Token.param i ∈ ts → i.toNat < n) :
    ∃ f : Expr, (Expr.parse source).expr = some f ∧ f.IsFunction n ∧
      ∀ s x, (literal s (.float x)).Occurs f → Token.float x ∈ ts := by
  obtain ⟨f, hf⟩ := exists_parsesTo_iff.2 hok
  have hleaves := hts ▸ hf.leaves_mem
  refine ⟨f, congrArg Parsed.expr hf, ⟨⟨source, hf⟩, fun s i hi => hparams i ?_⟩, fun s x hx => ?_⟩
  · exact hleaves _ hi _ (List.mem_singleton_self _)
  · exact hleaves _ hx _ (List.mem_singleton_self _)

theorem Expr.IsFunction.writable (hn : 1 ≤ n) (hf : f.IsFunction n)
    (hfloats : ∀ s x, (literal s (.float x)).Occurs f → F x) : ∀ t ∈ f.tokens, t.Writable n F := by
  obtain ⟨source, hparsed⟩ := hf.parsed
  refine Leaves.of_mem_tokens (fun _ => trivial) fun a ha t ht => ?_
  have hlexical := hparsed.leaves a ha t ht
  cases a with
  | literal s v =>
    obtain rfl := List.mem_singleton.1 ht
    cases v with
    | float x => exact hfloats s x ha
    | int | str | bool | null => exact hlexical
  | param s i =>
    obtain rfl := List.mem_singleton.1 ht
    have hi := hf.inRange s i ha
    rwa [← length_names_mapParams hn] at hi
  | ident | field =>
    obtain rfl := List.mem_singleton.1 ht
    exact hlexical
  | tuple | index | call | unary | binary => cases ht

theorem Token.Writable.solid {t : Token} (h : t.Writable n F) : t.Solid (mapParams n).names := by
  have hlexical : t.Lexical := by
    cases t with
    | float | param => trivial
    | symbol | ident | str | int | bool | null => exact h
  refine hlexical.solid fun i hi => ?_
  subst hi
  exact h

theorem Fragment.cut (hF : Binary64.Distinct F) {cs rest : List Char} {ts : List Token}
    (h : Fragment (mapParams n).names cs ts) (hts : ∀ t ∈ ts, t.Writable n F) (hb : Boundary rest) :
    cut (cs ++ rest) = ts.flatMap (Token.words (mapParams n).names) ++ Dataflow.cut rest := by
  have hspaced := h rest rest [] hb .nil
  rw [List.append_nil] at hspaced
  exact hspaced.cut_eq hF hts

/-- The text of a function is an operand with its tokens. -/
theorem written_function (hf : ∀ t ∈ f.tokens, t.Writable n F) :
    Written (mapParams n).names (f.render (mapParams n).names).toList f.tokens :=
  f.written_render fun t ht => (hf t ht).solid

/-- The text of a function behind a given head determines it up to spans. -/
theorem withoutSpans_eq_of_render_eq (hF : Binary64.Distinct F)
    (hf : ∀ t ∈ f.tokens, t.Writable n F) (hg : ∀ t ∈ g.tokens, t.Writable n F)
    (h : f.render (mapParams n).names = g.render (mapParams n).names) :
    f.withoutSpans = g.withoutSpans := by
  have hwords := (written_function hf).fragment.cut hF hf boundary_nil
  rw [h, (written_function hg).fragment.cut hF hg boundary_nil] at hwords
  -- a lone equals sign marks the end of the tokens
  have hend := congrArg (· ++ [['=']]) (List.append_cancel_right hwords)
  exact Expr.withoutSpans_eq_of_tokens_eq (eq_of_flatMap_words hF hf hg hend.symm).1

end Functions

/-! ### Heads -/

section Heads

variable {n : Nat}

theorem count_intercalate {c : Char} {sep : List Char} {k : Nat} (hsep : sep.count c = 0)
    {ls : List (List Char)} (h : ∀ l ∈ ls, l.count c = k) :
    (sep.intercalate ls).count c = ls.length * k := by
  induction ls with
  | nil => simp
  | cons l ls ih =>
    obtain ⟨hl, hls⟩ := List.forall_mem_cons.1 h
    cases ls with
    | nil => simp [hl]
    | cons m ls =>
      have ih := ih hls
      have hmul : (l :: m :: ls).length * k = (m :: ls).length * k + k := Nat.succ_mul ..
      rw [List.intercalate_cons_cons, List.count_append, List.count_append]
      omega

theorem count_eq_zero_of_isNameChar {c : Char} (hc : isNameChar c = false) {cs : List Char}
    (h : ∀ d ∈ cs, isNameChar d = true) : cs.count c = 0 := by
  refine List.count_eq_zero.2 fun hmem => ?_
  simp [h c hmem] at hc

/-- Bound names have one dollar sign each and no parenthesis. -/
theorem count_name {name : String} (h : name ∈ (mapParams n).names) :
    name.toList.count '$' = 1 ∧ name.toList.count ')' = 0 := by
  obtain ⟨c, r, hcr, hc, hr⟩ := exists_of_mem_names h
  have hstart : isNameChar c = true := by
    simp only [isNameStart, Bool.or_eq_true] at hc
    rcases hc with hc | hc <;> simp [isNameChar, Char.isAlphanum, hc]
  have hname : ∀ d ∈ c :: r, isNameChar d = true := List.forall_mem_cons.2 ⟨hstart, hr⟩
  have hdollar : (c :: r).count '$' = 0 := count_eq_zero_of_isNameChar (by decide) hname
  have hparen : (c :: r).count ')' = 0 := count_eq_zero_of_isNameChar (by decide) hname
  rw [hcr]
  exact ⟨List.count_cons_self.trans (congrArg _ hdollar),
    (List.count_cons_of_ne (by decide)).trans hparen⟩

/-- The head of a function ends at its first closing parenthesis, and has as many dollar signs as
parameters. -/
theorem exists_head (hn : 1 ≤ n) :
    ∃ inner, (Script.lambdaHead (mapParams n)).toList = inner ++ [')'] ∧
    inner.count ')' = 0 ∧ inner.count '$' = n := by
  have hdollar : (", ".intercalate (mapParams n).names).toList.count '$' = n := by
    rw [String.toList_intercalate, count_intercalate (k := 1) (by decide), List.length_map,
      length_names_mapParams hn, Nat.mul_one]
    exact List.forall_mem_map.2 fun name h => (count_name h).1
  have hparen : (", ".intercalate (mapParams n).names).toList.count ')' = 0 := by
    rw [String.toList_intercalate, count_intercalate (k := 0) (by decide), Nat.mul_zero]
    exact List.forall_mem_map.2 fun name h => (count_name h).2
  cases h : mapParams n with
  | named ns =>
    rw [h, Params.names] at hdollar hparen
    refine ⟨'(' :: (", ".intercalate ns).toList, by simp [Script.lambdaHead], ?_, ?_⟩
    · simpa using hparen
    · simpa using hdollar
  | destructured ns =>
    rw [h, Params.names] at hdollar hparen
    refine ⟨'(' :: '[' :: (", ".intercalate ns).toList ++ [']'], by simp [Script.lambdaHead], ?_,
      ?_⟩
    · simpa using hparen
    · simpa using hdollar

/-- The arity is known from the head, whatever follows it. -/
theorem eq_of_lambdaHead_append {n' : Nat} (hn : 1 ≤ n) (hn' : 1 ≤ n') {rest rest' : List Char}
    (h : (Script.lambdaHead (mapParams n)).toList ++ rest =
      (Script.lambdaHead (mapParams n')).toList ++ rest') :
    n = n' := by
  have hinner {inner tail : List Char} (hparen : inner.count ')' = 0) :
      (inner ++ [')'] ++ tail).takeWhile (· ≠ ')') = inner := by
    rw [List.append_assoc]
    refine takeWhile_append_of_head (fun c hc => ?_) (by simp)
    have hmem := List.count_eq_zero.1 hparen
    exact decide_eq_true fun hparen => hmem (hparen ▸ hc)
  obtain ⟨inner, hhead, hparen, hcount⟩ := exists_head hn
  obtain ⟨inner', hhead', hparen', hcount'⟩ := exists_head hn'
  -- what stands before the first parenthesis is the same in both
  have hfront := congrArg (List.takeWhile (· ≠ ')')) h
  rw [hhead, hhead', hinner hparen, hinner hparen'] at hfront
  rw [← hcount, ← hcount', hfront]

end Heads

/-! ### Operators -/

section Operators

open Script

variable {F : Binary64 → Prop} {b p : Expr}

/-- The tokens between the keys of a join, up to the arrow. -/
def headTokens : List Token := [.symbol .comma, .symbol .leftParen, .param 0, .symbol .rightParen]

/-- The tokens behind the keys of a join. -/
def sideTokens (left : Bool) : List Token :=
  [.symbol .comma, .str (sideText left), .symbol .rightParen]

theorem writable_append_headTokens (h : ∀ t ∈ b.tokens, t.Writable 1 F) :
    ∀ t ∈ b.tokens ++ headTokens, t.Writable 1 F := by
  have hzero : (0 : UInt32).toNat < (mapParams 1).names.length := by decide
  simp only [headTokens, List.forall_mem_append, List.forall_mem_cons]
  exact ⟨h, trivial, trivial, hzero, trivial, List.forall_mem_nil _⟩

theorem writable_append_sideTokens (h : ∀ t ∈ p.tokens, t.Writable 1 F) (left : Bool) :
    ∀ t ∈ p.tokens ++ sideTokens left, t.Writable 1 F := by
  simp only [sideTokens, List.forall_mem_append, List.forall_mem_cons]
  exact ⟨h, trivial, trivial, trivial, List.forall_mem_nil _⟩

theorem fragment_head : Fragment (mapParams 1).names [',', ' ', '(', '$', 't', ')'] headTokens := by
  have hname : Written (mapParams 1).names ['$', 't'] [.param 0] :=
    Written.param (i := 0) ⟨'$', rfl, by decide⟩
  have hparens : Written (mapParams 1).names ['(', '$', 't', ')'] _ :=
    ⟨⟨'(', rfl, by decide⟩, hname.fragment.parens⟩
  exact hparens.space_cons.symbol_cons (s := .comma) rfl (by simp [Symbol.Extends])

theorem fragment_side (left : Bool) :
    Fragment (mapParams 1).names (',' :: ' ' :: ((quote (sideText left)).toList ++ [')']))
    (sideTokens left) := by
  have hquote : Written (mapParams 1).names (quote (sideText left)).toList [.str (sideText left)] :=
    Written.literal (v := .str (sideText left))
      ⟨'"', by simp [Token.target, Literal.token, Literal.render, quote], by decide⟩
  have hclose : Fragment (mapParams 1).names [')'] _ :=
    Fragment.nil.symbol_cons (s := .rightParen) rfl (by simp [Symbol.Extends])
  have hparen := hquote.append hclose fun rest _ => boundary_cons (by decide) (by decide) rest
  exact hparen.space_cons.symbol_cons (s := .comma) rfl (by simp [Symbol.Extends])

/-- The arrow is cut in two. -/
theorem cut_arrow {rest : List Char} (h : Starts rest) :
    cut (' ' :: '=' :: '>' :: ' ' :: rest) = ['='] :: ['>'] :: cut rest := by
  have hgreater : cut ('>' :: ' ' :: rest) = ['>'] :: cut (' ' :: rest) :=
    cut_symbol .greater (by simp)
  rw [cut_space (by simp [isBlank]), cut_equals (by simp), hgreater, cut_space fun c hc =>
    (h.head c hc).1]

/-- The words of a join behind the head of its first key. -/
theorem cut_join (hF : Binary64.Distinct F) (hb : ∀ t ∈ b.tokens, t.Writable 1 F)
    (hp : ∀ t ∈ p.tokens, t.Writable 1 F) (left : Bool) :
    cut
      (b.render keyParams.names ++ ", " ++ functionText keyParams p ++ ", " ++
        quote (sideText left) ++ ")").toList =
      (b.tokens ++ headTokens).flatMap (Token.words (mapParams 1).names) ++ ['='] :: ['>'] ::
        (p.tokens ++ sideTokens left).flatMap (Token.words (mapParams 1).names) := by
  have hfront :=
    (written_function hb).append fragment_head fun rest _ => boundary_cons (by decide) (by decide) _
  have hback := (written_function hp).append (fragment_side left)
    fun rest _ => boundary_cons (by decide) (by decide) _
  have htext :
      (b.render keyParams.names ++ ", " ++ functionText keyParams p ++ ", " ++
        quote (sideText left) ++ ")").toList =
      (b.render (mapParams 1).names).toList ++ [',', ' ', '(', '$', 't', ')'] ++
        ' ' :: '=' :: '>' :: ' ' :: ((p.render (mapParams 1).names).toList ++
          ',' :: ' ' :: ((quote (sideText left)).toList ++ [')']) ++ []) := by
    have hhead : lambdaHead keyParams = "($t)" := by decide
    have hnames : keyParams.names = (mapParams 1).names := rfl
    simp [functionText, hhead, hnames]
  rw [htext,
    hfront.fragment.cut hF (writable_append_headTokens hb)
      (boundary_cons (by decide) (by decide) _),
    cut_arrow (hback.head.append []),
    hback.fragment.cut hF (writable_append_sideTokens hp left) boundary_nil, cut_nil,
    List.append_nil]

theorem eq_of_map_text_eq {f f' : Expr} {n n' : Nat} (hn : 1 ≤ n) (hn' : 1 ≤ n')
    (h : (OperatorEntry.map f n).text = (OperatorEntry.map f' n').text) :
    n = n' ∧ f.render (mapParams n).names = f'.render (mapParams n').names := by
  have hfunction : functionText (mapParams n) f = functionText (mapParams n') f' :=
    (String.append_right_inj _).1 ((String.append_left_inj _).1 h)
  have hsplit (n : Nat) (f : Expr) : (functionText (mapParams n) f).toList =
      (lambdaHead (mapParams n)).toList ++ (" => " ++ f.render (mapParams n).names).toList := by
    rw [functionText, String.append_assoc, String.toList_append]
  have hchars := congrArg String.toList hfunction
  rw [hsplit, hsplit] at hchars
  obtain rfl := eq_of_lambdaHead_append hn hn' hchars
  exact ⟨rfl, (String.append_right_inj _).1 hfunction⟩

/-- The keys and the build side of a join are known from its text. -/
theorem eq_of_join_text_eq (hF : Binary64.Distinct F) {b' p' : Expr} {left left' : Bool}
    (hb : ∀ t ∈ b.tokens, t.Writable 1 F) (hp : ∀ t ∈ p.tokens, t.Writable 1 F)
    (hb' : ∀ t ∈ b'.tokens, t.Writable 1 F) (hp' : ∀ t ∈ p'.tokens, t.Writable 1 F)
    (h : (OperatorEntry.join b p left).text = (OperatorEntry.join b' p' left').text) :
    b.tokens = b'.tokens ∧ p.tokens = p'.tokens ∧ left = left' := by
  have hsplit (b p : Expr) (left : Bool) : (OperatorEntry.join b p left).text =
      "new runtime.HashEquiJoin(" ++ lambdaHead keyParams ++ " => " ++
        (b.render keyParams.names ++ ", " ++ functionText keyParams p ++ ", " ++
          quote (sideText left) ++ ")") := by
    have htext :
        (OperatorEntry.join b p left).text =
          "new runtime.HashEquiJoin(" ++ functionText keyParams b ++ ", " ++
            functionText keyParams p ++ ", " ++ quote (sideText left) ++ ")" := rfl
    have hkey :
        functionText keyParams b = lambdaHead keyParams ++ " => " ++ b.render keyParams.names := rfl
    rw [htext, hkey]
    simp only [String.append_assoc]
  rw [hsplit, hsplit, String.append_right_inj] at h
  have hwords := congrArg (fun text => cut text.toList) h
  simp only [cut_join hF hb hp, cut_join hF hb' hp'] at hwords
  -- the first lone equals sign is the one of the arrow
  obtain ⟨hfront, hback⟩ :=
    eq_of_flatMap_words hF (writable_append_headTokens hb) (writable_append_headTokens hb') hwords
  have hend := congrArg (· ++ [['=']]) (List.cons.inj hback).2
  obtain ⟨hback, -⟩ :=
    eq_of_flatMap_words hF (writable_append_sideTokens hp left)
      (writable_append_sideTokens hp' left') hend
  obtain ⟨hp, hside⟩ := List.append_inj' hback rfl
  have hleft : sideText left = sideText left' := by simpa [sideTokens] using hside
  refine ⟨List.append_cancel_right hfront, hp, ?_⟩
  revert hleft
  cases left <;> cases left' <;> decide

end Operators

/-- **Operators are unambiguous.** Maps with the same text have the same arity, and the same
function up to spans. Joins with the same text have the same keys up to spans, and the same build
side. -/
theorem operators_unambiguous :
    (∀ (f f' : Expr) (n n' : Nat), 1 ≤ n → 1 ≤ n' → f.IsFunction n → f'.IsFunction n' →
      Binary64.Distinct (Expr.Floats [f, f']) → (mapLayout f n).render = (mapLayout f' n').render →
      n = n' ∧ f.withoutSpans = f'.withoutSpans) ∧
    ∀ (b p b' p' : Expr) (left left' : Bool), (∀ key ∈ [b, p, b', p'], key.IsFunction 1) →
      Binary64.Distinct (Expr.Floats [b, p, b', p']) →
      (joinLayout b p left).render = (joinLayout b' p' left').render →
      b.withoutSpans = b'.withoutSpans ∧ p.withoutSpans = p'.withoutSpans ∧ left = left' := by
  constructor
  · intro f f' n n' hn hn' hf hf' hF h
    have htext : (OperatorEntry.map f n).text = (OperatorEntry.map f' n').text :=
      (spells_operator (.map f n)).render.symm.trans (h.trans (spells_operator (.map f' n')).render)
    obtain ⟨rfl, hrender⟩ := eq_of_map_text_eq hn hn' htext
    refine ⟨rfl, withoutSpans_eq_of_render_eq hF (hf.writable hn ?_) (hf'.writable hn ?_) hrender⟩
    · exact fun s x hx => ⟨f, by simp, s, hx⟩
    · exact fun s x hx => ⟨f', by simp, s, hx⟩
  · intro b p b' p' left left' hkeys hF h
    have htext : (OperatorEntry.join b p left).text = (OperatorEntry.join b' p' left').text :=
      (spells_operator (.join b p left)).render.symm.trans
        (h.trans (spells_operator (.join b' p' left')).render)
    have hw : ∀ key ∈ [b, p, b', p'], ∀ t ∈ key.tokens, t.Writable 1 (Expr.Floats [b, p, b', p']) :=
      fun key hkey => (hkeys key hkey).writable (Nat.le_refl 1) fun s x hx => ⟨key, hkey, s, hx⟩
    obtain ⟨hb, hp, hleft⟩ :=
      eq_of_join_text_eq hF (hw b (by simp)) (hw p (by simp)) (hw b' (by simp))
      (hw p' (by simp)) htext
    exact ⟨Expr.withoutSpans_eq_of_tokens_eq hb, Expr.withoutSpans_eq_of_tokens_eq hp, hleft⟩

theorem operators_unambiguous_spans :
    (∃ f f' : Expr, (Expr.parse "$1 == 1.5 || f(\"\x01\", !$0, 2.0e1)").expr = some f ∧
      (Expr.parse "$1==1.50||f( \"\x01\",! $0,20.0 )").expr = some f' ∧ f.IsFunction 2 ∧
      f'.IsFunction 2 ∧
      Binary64.Distinct (Expr.Floats [f, f']) ∧ (mapLayout f 2).render = (mapLayout f' 2).render ∧
      f.withoutSpans = f'.withoutSpans) ∧
    ∃ b p : Expr, (Expr.parse "$0 != 1.5").expr = some b ∧ (Expr.parse "$0!=1.50").expr = some p ∧
      (∀ key ∈ [b, p, p, b], key.IsFunction 1) ∧ Binary64.Distinct (Expr.Floats [b, p, p, b]) ∧
      (joinLayout b p true).render = (joinLayout p b true).render ∧
      b.withoutSpans = p.withoutSpans := by
  let x := Binary64.ofDecimal false 15 (-1)
  let y := Binary64.ofDecimal false 20 0
  have hdistinct {F : Binary64 → Prop} (hF : ∀ z, F z → z = x ∨ z = y) : Binary64.Distinct F := by
    have hx : x.Pointed := ⟨['1'], ['5'], by decide, by decide, List.all_eq_true.1 (by decide),
      List.all_eq_true.1 (by decide), by decide +kernel⟩
    have hy : y.Pointed := ⟨['2', '0'], ['0'], by decide, by decide, List.all_eq_true.1 (by decide),
      List.all_eq_true.1 (by decide), by decide +kernel⟩
    have hxy : x.literalText ≠ y.literalText := by decide +kernel
    refine ⟨fun z hz => ?_, fun z w hz hw h => ?_⟩
    · rcases hF z hz with rfl | rfl
      · exact hx
      · exact hy
    · rcases hF z hz with rfl | rfl <;> rcases hF w hw with rfl | rfl
      · rfl
      · exact absurd h hxy
      · exact absurd h.symm hxy
      · rfl
  constructor
  · let ts : List Token :=
      [.param 1, .symbol .equal, .float x, .symbol .or, .ident "f", .symbol .leftParen, .str "\x01",
        .symbol .comma, .symbol .bang, .param 0, .symbol .comma, .float y, .symbol .rightParen]
    have hparams : ∀ i, Token.param i ∈ ts → i.toNat < 2 := by simp [ts]
    obtain ⟨f, hf, hfun, hfloats⟩ := Expr.exists_isFunction "$1 == 1.5 || f(\"\x01\", !$0, 2.0e1)"
      (by decide +kernel) (show _ = ts by decide +kernel) hparams
    obtain ⟨f', hf', hfun', hfloats'⟩ := Expr.exists_isFunction "$1==1.50||f( \"\x01\",! $0,20.0 )"
      (by decide +kernel) (show _ = ts by decide +kernel) hparams
    have hrender : (some f).map (fun f => (mapLayout f 2).render) = (some f').map fun f =>
        (mapLayout f 2).render := by
      rw [← hf, ← hf']
      decide +kernel
    have hF : Binary64.Distinct (Expr.Floats [f, f']) := by
      refine hdistinct ?_
      rintro z ⟨e, he, s, hz⟩
      rcases List.mem_pair.1 he with rfl | rfl
      · simpa [ts] using hfloats s z hz
      · simpa [ts] using hfloats' s z hz
    have h :=
      operators_unambiguous.1 f f' 2 2 (by decide) (by decide) hfun hfun' hF
        (Option.some.inj hrender)
    exact ⟨f, f', hf, hf', hfun, hfun', hF, Option.some.inj hrender, h.2⟩
  · let ts : List Token := [.param 0, .symbol .notEqual, .float x]
    have hparams : ∀ i, Token.param i ∈ ts → i.toNat < 1 := by simp [ts]
    obtain ⟨b, hb, hbfun, hbfloats⟩ := Expr.exists_isFunction "$0 != 1.5"
      (by decide +kernel) (show _ = ts by decide +kernel) hparams
    obtain ⟨p, hp, hpfun, hpfloats⟩ := Expr.exists_isFunction "$0!=1.50"
      (by decide +kernel) (show _ = ts by decide +kernel) hparams
    have hrender : (some b).bind (fun b => (some p).map fun p => (joinLayout b p true).render) =
        (some b).bind fun b => (some p).map fun p => (joinLayout p b true).render := by
      rw [← hb, ← hp]
      decide +kernel
    have hkeys : ∀ key ∈ [b, p, p, b], key.IsFunction 1 := by simp [hbfun, hpfun]
    have hF : Binary64.Distinct (Expr.Floats [b, p, p, b]) := by
      refine hdistinct ?_
      rintro z ⟨e, he, s, hz⟩
      left
      obtain rfl | rfl : e = b ∨ e = p := by simpa [or_comm, or_left_comm] using he
      · simpa [ts] using hbfloats s z hz
      · simpa [ts] using hpfloats s z hz
    have h := operators_unambiguous.2 b p p b true true hkeys hF (Option.some.inj hrender)
    exact ⟨b, p, hb, hp, hkeys, hF, Option.some.inj hrender, h.1⟩

end Dataflow
