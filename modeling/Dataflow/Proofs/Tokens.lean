import Dataflow.Expr.Render
import Dataflow.Proofs.Lexing
import Dataflow.Proofs.Parsing

/-!
# The tokens of an expression

The tokens of an expression, parentheses included, stand between the expression and its text.

* `Expr.tokens` is a phrase of the grammar with the expression as its tree, since parentheses stand
  around every operand that is looser than its place allows (`derives_tokens`).
* The rendered text consists of exactly these tokens and of spaces, whatever the names of the
  parameters, and no token runs into what follows it (`written_render`).
-/

namespace Dataflow

open Grammar

/-! ### The tokens of an expression -/

/-- The symbol of an operator between operands. -/
def BinaryOp.symbol : BinaryOp → Symbol
  | mul => .star
  | div => .slash
  | rem => .percent
  | add => .plus
  | sub => .minus
  | less => .less
  | lessEqual => .lessEqual
  | greater => .greater
  | greaterEqual => .greaterEqual
  | equal => .equal
  | notEqual => .notEqual
  | and => .and
  | or => .or

/-- The tier of an operator. -/
def BinaryOp.tier : BinaryOp → Tier
  | mul | div | rem => .product
  | add | sub => .sum
  | less | lessEqual | greater | greaterEqual => .comparison
  | equal | notEqual => .equality
  | and => .conjunction
  | or => .disjunction

theorem BinaryOp.tier_has (op : BinaryOp) : op.tier.Has op.symbol op := by
  cases op <;> constructor

theorem BinaryOp.rank_tier (op : BinaryOp) : op.tier.rank = op.precedence := by
  cases op <;> rfl

/-- The symbol of a sign. -/
def UnaryOp.symbol : UnaryOp → Symbol
  | neg => .minus
  | not => .bang

theorem UnaryOp.sign (op : UnaryOp) : Sign op.symbol op := by
  cases op <;> constructor

/-- The token of a literal. -/
def Literal.token : Literal → Token
  | int n => .int n
  | float x => .float x
  | str s => .str s
  | bool b => .bool b
  | null => .null

theorem Literal.constant (v : Literal) : Constant v.token v := by
  cases v <;> constructor

namespace Expr

/-- Tokens with parentheses around them where they are needed. -/
def groupTokens (needed : Bool) (ts : List Token) : List Token :=
  if needed then .symbol .leftParen :: ts ++ [.symbol .rightParen] else ts

/-- Parentheses do not matter to what holds of them. -/
theorem forall_mem_groupTokens {P : Token → Prop} (hleft : P (.symbol .leftParen))
    (hright : P (.symbol .rightParen)) {needed : Bool} {ts : List Token} :
    (∀ t ∈ groupTokens needed ts, P t) ↔ ∀ t ∈ ts, P t := by
  cases needed with
  | false => rfl
  | true => simp [groupTokens, or_imp, forall_and, hleft, hright]

mutual

/-- The tokens that an expression is rendered with. -/
def tokens : Expr → List Token
  | literal _ v => [v.token]
  | param _ i => [.param i]
  | ident _ n => [.ident n]
  | tuple _ items => .symbol .leftBracket :: itemTokens items ++ [.symbol .rightBracket]
  | index _ b i =>
    groupTokens b.wrapsAsBase b.tokens ++ .symbol .leftBracket :: i.tokens ++
      [.symbol .rightBracket]
  | field _ b n => groupTokens b.wrapsAsBase b.tokens ++ [.symbol .dot, .ident n]
  | call _ f args =>
    groupTokens f.wrapsAsBase f.tokens ++ .symbol .leftParen :: itemTokens args ++
      [.symbol .rightParen]
  | unary _ op e => .symbol op.symbol :: groupTokens e.wrapsAsOperand e.tokens
  | binary _ op l r =>
    groupTokens (l.wrapsOnLeft op) l.tokens ++
      .symbol op.symbol :: groupTokens (r.wrapsOnRight op) r.tokens

/-- The tokens of expressions with commas between them. -/
def itemTokens : List Expr → List Token
  | [] => []
  | [e] => e.tokens
  | e :: es => e.tokens ++ .symbol .comma :: itemTokens es

end

/-- The tightest category that the tokens of an expression belong to. -/
def category : Expr → Category
  | binary _ op _ _ => .tier op.tier
  | unary .. => .signed
  | index .. | field .. | call .. => .suffixed
  | literal .. | param .. | ident .. | tuple .. => .atom

theorem suffixed_rank_le (e : Expr) (h : e.wrapsAsBase = false) :
    Category.suffixed.rank ≤ e.category.rank := by
  cases e with
  | binary | unary => cases h
  | literal | param | ident | tuple | index | field | call => simp [category, Category.rank]

theorem signed_rank_le (e : Expr) (h : e.wrapsAsOperand = false) :
    Category.signed.rank ≤ e.category.rank := by
  cases e with
  | binary | unary => cases h
  | literal | param | ident | tuple | index | field | call => simp [category, Category.rank]

theorem tier_rank_le (op : BinaryOp) (e : Expr) (h : e.wrapsOnLeft op = false) :
    op.tier.rank ≤ e.category.rank := by
  have := op.tier.rank_le
  cases e with
  | binary s o l r =>
    simp only [wrapsOnLeft, decide_eq_false_iff_not, Nat.not_lt] at h
    simpa only [category, Category.rank, BinaryOp.rank_tier] using h
  | literal | param | ident | tuple | index | field | call | unary =>
    simp only [category, Category.rank]
    omega

theorem operand_rank_le (op : BinaryOp) (e : Expr) (h : e.wrapsOnRight op = false) :
    op.tier.operand.rank ≤ e.category.rank := by
  have := op.tier.rank_le
  rw [Tier.rank_operand]
  cases e with
  | binary s o l r =>
    simp only [wrapsOnRight, decide_eq_false_iff_not, Nat.not_le] at h
    simpa only [category, Category.rank, BinaryOp.rank_tier] using Nat.succ_le_of_lt h
  | literal | param | ident | tuple | index | field | call | unary =>
    simp only [category, Category.rank]
    omega

end Expr

namespace Grammar

variable {ts : List Token} {e : Expr}

/-- Parentheses make a phrase of any category out of an expression; without them it has to be tight
enough. -/
theorem Derives.groupTokens {c d : Category} {needed : Bool} (h : Derives d ts e)
    (hr : needed = false → c.rank ≤ d.rank) : Derives c (Expr.groupTokens needed ts) e := by
  cases needed with
  | false => exact h.loosen (hr rfl)
  | true => exact (Derives.group (h.loosen d.one_le_rank)).loosen c.rank_le

/-- A sequence may be extended at its beginning too. -/
theorem Sequence.cons {us : List Token} {es : List Expr} (he : Derives .expr ts e)
    (h : Sequence us es) : Sequence (ts ++ .symbol .comma :: us) (e :: es) := by
  cases h with
  | one hf => exact .more (.one he) hf
  | more hs hf =>
    have ih := Sequence.cons he hs
    simpa using Sequence.more ih hf
termination_by es.length
decreasing_by simp

end Grammar

namespace Expr

theorem items_of_sequence {es : List Expr}
    (h : es ≠ [] → Sequence (itemTokens es) (withoutSpansAll es)) :
    Items (itemTokens es) (withoutSpansAll es) := by
  cases es with
  | nil => simpa only [itemTokens, withoutSpansAll] using Items.empty
  | cons e es => exact .plain (h (List.cons_ne_nil e es))

mutual

/-- The tokens of an expression are a phrase of the grammar with the expression as its tree. -/
theorem derives_tokens : (e : Expr) → Derives e.category e.tokens e.withoutSpans
  | literal _ v => by simpa only [tokens, withoutSpans, category] using Derives.literal v.constant
  | param _ i => by simpa only [tokens, withoutSpans, category] using Derives.param i
  | ident _ n => by simpa only [tokens, withoutSpans, category] using Derives.ident n
  | tuple _ items => by
    simpa only [tokens, withoutSpans, category]
      using Derives.tuple (items_of_sequence (derives_itemTokens items))
  | index _ b i => by
    have hb := (derives_tokens b).groupTokens (suffixed_rank_le b)
    have hi := (derives_tokens i).loosen (d := .expr) i.category.one_le_rank
    simpa only [tokens, withoutSpans, category] using Derives.index hb hi
  | field _ b n => by
    have hb := (derives_tokens b).groupTokens (suffixed_rank_le b)
    simpa only [tokens, withoutSpans, category] using Derives.field n hb
  | call _ f args => by
    have hf := (derives_tokens f).groupTokens (suffixed_rank_le f)
    simpa only [tokens, withoutSpans, category] using
      Derives.call hf (items_of_sequence (derives_itemTokens args))
  | unary _ op e => by
    have he := (derives_tokens e).groupTokens (signed_rank_le e)
    simpa only [tokens, withoutSpans, category] using Derives.unary op.sign he
  | binary _ op l r => by
    have hl := (derives_tokens l).groupTokens (c := .tier op.tier) (tier_rank_le op l)
    have hr := (derives_tokens r).groupTokens (operand_rank_le op r)
    simpa only [tokens, withoutSpans, category] using Derives.binary op.tier_has hl hr

theorem derives_itemTokens : (es : List Expr) → es ≠ [] →
    Sequence (itemTokens es) (withoutSpansAll es)
  | [], h => absurd rfl h
  | [e], _ => by
    have he := (derives_tokens e).loosen (d := .expr) e.category.one_le_rank
    simpa only [itemTokens, withoutSpansAll] using Sequence.one he
  | e :: f :: es, _ => by
    have he := (derives_tokens e).loosen (d := .expr) e.category.one_le_rank
    have hes := derives_itemTokens (f :: es) (List.cons_ne_nil f es)
    simpa only [itemTokens, withoutSpansAll] using Sequence.cons he hes

end

end Expr

/-! ### Operands in a text -/

/-- How a token is written in the target language; `names` are the names of the parameters. -/
def Token.target (names : List String) : Token → String
  | bool b => (Literal.bool b).render
  | null => Literal.null.render
  | int n => (Literal.int n).render
  | float x => (Literal.float x).render
  | str s => (Literal.str s).render
  | param i => names[i.toNat]?.getD "undefined"
  | ident n => n
  | symbol .equal => "==="
  | symbol .notEqual => "!=="
  | symbol s => s.text

/-- Nothing of the text behind a token can be taken for a part of it. -/
def Token.EndsBefore : Token → List Char → Prop
  | symbol s, rest => s.Extends ∨ s = .equal ∨ s = .notEqual → ∀ c ∈ rest.head?, c ≠ '='
  | _, rest => Boundary rest

/-- `Spaced names tail cs ts`: the text `cs` ends in `tail`, and before that it consists of the
tokens `ts`, as they are written in the target language, and of single spaces. No token runs into
what follows it. -/
inductive Spaced (names : List String) (tail : List Char) : List Char → List Token → Prop
  | nil : Spaced names tail tail []
  | space {cs : List Char} {ts : List Token} : (∀ c ∈ cs.head?, isBlank c = false) →
      Spaced names tail cs ts →
      Spaced names tail (' ' :: cs) ts
  | token {cs : List Char} {ts : List Token} (t : Token) : t.EndsBefore cs →
      Spaced names tail cs ts →
      Spaced names tail ((t.target names).toList ++ cs) (t :: ts)

/-- A text that runs into no blank or symbol before it. -/
def Starts (cs : List Char) : Prop := ∃ c ∈ cs.head?, isBlank c = false ∧ c ≠ '='

/-- A token that can stand behind every other; a name can stand behind a point too. -/
def Token.Solid (names : List String) : Token → Prop
  | symbol _ => True
  | ident n => isIdentifier n = true
  | t => Starts (t.target names).toList

/-- `Fragment names cs ts`: the text `cs` has the tokens `ts`, whatever boundary follows it. -/
def Fragment (names : List String) (cs : List Char) (ts : List Token) : Prop :=
  ∀ (tail rest : List Char) (us : List Token), Boundary rest → Spaced names tail rest us →
    Spaced names tail (cs ++ rest) (ts ++ us)

/-- `Written names cs ts`: the text `cs` is an operand with the tokens `ts`, whose first character
runs into nothing before it. -/
structure Written (names : List String) (cs : List Char) (ts : List Token) : Prop where
  head : Starts cs
  fragment : Fragment names cs ts

section Operands

variable {names : List String} {cs ds : List Char} {ts us : List Token}

/-- All symbols but two are written as they are read. -/
theorem Token.target_symbol {s : Symbol} (h1 : s ≠ .equal) (h2 : s ≠ .notEqual) :
    (symbol s).target names = s.text := by
  cases s with
  | equal | notEqual => contradiction
  | _ => rfl

theorem Starts.append (h : Starts cs) (rest : List Char) : Starts (cs ++ rest) := by
  obtain ⟨c, hc, hn⟩ := h
  exact ⟨c, by rw [List.head?_append, hc]; rfl, hn⟩

theorem Starts.head (h : Starts cs) : ∀ c ∈ cs.head?, isBlank c = false ∧ c ≠ '=' := by
  obtain ⟨c, hc, hn⟩ := h
  intro d hd
  rwa [Option.mem_unique hd hc]

theorem starts_of_isIdentifier {s : String} (h : isIdentifier s = true) : Starts s.toList := by
  obtain ⟨c, r, hcr, hc, -⟩ := exists_cons_of_isIdentifier h
  exact ⟨c, by rw [hcr]; rfl, isBlank_of_isNameStart hc, ne_equals_of (by decide) hc⟩

namespace Fragment

theorem nil : Fragment names [] [] := fun _ _ _ _ h => h

/-- A symbol of one character that no other symbol starts with. -/
theorem symbol_cons {c : Char} {s : Symbol} (h : Fragment names cs ts) (hs : s.text.toList = [c])
    (he : ¬(s.Extends ∨ s = .equal ∨ s = .notEqual)) :
    Fragment names (c :: cs) (.symbol s :: ts) := by
  intro tail rest us hb hl
  have hspaced := Spaced.token (.symbol s) (absurd · he) (h tail rest us hb hl)
  rwa [Token.target_symbol (fun h => he (.inr (.inl h))) (fun h => he (.inr (.inr h))),
    hs] at hspaced

theorem append (h : Fragment names cs ts) (hd : Fragment names ds us)
    (hb : ∀ rest, Boundary rest → Boundary (ds ++ rest)) :
    Fragment names (cs ++ ds) (ts ++ us) := by
  intro tail rest vs hrest hl
  simpa only [List.append_assoc] using h _ _ _ (hb rest hrest) (hd _ _ _ hrest hl)

theorem parens (h : Fragment names cs ts) :
    Fragment names ('(' :: cs ++ [')']) (.symbol .leftParen :: ts ++ [.symbol .rightParen]) :=
  have hclose : Fragment names [')'] _ :=
    nil.symbol_cons (s := .rightParen) rfl (by simp [Symbol.Extends])
  have hbody := h.append hclose fun rest _ => boundary_cons (by decide) (by decide) rest
  hbody.symbol_cons rfl (by simp [Symbol.Extends])

theorem brackets (h : Fragment names cs ts) :
    Fragment names ('[' :: cs ++ [']']) (.symbol .leftBracket :: ts ++ [.symbol .rightBracket]) :=
  have hclose : Fragment names [']'] _ :=
    nil.symbol_cons (s := .rightBracket) rfl (by simp [Symbol.Extends])
  have hbody := h.append hclose fun rest _ => boundary_cons (by decide) (by decide) rest
  hbody.symbol_cons rfl (by simp [Symbol.Extends])

end Fragment

namespace Written

theorem literal {v : Literal} (h : v.token.Solid names) :
    Written names v.render.toList [v.token] := by
  have ht : v.render = v.token.target names := by cases v <;> rfl
  rw [ht]
  cases v <;> exact ⟨h, fun _ _ _ hb hl => .token (Literal.token _) hb hl⟩

theorem param {i : UInt32} (h : (Token.param i).Solid names) :
    Written names (names[i.toNat]?.getD "undefined").toList [.param i] :=
  ⟨h, fun _ _ _ hb hl => .token (.param i) hb hl⟩

theorem ident {s : String} (h : (Token.ident s).Solid names) : Written names s.toList [.ident s] :=
  ⟨starts_of_isIdentifier h, fun _ _ _ hb hl => .token (.ident s) hb hl⟩

/-- What stands behind an operand leaves its first character as it is. -/
theorem append (h : Written names cs ts) (hd : Fragment names ds us)
    (hb : ∀ rest, Boundary rest → Boundary (ds ++ rest)) : Written names (cs ++ ds) (ts ++ us) :=
  ⟨h.head.append ds, h.fragment.append hd hb⟩

/-- A space before an operand is passed over. -/
theorem space_cons (h : Written names cs ts) : Fragment names (' ' :: cs) ts :=
  fun tail rest us hb hl =>
  .space (fun c hc => ((h.head.append rest).head c hc).1) (h.fragment tail rest us hb hl)

/-- A sign before an operand. -/
theorem sign (h : Written names cs ts) (op : UnaryOp) :
    Written names (op.targetSymbol.toList ++ cs) (.symbol op.symbol :: ts) where
  head := by cases op <;> exact ⟨_, rfl, by decide⟩
  fragment tail rest us hb hl := by
    have ht : op.targetSymbol = (Token.symbol op.symbol).target names := by cases op <;> rfl
    rw [ht, List.append_assoc]
    exact .token _ (fun _ c hc => ((h.head.append rest).head c hc).2)
      (h.fragment tail rest us hb hl)

/-- An operator with spaces around it, and its right operand. -/
theorem operator (h : Written names cs ts) (op : BinaryOp) :
    Fragment names (' ' :: op.targetSymbol.toList ++ ' ' :: cs) (.symbol op.symbol :: ts) := by
  intro tail rest us hb hl
  have ht : op.targetSymbol = (Token.symbol op.symbol).target names := by cases op <;> rfl
  have hs : ∀ c ∈ (op.targetSymbol.toList ++ (' ' :: cs ++ rest)).head?, isBlank c = false := by
    cases op <;> simp [BinaryOp.targetSymbol, isBlank]
  have hr := Spaced.token (.symbol op.symbol) (fun _ => by simp) (h.space_cons tail rest us hb hl)
  rw [← ht] at hr
  simpa using hr.space hs

/-- A field name behind an operand. -/
theorem field (h : Written names cs ts) {s : String} (hs : (Token.ident s).Solid names) :
    Written names (cs ++ '.' :: s.toList) (ts ++ [.symbol .dot, .ident s]) := by
  have hdot : Fragment names ('.' :: s.toList) [.symbol .dot, .ident s] :=
    (ident hs).fragment.symbol_cons rfl (by simp [Symbol.Extends])
  -- the point is no fraction, since a name does not start with a digit
  refine h.append hdot fun rest _ => ⟨by decide, fun _ d hd => ?_⟩
  obtain ⟨c, r, hcr, hc, _⟩ := exists_cons_of_isIdentifier hs
  have hd : d ∈ (s.toList ++ rest).head? := hd
  rw [hcr, List.cons_append, List.head?_cons, Option.mem_some_iff] at hd
  cases hdigit : d.isDigit with
  | false => rfl
  | true => simp_all [isNameStart_of_isDigit hdigit]

theorem parenthesize {text : String} (h : Written names text.toList ts) (needed : Bool) :
    Written names (Expr.parenthesize needed text).toList (Expr.groupTokens needed ts) := by
  cases needed with
  | false => exact h
  | true =>
    refine ⟨⟨'(', by simp [Expr.parenthesize], by decide⟩, ?_⟩
    simpa [Expr.parenthesize, Expr.groupTokens] using h.fragment.parens

end Written

end Operands

namespace Expr

variable {names : List String}

theorem solid_groupTokens {needed : Bool} {ts : List Token} :
    (∀ t ∈ groupTokens needed ts, t.Solid names) ↔ ∀ t ∈ ts, t.Solid names :=
  forall_mem_groupTokens trivial trivial

theorem written_items {es : List Expr}
    (h : es ≠ [] → Written names (renderItems names es).toList (itemTokens es)) :
    Fragment names (renderItems names es).toList (itemTokens es) := by
  cases es with
  | nil =>
    rw [renderItems, itemTokens]
    exact .nil
  | cons e es => exact (h (List.cons_ne_nil e es)).fragment

mutual

/-- A rendered expression consists of the tokens of the expression. -/
theorem written_render : (e : Expr) → (∀ t ∈ e.tokens, t.Solid names) →
    Written names (e.render names).toList e.tokens
  | literal _ v, h => by
    rw [tokens] at h
    simpa only [render, tokens] using Written.literal (h _ (List.mem_singleton_self _))
  | param _ i, h => by
    rw [tokens] at h
    simpa only [render, tokens] using Written.param (h _ (List.mem_singleton_self _))
  | ident _ s, h => by
    rw [tokens] at h
    simpa only [render, tokens] using Written.ident (h _ (List.mem_singleton_self _))
  | tuple _ items, h => by
    simp only [tokens, List.forall_mem_append, List.forall_mem_cons] at h
    have hi := (written_items (written_renderItems items h.1.2)).brackets
    refine ⟨⟨'[', by simp [render], by decide⟩, ?_⟩
    simpa [render, tokens] using hi
  | index _ b i, h => by
    simp only [tokens, List.forall_mem_append, List.forall_mem_cons] at h
    have hb := (written_render b (solid_groupTokens.1 h.1.1)).parenthesize b.wrapsAsBase
    have hi := (written_render i h.1.2.2).fragment.brackets
    simpa [render, tokens] using hb.append hi fun rest _ => boundary_cons (by decide) (by decide) _
  | field _ b s, h => by
    simp only [tokens, List.forall_mem_append, List.forall_mem_cons] at h
    have hb := (written_render b (solid_groupTokens.1 h.1)).parenthesize b.wrapsAsBase
    simpa [render, tokens] using hb.field h.2.2.1
  | call _ f args, h => by
    simp only [tokens, List.forall_mem_append, List.forall_mem_cons] at h
    have hf := (written_render f (solid_groupTokens.1 h.1.1)).parenthesize f.wrapsAsBase
    have ha := (written_items (written_renderItems args h.1.2.2)).parens
    simpa [render, tokens] using hf.append ha fun rest _ => boundary_cons (by decide) (by decide) _
  | unary _ op e, h => by
    simp only [tokens, List.forall_mem_cons] at h
    have he := (written_render e (solid_groupTokens.1 h.2)).parenthesize e.wrapsAsOperand
    simpa [render, tokens] using he.sign op
  | binary _ op l r, h => by
    simp only [tokens, List.forall_mem_append, List.forall_mem_cons] at h
    have hl := (written_render l (solid_groupTokens.1 h.1)).parenthesize (l.wrapsOnLeft op)
    have hr := (written_render r (solid_groupTokens.1 h.2.2)).parenthesize (r.wrapsOnRight op)
    simpa [render, tokens] using hl.append (hr.operator op) fun rest _ =>
      boundary_cons (by decide) (by decide) _

theorem written_renderItems : (es : List Expr) → (∀ t ∈ itemTokens es, t.Solid names) → es ≠ [] →
    Written names (renderItems names es).toList (itemTokens es)
  | [], _, h => absurd rfl h
  | [e], h, _ => by
    rw [itemTokens] at h
    simpa only [renderItems, itemTokens] using written_render e h
  | e :: f :: es, h, _ => by
    simp only [itemTokens, List.forall_mem_append, List.forall_mem_cons] at h
    have he := written_render e h.1
    have hes := written_renderItems (f :: es) h.2.2 (List.cons_ne_nil f es)
    have hc : Fragment names (',' :: ' ' :: _) _ := hes.space_cons.symbol_cons (s := .comma) rfl
      (by simp [Symbol.Extends])
    simpa [renderItems, itemTokens] using he.append hc fun rest _ =>
      boundary_cons (by decide) (by decide) _

end

end Expr

end Dataflow
