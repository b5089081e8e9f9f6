import Mathlib.Data.List.Basic
import Dataflow.Proofs.Certificates
import Dataflow.Proofs.Parsing

/-!
# The text of a node

The parser makes spans out of spans, and does not come back to a token that it has taken. Here the
nodes of a tree are led back to the tokens that they were read from:

* `Form e ps`: a node `e` is written with the pieces `ps`, which are tokens of its own and its
  operands;
* `Phrase ts e`: the tokens `ts` are the text of the expression `e`, perhaps in parentheses, and
  each node in `e` spans its own text from the first token to the last.

An operand of the parser holds the tokens that it was read from, a frame those that opened it, and a
stack those of its frames. One step of the parser keeps to this, whatever the levels of the
operators are (`State.Holds.step`), and so the tokens of a tree are a phrase (`phrase_of_ofTokens`).
-/

namespace Dataflow

variable {ts us vs : List PlacedToken} {e : Expr} {es : List Expr}

/-! ### Spans of tokens -/

/-- The span from the first to the last of some tokens. -/
def Span.ofTokens (ts : List PlacedToken) : Span :=
  ⟨(ts.head?.map fun t => t.span.start).getD 0, (ts.getLast?.map fun t => t.span.stop).getD 0⟩

@[simp] theorem Span.ofTokens_singleton (t : PlacedToken) : ofTokens [t] = t.span := rfl

/-- What stands between the first and the last tokens does not matter. -/
theorem Span.ofTokens_append (ht : ts ≠ []) (us : List PlacedToken) (hv : vs ≠ []) :
    ofTokens (ts ++ us ++ vs) = (ofTokens ts).join (ofTokens vs) := by
  have hne : ts ++ us ≠ [] := List.append_ne_nil_of_left_ne_nil ht us
  simp only [ofTokens, join, List.head?_append_of_ne_nil _ hne, List.head?_append_of_ne_nil _ ht,
    List.getLast?_append_of_ne_nil _ hv]

/-! ### Pieces of nodes -/

/-- A piece of the text of a node. -/
inductive Piece
  | token (t : PlacedToken)
  | operand (e : Expr) (ts : List PlacedToken)

namespace Piece

/-- A symbol as a piece. -/
abbrev symbol (s : Symbol) (span : Span) : Piece := token ⟨.symbol s, span⟩

/-- The tokens of a piece. -/
def text : Piece → List PlacedToken
  | token t => [t]
  | operand _ ts => ts

/-- The expression of an operand. -/
def expr? : Piece → Option Expr
  | token _ => none
  | operand e _ => some e

/-- The tokens of some pieces. -/
def texts (ps : List Piece) : List PlacedToken := ps.flatMap text

@[simp] theorem texts_nil : texts [] = [] := rfl

@[simp] theorem texts_token (t : PlacedToken) (ps : List Piece) :
    texts (token t :: ps) = t :: texts ps := rfl

@[simp] theorem texts_operand (e : Expr) (ts : List PlacedToken) (ps : List Piece) :
    texts (operand e ts :: ps) = ts ++ texts ps := rfl

@[simp] theorem texts_append (ps qs : List Piece) : texts (ps ++ qs) = texts ps ++ texts qs :=
  List.flatMap_append

/-- The operands among some pieces. -/
def exprs (ps : List Piece) : List Expr := ps.filterMap expr?

@[simp] theorem exprs_nil : exprs [] = [] := rfl

@[simp] theorem exprs_token (t : PlacedToken) (ps : List Piece) :
    exprs (token t :: ps) = exprs ps := rfl

@[simp] theorem exprs_operand (e : Expr) (ts : List PlacedToken) (ps : List Piece) :
    exprs (operand e ts :: ps) = e :: exprs ps := rfl

@[simp] theorem exprs_append (ps qs : List Piece) : exprs (ps ++ qs) = exprs ps ++ exprs qs :=
  List.filterMap_append

theorem mem_exprs {ps : List Piece} {e : Expr} : e ∈ exprs ps ↔ ∃ ts, operand e ts ∈ ps := by
  simp only [exprs, List.mem_filterMap]
  constructor
  · rintro ⟨p, hp, he⟩
    cases p with
    | token t => cases he
    | operand c ts =>
      cases he
      exact ⟨ts, hp⟩
  · rintro ⟨ts, h⟩
    exact ⟨_, h, rfl⟩

end Piece

open Piece (texts exprs)

/-- Items with a comma behind each. -/
inductive Form.Listed : List Expr → List Piece → Prop
  | nil : Listed [] []
  | concat {es : List Expr} {ps : List Piece} (h : Listed es ps) (e : Expr) (ts : List PlacedToken)
      (comma : Span) :
      Listed (es ++ [e]) (ps ++ [.operand e ts, .symbol .comma comma])

/-- Items with commas between them, and perhaps one more at the end. -/
inductive Form.Items : List Expr → List Piece → Prop
  | listed {es : List Expr} {ps : List Piece} (h : Listed es ps) : Items es ps
  | last {es : List Expr} {ps : List Piece} (h : Listed es ps) (e : Expr) (ts : List PlacedToken) :
      Items (es ++ [e]) (ps ++ [.operand e ts])

/-- `Form e ps`: the node `e` is written with the pieces `ps`. -/
inductive Form : Expr → List Piece → Prop
  | leaf {t : PlacedToken} {e : Expr} (h : t.token.leaf? t.span = some e) : Form e [.token t]
  | tuple {items : List Expr} {ps : List Piece} (span opening closing : Span)
      (h : Form.Items items ps) :
      Form (.tuple span items)
        (.symbol .leftBracket opening :: ps ++ [.symbol .rightBracket closing])
  | index (span opening closing : Span) (b i : Expr) (bs is : List PlacedToken) :
      Form (.index span b i)
        [.operand b bs, .symbol .leftBracket opening, .operand i is, .symbol .rightBracket closing]
  | field (span dot name : Span) (b : Expr) (bs : List PlacedToken) (n : String) :
      Form (.field span b n) [.operand b bs, .symbol .dot dot, .token ⟨.ident n, name⟩]
  | call {args : List Expr} {ps : List Piece} (span opening closing : Span) (f : Expr)
      (fs : List PlacedToken)
      (h : Form.Items args ps) :
      Form (.call span f args)
        (.operand f fs :: .symbol .leftParen opening :: ps ++ [.symbol .rightParen closing])
  | unary {s : Symbol} {op : UnaryOp} (span sign : Span) (e : Expr) (es : List PlacedToken)
      (h : s.unaryOp? = some op) : Form (.unary span op e) [.symbol s sign, .operand e es]
  | binary {s : Symbol} {op : BinaryOp} (span sign : Span) (l r : Expr) (ls rs : List PlacedToken)
      (h : s.binaryOp? = some op) :
        Form (.binary span op l r) [.operand l ls, .symbol s sign, .operand r rs]

/-- `Phrase ts e`: the tokens `ts` are the text of the expression `e`, and every node in it spans
its own text. Pairs of parentheses around a node belong to its phrase, but not to its own text. -/
inductive Phrase : List PlacedToken → Expr → Prop
  | node {e : Expr} {ps : List Piece} (hform : Form e ps)
      (hoperands : ∀ c ts, .operand c ts ∈ ps → Phrase ts c)
      (hspan : e.span = .ofTokens (texts ps)) : Phrase (texts ps) e
  | group {ts : List PlacedToken} {e : Expr} (opening closing : Span) (h : Phrase ts e) :
      Phrase (⟨.symbol .leftParen, opening⟩ :: ts ++ [⟨.symbol .rightParen, closing⟩]) e

/-- The operands among some pieces are phrases. -/
def Piece.Phrased (ps : List Piece) : Prop := ∀ c ts, .operand c ts ∈ ps → Phrase ts c

namespace Piece

variable {ps qs : List Piece}

@[simp] theorem phrased_nil : Phrased [] := by simp [Phrased]

@[simp] theorem phrased_token {t : PlacedToken} :
    Phrased (token t :: ps) ↔ Phrased ps := by simp [Phrased]

@[simp] theorem phrased_operand : Phrased (operand e ts :: ps) ↔ Phrase ts e ∧ Phrased ps := by
  simp only [Phrased, List.mem_cons, operand.injEq]
  constructor
  · intro h
    exact ⟨h e ts (.inl ⟨rfl, rfl⟩), fun c us hc => h c us (.inr hc)⟩
  · rintro ⟨he, h⟩ c us (⟨rfl, rfl⟩ | hc)
    · exact he
    · exact h c us hc

@[simp] theorem phrased_append : Phrased (ps ++ qs) ↔ Phrased ps ∧ Phrased qs := by
  simp only [Phrased, List.mem_append, or_imp, forall_and]

end Piece

open Piece (Phrased)

variable {ps : List Piece}

theorem Form.texts_ne_nil (h : Form e ps) : texts ps ≠ [] := by
  cases h <;> simp

theorem Phrase.ne_nil (h : Phrase ts e) : ts ≠ [] := by
  cases h with
  | node hform => exact hform.texts_ne_nil
  | group => exact List.cons_ne_nil _ _

/-! ### Children and own tokens -/

/-- An expression that is a single token. -/
def Expr.IsLeaf : Expr → Prop
  | literal .. | param .. | ident .. => True
  | _ => False

theorem Form.Listed.exprs (h : Form.Listed es ps) : exprs ps = es := by
  induction h with
  | nil => rfl
  | concat h e ts comma ih => simp [ih]

theorem Form.Items.exprs (h : Form.Items es ps) : exprs ps = es := by
  cases h with
  | listed h => exact h.exprs
  | last h e ts => simp [h.exprs]

/-- The children of a node are its operands, in the order of its text. -/
theorem Form.children (h : Form e ps) : e.children = exprs ps := by
  cases h with
  | @leaf t e h =>
    obtain ⟨token, span⟩ := t
    cases token <;> cases h <;> rfl
  | tuple span opening closing h => simp [Expr.children, h.exprs]
  | call span opening closing f fs h => simp [Expr.children, h.exprs]
  | index | field | unary | binary => rfl

/-- The tokens among some pieces are symbols, and no dots. -/
def Piece.Symbolic (ps : List Piece) : Prop :=
  ∀ t, .token t ∈ ps → ∃ s, s ≠ .dot ∧ t.token = .symbol s

namespace Piece

@[simp] theorem symbolic_nil : Symbolic [] := by simp [Symbolic]

@[simp] theorem symbolic_symbol {s : Symbol} {span : Span} :
    Symbolic (symbol s span :: ps) ↔ s ≠ .dot ∧ Symbolic ps := by
  simp [Symbolic]

@[simp] theorem symbolic_operand : Symbolic (operand e ts :: ps) ↔ Symbolic ps := by simp [Symbolic]

@[simp] theorem symbolic_append {qs : List Piece} :
    Symbolic (ps ++ qs) ↔ Symbolic ps ∧ Symbolic qs := by
  simp only [Symbolic, List.mem_append, or_imp, forall_and]

end Piece

open Piece (Symbolic)

theorem Form.Listed.symbolic (h : Form.Listed es ps) : Symbolic ps := by
  induction h with
  | nil => exact Piece.symbolic_nil
  | concat h e ts comma ih => simp [ih]

theorem Form.Items.symbolic (h : Form.Items es ps) : Symbolic ps := by
  cases h with
  | listed h => exact h.symbolic
  | last h e ts => simp [h.symbolic]

/-- The tokens that a node has of its own are its leaf, the name of a field behind a dot, or symbols
and no dots. -/
theorem Form.own_tokens (h : Form e ps) :
    (∃ t : PlacedToken, t.token.leaf? t.span = some e ∧ ps = [.token t]) ∨
    ¬ e.IsLeaf ∧
    ((∃ b bs dot name n, ps = [.operand b bs, .symbol .dot dot, .token ⟨.ident n, name⟩]) ∨
      Symbolic ps) := by
  cases h with
  | leaf h => exact .inl ⟨_, h, rfl⟩
  | field span dot name b bs n => exact .inr ⟨id, .inl ⟨b, bs, dot, name, n, rfl⟩⟩
  | tuple span opening closing h => exact .inr ⟨id, .inr (by simp [h.symbolic])⟩
  | call span opening closing f fs h => exact .inr ⟨id, .inr (by simp [h.symbolic])⟩
  | index => exact .inr ⟨id, .inr (by simp)⟩
  | @unary s op span sign e es h =>
    have hs : s ≠ .dot := by
      rintro rfl
      cases h
    exact .inr ⟨id, .inr (by simp [hs])⟩
  | @binary s op span sign l r ls rs h =>
    have hs : s ≠ .dot := by
      rintro rfl
      cases h
    exact .inr ⟨id, .inr (by simp [hs])⟩

/-! ### What the parser holds -/

namespace Parser

variable {stack : List Frame} {x : Operand} {s : Symbol} {span : Span} {p : Purpose}
  {items : List Expr}

/-- An operand was read from the tokens. -/
structure Operand.Holds (x : Operand) (ts : List PlacedToken) : Prop where
  phrase : Phrase ts x.expr
  extent_eq : x.extent = .ofTokens ts

/-- The tokens are what stands before the items of a list. -/
def Purpose.Holds : Purpose → List PlacedToken → Prop
  | .tuple opening, ts => ts = [⟨.symbol .leftBracket, opening⟩]
  | .call f, ts => ∃ fs opening, f.Holds fs ∧ ts = fs ++ [⟨.symbol .leftParen, opening⟩]

/-- The tokens are a list of items that waits for another one. -/
def Purpose.HoldsItems (p : Purpose) (items : List Expr) (ts : List PlacedToken) : Prop :=
  ∃ us ps, p.Holds us ∧ Form.Listed items ps ∧ Phrased ps ∧ ts = us ++ texts ps

/-- A frame was opened by the tokens. -/
def Frame.Holds : Frame → List PlacedToken → Prop
  | .binary op l, ts =>
    ∃ ls s sign, s.binaryOp? = some op ∧ l.Holds ls ∧ ts = ls ++ [⟨.symbol s, sign⟩]
  | .unary op sign, ts => ∃ s, s.unaryOp? = some op ∧ ts = [⟨.symbol s, sign⟩]
  | .group opening, ts => ts = [⟨.symbol .leftParen, opening⟩]
  | .index b, ts => ∃ bs opening, b.Holds bs ∧ ts = bs ++ [⟨.symbol .leftBracket, opening⟩]
  | .tuple opening items, ts => (Purpose.tuple opening).HoldsItems items ts
  | .call f args, ts => (Purpose.call f).HoldsItems args ts

/-- A stack was opened by the tokens, frame by frame. -/
def Held : List Frame → List PlacedToken → Prop
  | [], ts => ts = []
  | f :: stack, ts => ∃ us vs, Held stack us ∧ f.Holds vs ∧ ts = us ++ vs

/-- A state was reached by the tokens. -/
def State.Holds : State → List PlacedToken → Prop
  | .start stack, ts => Held stack ts
  | .after stack x, ts => ∃ us vs, Held stack us ∧ x.Holds vs ∧ ts = us ++ vs
  | .member stack x, ts =>
    ∃ us vs dot, Held stack us ∧ x.Holds vs ∧ ts = us ++ vs ++ [⟨.symbol .dot, dot⟩]

theorem holds_frame : (p.frame items).Holds ts ↔ p.HoldsItems items ts := by
  cases p <;> rfl

/-! ### Nodes that are made -/

/-- A node is held with the tokens of its pieces if it spans them. -/
theorem holds_node (hform : Form e ps) (hoperands : Phrased ps)
    (hspan : e.span = .ofTokens (texts ps)) :
    (Operand.ofExpr e).Holds (texts ps) :=
  ⟨.node hform hoperands hspan, hspan⟩

theorem holds_leaf {t : PlacedToken} (h : t.token.leaf? t.span = some e) :
    (Operand.ofExpr e).Holds [t] := by
  have hspan : e.span = t.span := by
    obtain ⟨token, span⟩ := t
    cases token <;> cases h <;> rfl
  exact holds_node (.leaf h) (by simp) hspan

theorem Operand.Holds.group (hx : x.Holds ts) (opening closing : Span) :
    (Operand.mk x.expr (opening.join closing)).Holds
      (⟨.symbol .leftParen, opening⟩ :: ts ++ [⟨.symbol .rightParen, closing⟩]) := by
  have hspan := Span.ofTokens_append (List.cons_ne_nil ⟨.symbol .leftParen, opening⟩ []) ts
    (List.cons_ne_nil ⟨.symbol .rightParen, closing⟩ [])
  exact ⟨.group opening closing hx.phrase, hspan.symm⟩

theorem Operand.Holds.unary {op : UnaryOp} (hs : s.unaryOp? = some op) (hx : x.Holds ts)
    (sign : Span) :
    (Operand.ofExpr (.unary (sign.join x.extent) op x.expr)).Holds (⟨.symbol s, sign⟩ :: ts) := by
  have hnode :=
    holds_node (.unary (sign.join x.extent) sign x.expr ts hs) (by simpa using hx.phrase) ?_
  · simpa using hnode
  · have hspan := Span.ofTokens_append (List.cons_ne_nil ⟨.symbol s, sign⟩ []) [] hx.phrase.ne_nil
    simpa [Expr.span, hx.extent_eq] using hspan.symm

theorem Operand.Holds.binary {op : BinaryOp} {l : Operand} (hs : s.binaryOp? = some op)
    (hl : l.Holds us) (hx : x.Holds vs) (sign : Span) :
    (Operand.ofExpr (.binary (l.extent.join x.extent) op l.expr x.expr)).Holds
      (us ++ ⟨.symbol s, sign⟩ :: vs) := by
  have hnode := holds_node (.binary (l.extent.join x.extent) sign l.expr x.expr us vs hs)
    (by simpa using ⟨hl.phrase, hx.phrase⟩) ?_
  · simpa using hnode
  · have hspan := Span.ofTokens_append hl.phrase.ne_nil [⟨.symbol s, sign⟩] hx.phrase.ne_nil
    simpa [Expr.span, hl.extent_eq, hx.extent_eq] using hspan.symm

theorem Operand.Holds.index {b : Operand} (hb : b.Holds us) (hx : x.Holds vs)
    (opening closing : Span) :
    (Operand.ofExpr (.index (b.extent.join closing) b.expr x.expr)).Holds
      (us ++ ⟨.symbol .leftBracket, opening⟩ :: vs ++ [⟨.symbol .rightBracket, closing⟩]) := by
  have hnode := holds_node (.index (b.extent.join closing) opening closing b.expr x.expr us vs)
    (by simpa using ⟨hb.phrase, hx.phrase⟩) ?_
  · simpa using hnode
  · have hspan := Span.ofTokens_append hb.phrase.ne_nil (⟨.symbol .leftBracket, opening⟩ :: vs)
      (List.cons_ne_nil ⟨.symbol .rightBracket, closing⟩ [])
    simpa [Expr.span, hb.extent_eq] using hspan.symm

theorem Operand.Holds.field (hx : x.Holds ts) (dot name : Span) (n : String) :
    (Operand.ofExpr (.field (x.extent.join name) x.expr n)).Holds
      (ts ++ [⟨.symbol .dot, dot⟩, ⟨.ident n, name⟩]) := by
  have hnode :=
    holds_node (.field (x.extent.join name) dot name x.expr ts n) (by simpa using hx.phrase) ?_
  · simpa using hnode
  · have hspan :=
      Span.ofTokens_append hx.phrase.ne_nil [⟨.symbol .dot, dot⟩]
        (List.cons_ne_nil ⟨.ident n, name⟩ [])
    simpa [Expr.span, hx.extent_eq] using hspan.symm

/-- A list of items becomes a node at its closing bracket. -/
theorem Purpose.Holds.node (hp : p.Holds us) (hi : Form.Items items ps) (hps : Phrased ps)
    (closing : Span) :
    (Operand.ofExpr (p.node closing items)).Holds
      (us ++ texts ps ++ [⟨.symbol p.closer, closing⟩]) := by
  have hlast := List.cons_ne_nil (⟨.symbol p.closer, closing⟩ : PlacedToken) []
  cases p with
  | tuple opening =>
    subst hp
    have hnode :=
      holds_node (.tuple (opening.join closing) opening closing hi) (by simpa using hps) ?_
    · simpa [Purpose.node, Purpose.closer] using hnode
    · have hspan :=
        Span.ofTokens_append (List.cons_ne_nil ⟨.symbol .leftBracket, opening⟩ []) (texts ps) hlast
      simpa [Expr.span, Purpose.closer] using hspan.symm
  | call f =>
    obtain ⟨fs, opening, hf, rfl⟩ := hp
    have hnode := holds_node (.call (f.extent.join closing) opening closing f.expr fs hi)
      (by simpa using ⟨hf.phrase, hps⟩) ?_
    · simpa [Purpose.node, Purpose.closer] using hnode
    · have hspan :=
        Span.ofTokens_append hf.phrase.ne_nil (⟨.symbol .leftParen, opening⟩ :: texts ps) hlast
      simpa [Expr.span, Purpose.closer, hf.extent_eq] using hspan.symm

/-! ### Steps -/

/-- Applying waiting operators moves tokens from the stack to the operand. -/
theorem Held.reduce (level : Nat) (hs : Held stack us) (hx : x.Holds vs) :
    ∃ us' vs', Held (reduce level stack x).1 us' ∧ (Parser.reduce level stack x).2.Holds vs' ∧
      us' ++ vs' = us ++ vs := by
  -- an operator that is applied takes its tokens along, and the operand grows by them
  fun_induction Parser.reduce level stack x generalizing us vs with
  | case1 op sign stack x ih =>
    obtain ⟨us, _, hs, ⟨s, hop, rfl⟩, rfl⟩ := hs
    obtain ⟨us', vs', hs', hx', heq⟩ := ih hs (hx.unary hop sign)
    exact ⟨us', vs', hs', hx', by simpa using heq⟩
  | case2 op l stack x h ih =>
    obtain ⟨us, _, hs, ⟨ls, s, sign, hop, hl, rfl⟩, rfl⟩ := hs
    obtain ⟨us', vs', hs', hx', heq⟩ := ih hs (hl.binary hop hx sign)
    exact ⟨us', vs', hs', hx', by simpa using heq⟩
  | case3 op l stack x h => exact ⟨us, vs, hs, hx, rfl⟩
  | case4 stack x hu hb => exact ⟨us, vs, hs, hx, rfl⟩

/-- An empty list of items, or one behind a comma, is closed. -/
theorem Held.closeItems {s' : State} (hs : Held stack ts) (h : closeItems? span s stack = some s') :
    s'.Holds (ts ++ [⟨.symbol s, span⟩]) := by
  obtain ⟨p, items, rest, rfl, rfl, rfl⟩ := closeItems?_inv h
  obtain ⟨us, _, hs, hframe, rfl⟩ := hs
  obtain ⟨vs, ps, hp, hi, hps, rfl⟩ := holds_frame.1 hframe
  exact ⟨us, _, hs, hp.node (.listed hi) hps span, by simp⟩

/-- A bracket is closed behind an operand, or the next item is waited for. -/
theorem Held.closeOperand {s' : State} (hs : Held stack us) (hx : x.Holds vs)
    (h : closeOperand? span s stack x = some s') : s'.Holds (us ++ vs ++ [⟨.symbol s, span⟩]) := by
  rcases closeOperand?_inv h with ⟨opening, rest, rfl, rfl, rfl⟩ | ⟨b, rest, rfl, rfl, rfl⟩ |
    ⟨p, items, rest, rfl, ⟨rfl, rfl⟩ | ⟨rfl, rfl⟩⟩
  · obtain ⟨us, _, hs, rfl, rfl⟩ := hs
    exact ⟨us, _, hs, hx.group opening span, by simp⟩
  · obtain ⟨us, _, hs, ⟨bs, opening, hb, rfl⟩, rfl⟩ := hs
    exact ⟨us, _, hs, hb.index hx opening span, by simp⟩
  · obtain ⟨us, _, hs, hframe, rfl⟩ := hs
    obtain ⟨fs, ps, hp, hi, hps, rfl⟩ := holds_frame.1 hframe
    have hnode := hp.node (.last hi x.expr vs) (by simpa using ⟨hps, hx.phrase⟩) span
    exact ⟨us, _, hs, hnode, by simp⟩
  · obtain ⟨us, _, hs, hframe, rfl⟩ := hs
    obtain ⟨fs, ps, hp, hi, hps, rfl⟩ := holds_frame.1 hframe
    have hlisted := hi.concat x.expr vs span
    exact ⟨us, _, hs, holds_frame.2 ⟨fs, _, hp, hlisted, by simpa using ⟨hps, hx.phrase⟩, rfl⟩,
      by simp⟩

theorem State.Holds.start_symbol {s' : State} (h : Held stack ts)
    (hs : startSymbol? span stack s = some s') :
    s'.Holds (ts ++ [⟨.symbol s, span⟩]) := by
  rcases startSymbol?_inv hs with ⟨rfl, rfl⟩ | ⟨rfl, rfl⟩ | ⟨op, hop, rfl⟩ | hclose
  · exact ⟨ts, _, h, rfl, rfl⟩
  · have hframe : (Purpose.tuple span).HoldsItems [] [⟨.symbol .leftBracket, span⟩] :=
      ⟨_, [], rfl, .nil, Piece.phrased_nil, rfl⟩
    exact ⟨ts, _, h, hframe, rfl⟩
  · exact ⟨ts, _, h, ⟨s, hop, rfl⟩, rfl⟩
  · exact h.closeItems hclose

theorem State.Holds.after_symbol {s' : State} (h : Held stack us) (hx : x.Holds vs)
    (hs : afterSymbol? span stack x s = some s') : s'.Holds (us ++ vs ++ [⟨.symbol s, span⟩]) := by
  rcases afterSymbol?_inv hs with ⟨rfl, rfl⟩ | ⟨rfl, rfl⟩ | ⟨rfl, rfl⟩ | ⟨op, hop, rfl⟩ | hclose
  · exact ⟨us, _, h, ⟨vs, span, hx, rfl⟩, by simp⟩
  · have hframe : (Purpose.call x).HoldsItems [] (vs ++ [⟨.symbol .leftParen, span⟩]) :=
      ⟨_, [], ⟨vs, span, hx, rfl⟩, .nil, Piece.phrased_nil, by simp⟩
    exact ⟨us, _, h, hframe, by simp⟩
  · exact ⟨us, vs, span, h, hx, rfl⟩
  · obtain ⟨us', vs', hs', hx', heq⟩ := h.reduce op.precedence hx
    exact ⟨us', _, hs', ⟨vs', s, span, hop, hx', rfl⟩, by rw [← heq, List.append_assoc]⟩
  · obtain ⟨us', vs', hs', hx', heq⟩ := h.reduce 0 hx
    rw [← heq]
    exact hs'.closeOperand hx' hclose

/-- A step keeps what was read, one token longer. -/
theorem State.Holds.step {st st' : State} {t : PlacedToken} (h : st.Holds ts)
    (hs : step? st t = some st') :
    st'.Holds (ts ++ [t]) := by
  unfold step? at hs
  split at hs
  · -- an operand is expected
    exact .start_symbol h hs
  · obtain ⟨e, he, rfl⟩ := Option.map_eq_some_iff.1 hs
    exact ⟨ts, _, h, holds_leaf he, rfl⟩
  · -- an operand is there
    obtain ⟨us, vs, h, hx, rfl⟩ := h
    exact .after_symbol h hx hs
  · cases hs
  · -- the name of a field is expected
    obtain ⟨us, vs, dot, h, hx, rfl⟩ := h
    cases hs
    exact ⟨us, _, h, hx.field dot _ _, by simp⟩
  · cases hs

/-- A run keeps what was read. -/
theorem State.Holds.steps {st st' : State} (h : st.Holds ts) (hs : steps? st us = some st') :
    st'.Holds (ts ++ us) := by
  induction us generalizing st ts with
  | nil =>
    cases hs
    simpa using h
  | cons t us ih =>
    rw [steps?_cons, Option.bind_eq_some_iff] at hs
    obtain ⟨st1, h1, h2⟩ := hs
    simpa using ih (h.step h1) h2

/-- The tokens that are parsed are a phrase, and its expression is the tree. -/
theorem phrase_of_ofTokens {n : Nat} (h : Expr.ofTokens n ts = .ok e) : Phrase ts e := by
  obtain ⟨st, hsteps, hfin⟩ := run_eq_ok_iff.1 h
  have hstart : (State.start []).Holds [] := rfl
  have hst : st.Holds ts := hstart.steps hsteps
  cases st with
  | start stack => cases hfin
  | member stack x => cases hfin
  | after stack x =>
    obtain ⟨us, vs, hs, hx, rfl⟩ := hst
    obtain ⟨us', vs', hs', hx', heq⟩ := hs.reduce 0 hx
    simp only [State.finish?] at hfin
    split at hfin
    · next y hred =>
      cases hfin
      rw [hred] at hs' hx'
      obtain rfl : us' = [] := hs'
      rw [← heq]
      exact hx'.phrase
    · cases hfin

end Parser

/-- The tokens of a source that is parsed are a phrase, also where some text was refused. -/
theorem Expr.phrase_of_parse {source : String} (h : (Expr.parse source).expr = some e) :
    Phrase (lex source).tokens e := by
  unfold Expr.parse at h
  dsimp only at h
  split at h
  · next he =>
    cases h
    exact Parser.phrase_of_ofTokens he
  · cases h

end Dataflow
