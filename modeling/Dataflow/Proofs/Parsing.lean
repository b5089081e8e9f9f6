import Dataflow.Expr.Parser
import Dataflow.Proofs.Grammar

/-!
# The parser accepts exactly the grammar

The stack machine of the parser is compared with the grammar in both directions.

* Completeness: from a state that waits for an operand, the tokens of a phrase lead to a state that
  has read it. The operators of the phrase that still wait are on the stack above what was there,
  and applying them gives the tree of the phrase (`Reads`, `reads_of_derives`).
* Soundness: every stack that can be reached is what some tokens have left open (`Opens`), each
  frame with a phrase of the grammar for all that was read before it. One step keeps this
  (`Traces.step`), so a run does.

The machine gives one result, so completeness also tells that a sentence has one tree.
-/

namespace Dataflow

/-! ### Spans aside -/

namespace Expr

@[simp] theorem withoutSpansAll_nil : withoutSpansAll [] = [] := by
  simp only [withoutSpansAll]

@[simp] theorem withoutSpansAll_cons (e : Expr) (es : List Expr) :
    withoutSpansAll (e :: es) = e.withoutSpans :: withoutSpansAll es := by
  simp only [withoutSpansAll]

@[simp] theorem withoutSpansAll_append (es fs : List Expr) :
    withoutSpansAll (es ++ fs) = withoutSpansAll es ++ withoutSpansAll fs := by
  induction es with
  | nil => simp
  | cons e es ih => simp [ih]

end Expr

namespace Parser

/-! ### Runs -/

/-- Take tokens one after another; none if one of them cannot continue the expression. -/
def steps? (s : State) (ts : List PlacedToken) : Option State := ts.foldlM step? s

@[simp] theorem steps?_nil (s : State) : steps? s [] = some s := rfl

theorem steps?_cons (s : State) (t : PlacedToken) (ts : List PlacedToken) :
    steps? s (t :: ts) = (step? s t).bind fun s' => steps? s' ts := rfl

theorem steps?_append (s : State) (ts us : List PlacedToken) :
    steps? s (ts ++ us) = (steps? s ts).bind fun s' => steps? s' us := by
  simp only [steps?, List.foldlM_append]
  rfl

theorem steps?_of_append {s s' : State} {ts us : List PlacedToken} (h : steps? s ts = some s') :
    steps? s (ts ++ us) = steps? s' us := by
  rw [steps?_append, h, Option.bind_some]

theorem steps?_of_cons {s s' : State} {t : PlacedToken} {ts : List PlacedToken}
    (h : step? s t = some s') : steps? s (t :: ts) = steps? s' ts := by
  rw [steps?_cons, h, Option.bind_some]

/-- A run gives a tree exactly if every token can be taken and the last state is complete. -/
theorem run_eq_ok_iff {n : Nat} {s : State} {ts : List PlacedToken} {e : Expr} :
    run n s ts = .ok e ↔ ∃ s', steps? s ts = some s' ∧ s'.finish? = some e := by
  induction ts generalizing s with
  | nil => cases h : s.finish? <;> simp [run, h]
  | cons t ts ih =>
    cases h : step? s t with
    | none => simp [run, steps?_cons, h]
    | some s' => simpa [run, steps?_cons, h] using ih

/-! ### Waiting operators -/

/-- Operators that bind at least as tightly as `level` do not wait on the top of a stack. -/
def Stops (level : Nat) : List Frame → Prop
  | .unary .. :: _ => False
  | .binary op _ :: _ => op.precedence < level
  | _ => True

theorem reduce_of_stops {level : Nat} {stack : List Frame} (h : Stops level stack) (x : Operand) :
    reduce level stack x = (stack, x) := by
  cases stack with
  | nil => rfl
  | cons f stack =>
    cases f with
    | unary op s => exact h.elim
    | binary op l =>
      have : ¬level ≤ op.precedence := Nat.not_le.2 h
      simp only [reduce, this, if_false]
    | group | index | tuple | call => rfl

theorem Stops.mono {level level' : Nat} {stack : List Frame} (h : Stops level stack)
    (hl : level ≤ level') : Stops level' stack := by
  cases stack with
  | nil => trivial
  | cons f stack =>
    cases f with
    | unary op s => exact h
    | binary op l => exact Nat.lt_of_lt_of_le h hl
    | group | index | tuple | call => trivial

theorem stops_reduce (level : Nat) (stack : List Frame) (x : Operand) :
    Stops level (reduce level stack x).1 := by
  fun_induction reduce level stack x with
  | case1 op s stack x ih => exact ih
  | case2 op l stack x h ih => exact ih
  | case3 op l stack x h => exact Nat.lt_of_not_le h
  | case4 stack x hu hb =>
    cases stack with
    | nil => trivial
    | cons f stack =>
      cases f with
      | unary op s => exact (hu op s stack rfl).elim
      | binary op l => exact (hb op l stack rfl).elim
      | group | index | tuple | call => trivial

theorem reduce_binary {level : Nat} {op : BinaryOp} (h : level ≤ op.precedence) (l : Operand)
    (stack : List Frame) (x : Operand) :
    reduce level (.binary op l :: stack) x =
      reduce level stack (.ofExpr (.binary (l.extent.join x.extent) op l.expr x.expr)) := by
  simp only [reduce, h, if_true]

end Parser

/-! ### Operators of the grammar and of the parser -/

namespace Grammar

/-- Every operator between operands belongs to a tier. -/
theorem Tier.exists_has {s : Symbol} {op : BinaryOp} (h : s.binaryOp? = some op) :
    ∃ t : Tier, t.Has s op := by
  cases s <;> simp only [Symbol.binaryOp?, Option.some.injEq, reduceCtorEq] at h <;> subst h <;>
    exact ⟨_, by constructor⟩

theorem Tier.Has.binaryOp? {t : Tier} {s : Symbol} {op : BinaryOp} (h : t.Has s op) :
    s.binaryOp? = some op ∧ op.precedence = t.rank := by
  cases h <;> exact ⟨rfl, rfl⟩

/-- The parser and the grammar have the same operators between operands. -/
theorem Tier.has_iff {t : Tier} {s : Symbol} {op : BinaryOp} :
    t.Has s op ↔ s.binaryOp? = some op ∧ op.precedence = t.rank := by
  refine ⟨Has.binaryOp?, fun ⟨hs, hr⟩ => ?_⟩
  obtain ⟨t', ht'⟩ := Tier.exists_has hs
  have hrank : (Category.tier t).rank = (Category.tier t').rank := hr.symm.trans ht'.binaryOp?.2
  cases Category.rank_injective hrank
  exact ht'

/-- The parser and the grammar have the same signs. -/
theorem sign_iff {s : Symbol} {op : UnaryOp} : Sign s op ↔ s.unaryOp? = some op := by
  constructor
  · intro h
    cases h <;> rfl
  · intro h
    cases s <;> simp only [Symbol.unaryOp?, Option.some.injEq, reduceCtorEq] at h <;> subst h <;>
      constructor

end Grammar

namespace Parser

open Grammar

/-! ### Steps -/

variable {s : Symbol} {span : Span} {stack rest : List Frame} {x y : Operand}

theorem step?_leaf {t : Token} {e : Expr} (h : t.leaf? span = some e) :
    step? (.start stack) ⟨t, span⟩ = some (.after stack (.ofExpr e)) := by
  cases t with
  | symbol s => simp only [Token.leaf?, reduceCtorEq] at h
  | bool | null | param | float | int | str | ident => simp only [step?, h, Option.map_some]

theorem step?_sign {op : UnaryOp} (h : s.unaryOp? = some op) :
    step? (.start stack) ⟨.symbol s, span⟩ = some (.start (.unary op span :: stack)) := by
  cases s <;> simp only [Symbol.unaryOp?, Option.some.injEq, reduceCtorEq] at h <;> subst h <;> rfl

theorem step?_operator {op : BinaryOp} (h : s.binaryOp? = some op)
    (hr : reduce op.precedence stack x = (rest, y)) :
    step? (.after stack x) ⟨.symbol s, span⟩ = some (.start (.binary op y :: rest)) := by
  cases s <;> simp only [Symbol.binaryOp?, Option.some.injEq, reduceCtorEq] at h <;> subst h <;>
    simp only [step?, afterSymbol?, Symbol.binaryOp?, hr]

theorem step?_open_group :
    step? (.start stack) ⟨.symbol .leftParen, span⟩ = some (.start (.group span :: stack)) := rfl

theorem step?_open_index :
    step? (.after stack x) ⟨.symbol .leftBracket, span⟩ = some (.start (.index x :: stack)) := rfl

theorem step?_open_tuple :
    step? (.start stack) ⟨.symbol .leftBracket, span⟩ = some (.start (.tuple span [] :: stack)) :=
  rfl

theorem step?_open_call :
    step? (.after stack x) ⟨.symbol .leftParen, span⟩ = some (.start (.call x [] :: stack)) := rfl

theorem step?_group {span' : Span} (hr : reduce 0 stack x = (.group span' :: rest, y)) :
    step? (.after stack x) ⟨.symbol .rightParen, span⟩ =
      some (.after rest ⟨y.expr, span'.join span⟩) := by
  simp only [step?, afterSymbol?, Symbol.binaryOp?, hr, closeOperand?]

theorem step?_index {b : Operand} (hr : reduce 0 stack x = (.index b :: rest, y)) :
    step? (.after stack x) ⟨.symbol .rightBracket, span⟩ =
      some (.after rest (.ofExpr (.index (b.extent.join span) b.expr y.expr))) := by
  simp only [step?, afterSymbol?, Symbol.binaryOp?, hr, closeOperand?]

/-- What a list of items is read for. -/
inductive Purpose
  | tuple (opening : Span)
  | call (callee : Operand)

namespace Purpose

/-- The frame of a list with some items. -/
def frame : Purpose → List Expr → Frame
  | tuple s, items => .tuple s items
  | call f, items => .call f items

/-- The symbol that ends a list. -/
def closer : Purpose → Symbol
  | tuple _ => .rightBracket
  | call _ => .rightParen

/-- The node of a complete list. -/
def node (closing : Span) : Purpose → List Expr → Expr
  | tuple s, items => .tuple (s.join closing) items
  | call f, items => .call (f.extent.join closing) f.expr items

end Purpose

variable {p : Purpose} {items : List Expr}

theorem step?_close_items :
    step? (.start (p.frame items :: rest)) ⟨.symbol p.closer, span⟩ =
      some (.after rest (.ofExpr (p.node span items))) := by
  cases p <;> rfl

theorem step?_comma (hr : reduce 0 stack x = (p.frame items :: rest, y)) :
    step? (.after stack x) ⟨.symbol .comma, span⟩ =
      some (.start (p.frame (items ++ [y.expr]) :: rest)) := by
  cases p <;>
    simp only [step?, afterSymbol?, Symbol.binaryOp?, hr, closeOperand?, Purpose.frame]

theorem step?_close_operand (hr : reduce 0 stack x = (p.frame items :: rest, y)) :
    step? (.after stack x) ⟨.symbol p.closer, span⟩ =
      some (.after rest (.ofExpr (p.node span (items ++ [y.expr])))) := by
  cases p <;>
    simp only [step?, afterSymbol?, Symbol.binaryOp?, hr, closeOperand?, Purpose.frame,
      Purpose.closer, Purpose.node]

theorem stops_frame (level : Nat) (p : Purpose) (items : List Expr) (stack : List Frame) :
    Stops level (p.frame items :: stack) := by
  cases p <;> trivial

/-! ### Completeness -/

/-- From a stack that waits for an operand, the tokens lead to one that is complete and has the tree
`e`. -/
def Completes (stack : List Frame) (ts : List PlacedToken) (e : Expr) : Prop :=
  ∃ x, steps? (.start stack) ts = some (.after stack x) ∧ x.expr.withoutSpans = e

/-- From a stack that waits for an operand, the tokens lead to a state in which applying the
operators that wait, at any level up to `rank`, has the same effect as on a complete operand with
the tree `e`. -/
def Applies (rank : Nat) (stack : List Frame) (ts : List PlacedToken) (e : Expr) : Prop :=
  ∃ above x y, steps? (.start stack) ts = some (.after above x) ∧ y.expr.withoutSpans = e ∧
    ∀ level ≤ rank, reduce level above x = reduce level stack y

/-- What reading a phrase comes to, by its category. Below a tier must wait nothing that the tier's
operators would be applied after. -/
def Reads : Category → List Frame → List PlacedToken → Expr → Prop
  | .tier t, stack, ts, e => Stops t.rank stack → Applies t.rank stack ts e
  | .signed, stack, ts, e => Applies 7 stack ts e
  | .suffixed, stack, ts, e | .atom, stack, ts, e => Completes stack ts e

theorem Completes.applies {ts : List PlacedToken} {e : Expr} (h : Completes stack ts e)
    (rank : Nat) :
    Applies rank stack ts e := by
  obtain ⟨x, hs, hx⟩ := h
  exact ⟨stack, x, x, hs, hx, fun _ _ => rfl⟩

theorem Applies.mono {rank rank' : Nat} {ts : List PlacedToken} {e : Expr}
    (h : Applies rank stack ts e) (hr : rank' ≤ rank) : Applies rank' stack ts e := by
  obtain ⟨above, x, y, hs, hy, happ⟩ := h
  exact ⟨above, x, y, hs, hy, fun level hl => happ level (Nat.le_trans hl hr)⟩

/-- What was read for the operand of a tier, above a stack that the tier's operators stop at. -/
theorem Reads.applies_operand {t : Tier} {ts : List PlacedToken} {e : Expr}
    (h : Reads t.operand stack ts e) (hs : Stops (t.rank + 1) stack) :
    Applies (t.rank + 1) stack ts e := by
  cases t with
  | product => exact h
  | disjunction | conjunction | equality | comparison | sum => exact h hs

/-- Above a bracket or at the beginning an expression can be read and all its operators applied. -/
theorem Reads.reduce_eq {ts : List PlacedToken} {e : Expr} (h : Reads .expr stack ts e)
    (hs : ∀ level, Stops level stack) :
    ∃ above x y, steps? (.start stack) ts = some (.after above x) ∧ y.expr.withoutSpans = e ∧
      reduce 0 above x = (stack, y) := by
  obtain ⟨above, x, y, hsteps, hy, happ⟩ := h (hs _)
  exact ⟨above, x, y, hsteps, hy, (happ 0 (Nat.zero_le _)).trans (reduce_of_stops (hs 0) y)⟩

/-- The tokens that placed tokens are. -/
abbrev tokens (ts : List PlacedToken) : List Token := ts.map PlacedToken.token

/-- Placed tokens with something in brackets at the end are split where their tokens are. -/
theorem exists_of_tokens_suffix {ts : List PlacedToken} {us vs : List Token} {a b : Token}
    (h : tokens ts = us ++ a :: vs ++ [b]) :
    ∃ bs opening is closing, ts = bs ++ ⟨a, opening⟩ :: is ++ [⟨b, closing⟩] ∧ tokens bs = us ∧
    tokens is = vs := by
  obtain ⟨front, back, rfl, hfront, hback⟩ := List.map_eq_append_iff.1 h
  obtain ⟨⟨_, closing⟩, rfl, rfl⟩ := List.map_eq_singleton_iff.1 hback
  obtain ⟨bs, inner, rfl, hbs, hinner⟩ := List.map_eq_append_iff.1 hfront
  obtain ⟨⟨_, opening⟩, is, rfl, rfl, his⟩ := List.map_eq_cons_iff.1 hinner
  exact ⟨bs, opening, is, closing, rfl, hbs, his⟩

/-- Placed tokens in brackets are split where their tokens are. -/
theorem exists_of_tokens_brackets {ts : List PlacedToken} {vs : List Token} {a b : Token}
    (h : tokens ts = a :: vs ++ [b]) :
    ∃ opening is closing, ts = ⟨a, opening⟩ :: is ++ [⟨b, closing⟩] ∧ tokens is = vs := by
  have h' : tokens ts = [] ++ a :: vs ++ [b] := h
  obtain ⟨bs, opening, is, closing, rfl, hbs, his⟩ := exists_of_tokens_suffix h'
  obtain rfl := List.map_eq_nil_iff.1 hbs
  exact ⟨opening, is, closing, rfl, his⟩

theorem reads_leaf {t : Token} {ts : List PlacedToken} {e : Expr} (ht : tokens ts = [t])
    (he : ∀ span, ∃ f, t.leaf? span = some f ∧ f.withoutSpans = e) : Completes stack ts e := by
  obtain ⟨⟨u, span⟩, rfl, rfl⟩ := List.map_eq_singleton_iff.1 ht
  obtain ⟨f, hf, hfe⟩ := he span
  exact ⟨.ofExpr f, by rw [steps?_of_cons (step?_leaf hf), steps?_nil], hfe⟩

mutual

/-- The machine reads every phrase of the grammar. -/
theorem reads_of_derives {c : Category} {toks : List Token} {e : Expr} (h : Derives c toks e) :
    ∀ {ts : List PlacedToken}, tokens ts = toks → ∀ stack, Reads c stack ts e := by
  match h with
  | .operand h =>
    intro ts ht stack hs
    have hop := (reads_of_derives h ht stack).applies_operand (hs.mono (Nat.le_succ _))
    exact hop.mono (Nat.le_succ _)
  | @Derives.binary t s op _ _ _ _ hop hl hr =>
    intro ts ht stack hs
    obtain ⟨hsym, hprec⟩ := Tier.has_iff.1 hop
    obtain ⟨ls, us, rfl, hls, hus⟩ := List.map_eq_append_iff.1 ht
    obtain ⟨⟨_, span⟩, rs, rfl, rfl, hrs⟩ := List.map_eq_cons_iff.1 hus
    obtain ⟨above, x, l, hsteps, rfl, happ⟩ := reads_of_derives hl hls stack hs
    have hstep :
        step? (.after above x) ⟨.symbol s, span⟩ = some (.start (.binary op l :: stack)) := by
      refine step?_operator hsym ?_
      rw [hprec, happ _ (Nat.le_refl _), reduce_of_stops hs]
    -- the right operand is read above its operator, which the tighter operators of the operand
    -- leave waiting
    have hstops : Stops (t.rank + 1) (.binary op l :: stack) :=
      Nat.lt_succ_of_le (Nat.le_of_eq hprec)
    obtain ⟨above', x', r, hsteps', rfl, happ'⟩ :=
      (reads_of_derives hr hrs (.binary op l :: stack)).applies_operand hstops
    refine ⟨above', x', .ofExpr (.binary (l.extent.join r.extent) op l.expr r.expr), ?_, ?_, ?_⟩
    · rw [steps?_of_append hsteps, steps?_of_cons hstep, hsteps']
    · simp only [Operand.ofExpr, Expr.withoutSpans]
    · intro level hl
      rw [happ' level (Nat.le_succ_of_le hl), reduce_binary (hprec ▸ hl)]
  | .unsigned h =>
    intro ts ht stack
    exact (reads_of_derives h ht stack : Completes stack ts e).applies 7
  | @Derives.unary s op _ _ hsign h =>
    intro ts ht stack
    obtain ⟨⟨_, span⟩, us, rfl, rfl, hus⟩ := List.map_eq_cons_iff.1 ht
    obtain ⟨above, x, y, hsteps, rfl, happ⟩ := reads_of_derives h hus (.unary op span :: stack)
    refine ⟨above, x, .ofExpr (.unary (span.join y.extent) op y.expr), ?_, ?_, ?_⟩
    · rw [steps?_of_cons (step?_sign (sign_iff.1 hsign)), hsteps]
    · simp only [Operand.ofExpr, Expr.withoutSpans]
    · intro level hl
      rw [happ level hl, reduce]
  | .atom h =>
    intro ts ht stack
    exact reads_of_derives h ht stack
  | .index hb hi =>
    intro ts ht stack
    obtain ⟨bs, opening, is, closing, rfl, hbs, his⟩ := exists_of_tokens_suffix ht
    obtain ⟨b, hsteps, rfl⟩ := reads_of_derives hb hbs stack
    obtain ⟨above, x, y, hsteps', rfl, hred⟩ :=
      (reads_of_derives hi his (.index b :: stack)).reduce_eq fun _ => trivial
    refine ⟨.ofExpr (.index (b.extent.join closing) b.expr y.expr), ?_, ?_⟩
    · rw [List.append_assoc, steps?_of_append hsteps, List.cons_append,
        steps?_of_cons step?_open_index, steps?_of_append hsteps',
        steps?_of_cons (step?_index hred), steps?_nil]
    · simp only [Operand.ofExpr, Expr.withoutSpans]
  | .field n h =>
    intro ts ht stack
    obtain ⟨bs, us, rfl, hbs, hus⟩ := List.map_eq_append_iff.1 ht
    obtain ⟨⟨_, dot⟩, ns, rfl, rfl, hns⟩ := List.map_eq_cons_iff.1 hus
    obtain ⟨⟨_, name⟩, rfl, rfl⟩ := List.map_eq_singleton_iff.1 hns
    obtain ⟨b, hsteps, rfl⟩ := reads_of_derives h hbs stack
    refine ⟨.ofExpr (.field (b.extent.join name) b.expr n), ?_, ?_⟩
    · rw [steps?_of_append hsteps]
      rfl
    · simp only [Operand.ofExpr, Expr.withoutSpans]
  | .call hf hi =>
    intro ts ht stack
    obtain ⟨bs, opening, is, closing, rfl, hbs, his⟩ := exists_of_tokens_suffix ht
    obtain ⟨f, hsteps, rfl⟩ := reads_of_derives hf hbs stack
    obtain ⟨items, hsteps', rfl⟩ := reads_of_items hi his (.call f) stack closing
    refine ⟨.ofExpr (.call (f.extent.join closing) f.expr items), ?_, ?_⟩
    · rw [List.append_assoc, steps?_of_append hsteps, List.cons_append,
        steps?_of_cons step?_open_call]
      exact hsteps'
    · simp only [Operand.ofExpr, Expr.withoutSpans]
  | .literal hv =>
    intro ts ht stack
    refine reads_leaf ht fun span => ?_
    cases hv <;> exact ⟨_, rfl, by simp only [Expr.withoutSpans]⟩
  | .param i =>
    intro ts ht stack
    exact reads_leaf ht fun span => ⟨_, rfl, by simp only [Expr.withoutSpans]⟩
  | .ident n =>
    intro ts ht stack
    exact reads_leaf ht fun span => ⟨_, rfl, by simp only [Expr.withoutSpans]⟩
  | .tuple hi =>
    intro ts ht stack
    obtain ⟨opening, is, closing, rfl, his⟩ := exists_of_tokens_brackets ht
    obtain ⟨items, hsteps, rfl⟩ := reads_of_items hi his (.tuple opening) stack closing
    refine ⟨.ofExpr (.tuple (opening.join closing) items), ?_, ?_⟩
    · rw [List.cons_append, steps?_of_cons step?_open_tuple]
      exact hsteps
    · simp only [Operand.ofExpr, Expr.withoutSpans]
  | .group h =>
    intro ts ht stack
    obtain ⟨opening, is, closing, rfl, his⟩ := exists_of_tokens_brackets ht
    obtain ⟨above, x, y, hsteps, hy, hred⟩ :=
      (reads_of_derives h his (.group opening :: stack)).reduce_eq fun _ => trivial
    refine ⟨⟨y.expr, opening.join closing⟩, ?_, hy⟩
    rw [List.cons_append, steps?_of_cons step?_open_group, steps?_of_append hsteps,
      steps?_of_cons (step?_group hred), steps?_nil]

/-- The machine reads every list of items up to its end. -/
theorem reads_of_items {toks : List Token} {es : List Expr} (h : Items toks es) :
    ∀ {ts : List PlacedToken}, tokens ts = toks →
    ∀ (p : Purpose) (stack : List Frame) (closing : Span),
    ∃ items, steps? (.start (p.frame [] :: stack)) (ts ++ [⟨.symbol p.closer, closing⟩]) =
        some (.after stack (.ofExpr (p.node closing items))) ∧ Expr.withoutSpansAll items = es := by
  match h with
  | .empty =>
    intro ts ht p stack closing
    obtain rfl := List.map_eq_nil_iff.1 ht
    exact ⟨[], by rw [List.nil_append, steps?_of_cons step?_close_items, steps?_nil],
      Expr.withoutSpansAll_nil⟩
  | .plain h =>
    intro ts ht p stack closing
    obtain ⟨above, x, items, y, hsteps, hred, hes⟩ := reads_of_sequence h ht p stack
    exact ⟨_,
      by rw [steps?_of_append hsteps, steps?_of_cons (step?_close_operand hred), steps?_nil], hes⟩
  | .trailing h =>
    intro ts ht p stack closing
    obtain ⟨us, vs, rfl, hus, hvs⟩ := List.map_eq_append_iff.1 ht
    obtain ⟨⟨_, comma⟩, rfl, rfl⟩ := List.map_eq_singleton_iff.1 hvs
    obtain ⟨above, x, items, y, hsteps, hred, hes⟩ := reads_of_sequence h hus p stack
    refine ⟨_, ?_, hes⟩
    rw [List.append_assoc, steps?_of_append hsteps, List.cons_append,
      steps?_of_cons (step?_comma hred), List.nil_append, steps?_of_cons step?_close_items,
      steps?_nil]

/-- The machine reads every sequence up to its last expression, whose operators may still wait. -/
theorem reads_of_sequence {toks : List Token} {es : List Expr} (h : Sequence toks es) :
    ∀ {ts : List PlacedToken}, tokens ts = toks → ∀ (p : Purpose) (stack : List Frame),
    ∃ above x items y, steps? (.start (p.frame [] :: stack)) ts = some (.after above x) ∧
      reduce 0 above x = (p.frame items :: stack, y) ∧
      Expr.withoutSpansAll (items ++ [y.expr]) = es := by
  match h with
  | .one h =>
    intro ts ht p stack
    obtain ⟨above, x, y, hsteps, rfl, hred⟩ :=
      (reads_of_derives h ht (p.frame [] :: stack)).reduce_eq fun _ => stops_frame _ p [] stack
    exact ⟨above, x, [], y, hsteps, hred, by simp⟩
  | .more hs h =>
    intro ts ht p stack
    obtain ⟨us, vs, rfl, hus, hvs⟩ := List.map_eq_append_iff.1 ht
    obtain ⟨⟨_, comma⟩, ls, rfl, rfl, hls⟩ := List.map_eq_cons_iff.1 hvs
    obtain ⟨above, x, items, y, hsteps, hred, rfl⟩ := reads_of_sequence hs hus p stack
    obtain ⟨above', x', y', hsteps', rfl, hred'⟩ :=
      (reads_of_derives h hls (p.frame (items ++ [y.expr]) :: stack)).reduce_eq fun _ =>
        stops_frame _ p _ stack
    refine ⟨above', x', items ++ [y.expr], y', ?_, hred', by simp⟩
    rw [steps?_of_append hsteps, steps?_of_cons (step?_comma hred), hsteps']

end

/-- A sentence is read, and its tree is the one that the grammar gives. -/
theorem ofTokens_of_sentence {ts : List PlacedToken} {tree : Expr} (h : Sentence (tokens ts) tree)
    (n : Nat) : ∃ e, Expr.ofTokens n ts = .ok e ∧ e.withoutSpans = tree := by
  obtain ⟨above, x, y, hsteps, hy, hred⟩ := (reads_of_derives h rfl []).reduce_eq fun _ => trivial
  refine ⟨y.expr, run_eq_ok_iff.2 ⟨.after above x, hsteps, ?_⟩, hy⟩
  simp only [State.finish?, hred]

/-! ### Soundness -/

/-- What was read of a list of items when the next one has to start: nothing, or a sequence and a
comma. -/
inductive Listed : List Token → List Expr → Prop
  | empty : Listed [] []
  | comma {ts : List Token} {es : List Expr} : Sequence ts es → Listed (ts ++ [.symbol .comma]) es

/-- `Begins p ts`: the tokens `ts` are what stands before the items of a list. -/
def Purpose.Begins : Purpose → List Token → Prop
  | .tuple _, ts => ts = [.symbol .leftBracket]
  | .call f, ts => ∃ us, ts = us ++ [.symbol .leftParen] ∧ Derives .suffixed us f.expr.withoutSpans

/-- `Opens stack ts c`: the tokens `ts` leave `stack` open, which waits for a phrase of the category
`c`. -/
inductive Opens : List Frame → List Token → Category → Prop
  | nil : Opens [] [] .expr
  | binary {stack : List Frame} {ts us : List Token} {c : Category} {t : Tier} {s : Symbol}
      {op : BinaryOp} {l : Operand} : Opens stack ts c → c.rank ≤ t.rank → t.Has s op →
      Derives (.tier t) us l.expr.withoutSpans →
      Opens (.binary op l :: stack) (ts ++ us ++ [.symbol s]) t.operand
  | unary {stack : List Frame} {ts : List Token} {c : Category} {s : Symbol} {op : UnaryOp}
      (span : Span) : Opens stack ts c → Sign s op →
      Opens (.unary op span :: stack) (ts ++ [.symbol s]) .signed
  | group {stack : List Frame} {ts : List Token} {c : Category} (span : Span) : Opens stack ts c →
      Opens (.group span :: stack) (ts ++ [.symbol .leftParen]) .expr
  | index {stack : List Frame} {ts us : List Token} {c : Category} {b : Operand} :
      Opens stack ts c →
      Derives .suffixed us b.expr.withoutSpans →
      Opens (.index b :: stack) (ts ++ us ++ [.symbol .leftBracket]) .expr
  | tuple {stack : List Frame} {ts us vs : List Token} {c : Category} {span : Span}
      {items : List Expr} : Opens stack ts c → (Purpose.tuple span).Begins us →
      Listed vs (Expr.withoutSpansAll items) →
      Opens (.tuple span items :: stack) (ts ++ us ++ vs) .expr
  | call {stack : List Frame} {ts us vs : List Token} {c : Category} {f : Operand}
      {items : List Expr} : Opens stack ts c → (Purpose.call f).Begins us →
      Listed vs (Expr.withoutSpansAll items) → Opens (.call f items :: stack) (ts ++ us ++ vs) .expr

/-- `Traces s ts`: reading the tokens `ts` from the beginning leaves the parser in a state like `s`.
-/
def Traces : State → List Token → Prop
  | .start stack, ts => ∃ c, Opens stack ts c
  | .after stack x, ts =>
    ∃ c us vs, Opens stack us c ∧ Derives .suffixed vs x.expr.withoutSpans ∧ ts = us ++ vs
  | .member stack x, ts =>
    ∃ c us vs, Opens stack us c ∧ Derives .suffixed vs x.expr.withoutSpans ∧
      ts = us ++ vs ++ [.symbol .dot]

variable {ts us vs : List Token} {c : Category} {e : Expr} {es : List Expr}

theorem Opens.rank_le (h : Opens stack ts c) : c.rank ≤ 7 := by
  cases h with
  | @binary _ _ _ _ t => have := t.rank_le; simp only [Tier.rank_operand]; omega
  | nil | unary | group | index | tuple | call => decide

/-- A stack that operators of a level stop at waits for a phrase of that level, or one that is
looser. -/
theorem Opens.rank_le_of_stops (h : Opens stack ts c) {level : Nat} (hs : Stops level stack)
    (hl : 1 ≤ level) : c.rank ≤ level := by
  cases h with
  | binary _ _ hop _ =>
    have hlt : _ < level := hs
    rw [(Tier.has_iff.1 hop).2] at hlt
    rwa [Tier.rank_operand]
  | unary => exact hs.elim
  | nil | group | index | tuple | call => exact hl

/-- Applying waiting operators moves tokens from the stack to the operand, which stays as tight as
both the stack and the level demand. -/
theorem Opens.reduce (level : Nat) (hmax : level ≤ 7) (ho : Opens stack us c) {d : Category}
    (hd : Derives d vs x.expr.withoutSpans) (hc : c.rank ≤ d.rank) (hl : level ≤ d.rank) :
    ∃ us' vs' c' d', Opens (reduce level stack x).1 us' c' ∧
      Derives d' vs' (Parser.reduce level stack x).2.expr.withoutSpans ∧ c'.rank ≤ d'.rank ∧
      level ≤ d'.rank ∧ us' ++ vs' = us ++ vs := by
  -- along the recursion of `reduce`: the operand only grows, and each operator applied makes it as
  -- loose as its tier
  fun_induction Parser.reduce level stack x generalizing us vs c d with
  | case1 op s stack x ih =>
    cases ho with
    | @unary _ _ _ sym _ _ ho hsign =>
      have hx :
          Derives .signed (.symbol sym :: vs)
            (Expr.unary (s.join x.extent) op x.expr).withoutSpans := by
        simpa only [Expr.withoutSpans] using Derives.unary hsign (hd.loosen hc)
      obtain ⟨us', vs', c', d', h1, h2, h3, h4, h5⟩ := ih ho hx ho.rank_le hmax
      exact ⟨us', vs', c', d', h1, h2, h3, h4, by simp [h5]⟩
  | case2 op l stack x h ih =>
    cases ho with
    | @binary _ _ ls _ t sym _ _ ho hrank hop hleft =>
      have hx : Derives (.tier t) (ls ++ .symbol sym :: vs)
          (Expr.binary (l.extent.join x.extent) op l.expr x.expr).withoutSpans := by
        simpa only [Expr.withoutSpans] using Derives.binary hop hleft (hd.loosen hc)
      have ht : level ≤ t.rank := (Tier.has_iff.1 hop).2 ▸ h
      obtain ⟨us', vs', c', d', h1, h2, h3, h4, h5⟩ := ih ho hx hrank ht
      exact ⟨us', vs', c', d', h1, h2, h3, h4, by simp [h5]⟩
  | case3 op l stack x h => exact ⟨us, vs, c, d, ho, hd, hc, hl, rfl⟩
  | case4 stack x hu hb => exact ⟨us, vs, c, d, ho, hd, hc, hl, rfl⟩

/-- With all waiting operators applied, an operand is a whole expression. -/
theorem Opens.reduce_zero (ho : Opens stack us c) (hd : Derives .suffixed vs x.expr.withoutSpans)
    (hr : Parser.reduce 0 stack x = (rest, y)) :
    ∃ us' vs' c', Opens rest us' c' ∧ Derives .expr vs' y.expr.withoutSpans ∧
      us' ++ vs' = us ++ vs := by
  have hc : c.rank ≤ 8 := Nat.le_succ_of_le ho.rank_le
  obtain ⟨us', vs', c', d', h1, h2, -, -, h5⟩ :=
    Opens.reduce 0 (Nat.zero_le 7) ho hd hc (Nat.zero_le 8)
  rw [hr] at h1 h2
  exact ⟨us', vs', c', h1, h2.loosen d'.one_le_rank, h5⟩

theorem Listed.toItems (h : Listed ts es) : Items ts es := by
  cases h with
  | empty => exact .empty
  | comma h => exact .trailing h

theorem Listed.snoc (h : Listed ts es) (he : Derives .expr us e) :
    Sequence (ts ++ us) (es ++ [e]) := by
  cases h with
  | empty => exact .one he
  | comma h => simpa using Sequence.more h he

theorem Purpose.Begins.derives (hb : p.Begins us) (hi : Items vs (Expr.withoutSpansAll items)) :
    Derives .suffixed (us ++ vs ++ [.symbol p.closer]) (p.node span items).withoutSpans := by
  cases p with
  | tuple opening =>
    subst hb
    simpa [Purpose.node, Expr.withoutSpans, Purpose.closer] using Derives.atom (.tuple hi)
  | call f =>
    obtain ⟨fs, rfl, hf⟩ := hb
    simpa [Purpose.node, Expr.withoutSpans, Purpose.closer] using Derives.call hf hi

theorem Opens.frame_inv (h : Opens (p.frame items :: stack) ts c) :
    ∃ us vs ws c', Opens stack us c' ∧ p.Begins vs ∧ Listed ws (Expr.withoutSpansAll items) ∧
      ts = us ++ vs ++ ws := by
  cases p with
  | tuple opening =>
    cases h with
    | tuple ho hb hi => exact ⟨_, _, _, _, ho, hb, hi, rfl⟩
  | call f =>
    cases h with
    | call ho hb hi => exact ⟨_, _, _, _, ho, hb, hi, rfl⟩

theorem Opens.frame {ws : List Token} (h : Opens stack us c) (hb : p.Begins vs)
    (hi : Listed ws (Expr.withoutSpansAll items)) :
    Opens (p.frame items :: stack) (us ++ vs ++ ws) .expr := by
  cases p with
  | tuple opening => exact .tuple h hb hi
  | call f => exact .call h hb hi

theorem closeItems?_inv {s' : State} (h : closeItems? span s stack = some s') :
    ∃ (p : Purpose) (items : List Expr) (rest : List Frame), s = p.closer ∧
      stack = p.frame items :: rest ∧ s' = .after rest (.ofExpr (p.node span items)) := by
  unfold closeItems? at h
  split at h
  · next opening items rest =>
      exact ⟨.tuple opening, items, rest, rfl, rfl, (Option.some.inj h).symm⟩
  · next f items rest => exact ⟨.call f, items, rest, rfl, rfl, (Option.some.inj h).symm⟩
  · cases h

theorem closeOperand?_inv {s' : State} (h : closeOperand? span s stack x = some s') :
    (∃ opening rest, s = .rightParen ∧ stack = .group opening :: rest ∧
      s' = .after rest ⟨x.expr, opening.join span⟩) ∨
    (∃ b rest, s = .rightBracket ∧ stack = .index b :: rest ∧
      s' = .after rest (.ofExpr (.index (b.extent.join span) b.expr x.expr))) ∨
    (∃ (p : Purpose) (items : List Expr) (rest : List Frame), stack = p.frame items :: rest ∧
      ((s = p.closer ∧ s' = .after rest (.ofExpr (p.node span (items ++ [x.expr])))) ∨
        (s = .comma ∧ s' = .start (p.frame (items ++ [x.expr]) :: rest)))) := by
  unfold closeOperand? at h
  split at h
  · next _ opening rest => exact .inl ⟨opening, rest, rfl, rfl, (Option.some.inj h).symm⟩
  · next _ f items rest =>
    exact .inr (.inr ⟨.call f, items, rest, rfl, .inl ⟨rfl, (Option.some.inj h).symm⟩⟩)
  · next _ b rest => exact .inr (.inl ⟨b, rest, rfl, rfl, (Option.some.inj h).symm⟩)
  · next _ opening items rest =>
    exact .inr (.inr ⟨.tuple opening, items, rest, rfl, .inl ⟨rfl, (Option.some.inj h).symm⟩⟩)
  · next _ opening items rest =>
    exact .inr (.inr ⟨.tuple opening, items, rest, rfl, .inr ⟨rfl, (Option.some.inj h).symm⟩⟩)
  · next _ f items rest =>
    exact .inr (.inr ⟨.call f, items, rest, rfl, .inr ⟨rfl, (Option.some.inj h).symm⟩⟩)
  · cases h

theorem startSymbol?_inv {s' : State} (h : startSymbol? span stack s = some s') :
    (s = .leftParen ∧ s' = .start (.group span :: stack)) ∨
    (s = .leftBracket ∧ s' = .start (.tuple span [] :: stack)) ∨
    (∃ op, s.unaryOp? = some op ∧ s' = .start (.unary op span :: stack)) ∨
    closeItems? span s stack = some s' := by
  unfold startSymbol? at h
  split at h
  · exact .inl ⟨rfl, (Option.some.inj h).symm⟩
  · exact .inr (.inl ⟨rfl, (Option.some.inj h).symm⟩)
  · split at h
    · next op hop => exact .inr (.inr (.inl ⟨op, hop, (Option.some.inj h).symm⟩))
    · exact .inr (.inr (.inr h))

theorem afterSymbol?_inv {s' : State} (h : afterSymbol? span stack x s = some s') :
    (s = .leftBracket ∧ s' = .start (.index x :: stack)) ∨
    (s = .leftParen ∧ s' = .start (.call x [] :: stack)) ∨
    (s = .dot ∧ s' = .member stack x) ∨
    (∃ op, s.binaryOp? = some op ∧
      s' =
        .start (.binary op (reduce op.precedence stack x).2 :: (reduce op.precedence stack x).1)) ∨
    closeOperand? span s (reduce 0 stack x).1 (reduce 0 stack x).2 = some s' := by
  unfold afterSymbol? at h
  split at h
  · exact .inl ⟨rfl, (Option.some.inj h).symm⟩
  · exact .inr (.inl ⟨rfl, (Option.some.inj h).symm⟩)
  · exact .inr (.inr (.inl ⟨rfl, (Option.some.inj h).symm⟩))
  · split at h
    · next op hop => exact .inr (.inr (.inr (.inl ⟨op, hop, (Option.some.inj h).symm⟩)))
    · exact .inr (.inr (.inr (.inr h)))

theorem leaf?_derives {t : Token} (h : t.leaf? span = some e) :
    Derives .suffixed [t] e.withoutSpans := by
  refine .atom ?_
  cases t <;> simp only [Token.leaf?, Option.some.injEq, reduceCtorEq] at h <;> subst h <;>
    simp only [Expr.withoutSpans]
  · exact .literal (.bool _)
  · exact .literal .null
  · exact .param _
  · exact .literal (.float _)
  · exact .literal (.int _)
  · exact .literal (.str _)
  · exact .ident _

theorem Traces.start_symbol {s' : State} (h : Traces (.start stack) ts)
    (hs : startSymbol? span stack s = some s') : Traces s' (ts ++ [.symbol s]) := by
  obtain ⟨c, ho⟩ := h
  rcases startSymbol?_inv hs with ⟨rfl, rfl⟩ | ⟨rfl, rfl⟩ | ⟨op, hop, rfl⟩ | hclose
  · exact ⟨_, .group span ho⟩
  · have hb : (Purpose.tuple span).Begins [.symbol .leftBracket] := rfl
    have hopen := ho.frame hb (Expr.withoutSpansAll_nil ▸ Listed.empty)
    rw [List.append_nil] at hopen
    exact ⟨.expr, hopen⟩
  · exact ⟨_, .unary span ho (sign_iff.2 hop)⟩
  · obtain ⟨p, items, rest, rfl, rfl, rfl⟩ := closeItems?_inv hclose
    obtain ⟨us, vs, ws, c', ho', hb, hi, rfl⟩ := ho.frame_inv
    exact ⟨c', us, _, ho', hb.derives hi.toItems, by simp⟩

theorem Traces.after_symbol {s' : State} (h : Traces (.after stack x) ts)
    (hs : afterSymbol? span stack x s = some s') : Traces s' (ts ++ [.symbol s]) := by
  obtain ⟨c, us, vs, ho, hx, rfl⟩ := h
  rcases afterSymbol?_inv hs with ⟨rfl, rfl⟩ | ⟨rfl, rfl⟩ | ⟨rfl, rfl⟩ | ⟨op, hop, rfl⟩ | hclose
  · exact ⟨_, .index ho hx⟩
  · have hb : (Purpose.call x).Begins (vs ++ [.symbol .leftParen]) := ⟨vs, rfl, hx⟩
    have hopen := ho.frame hb (Expr.withoutSpansAll_nil ▸ Listed.empty)
    rw [List.append_nil, ← List.append_assoc] at hopen
    exact ⟨.expr, hopen⟩
  · exact ⟨c, us, vs, ho, hx, rfl⟩
  · obtain ⟨t, ht⟩ := Tier.exists_has hop
    have hprec := (Tier.has_iff.1 ht).2
    have hmax := t.rank_le
    obtain ⟨us', vs', c', d', ho', hd', -, hl', htoks⟩ :=
      Opens.reduce op.precedence (by omega) ho hx (Nat.le_succ_of_le ho.rank_le)
        (by simp only [Category.rank]; omega)
    -- what still waits binds less tightly, so the operator may stand on top of it
    have hc : c'.rank ≤ t.rank :=
      ho'.rank_le_of_stops (hprec ▸ stops_reduce _ stack x) t.one_le_rank
    have hleft : Derives (.tier t) _ _ := hd'.loosen (hprec ▸ hl' : t.rank ≤ d'.rank)
    exact ⟨_, by simpa [← htoks] using Opens.binary ho' hc ht hleft⟩
  · obtain ⟨us', vs', c', ho', hd', htoks⟩ := ho.reduce_zero hx rfl
    rw [← htoks]
    rcases closeOperand?_inv hclose with ⟨opening, rest, rfl, hst, rfl⟩ | ⟨b, rest, rfl, hst, rfl⟩ |
      ⟨p, items, rest, hst, ⟨rfl, rfl⟩ | ⟨rfl, rfl⟩⟩ <;> rw [hst] at ho'
    · cases ho' with
      | group _ ho' => exact ⟨_, _, _, ho', .atom (.group hd'), by simp⟩
    · cases ho' with
      | index ho' hb =>
        exact ⟨_, _, _, ho',
          by simpa only [Operand.ofExpr, Expr.withoutSpans] using Derives.index hb hd', by simp⟩
    · obtain ⟨as, bs, is, c'', ho'', hb, hi, rfl⟩ := ho'.frame_inv
      have hitems := Items.plain (hi.snoc hd')
      exact ⟨c'', as, _, ho'', hb.derives (by simpa using hitems), by simp⟩
    · obtain ⟨as, bs, is, c'', ho'', hb, hi, rfl⟩ := ho'.frame_inv
      have hlisted := Listed.comma (hi.snoc hd')
      exact ⟨.expr, by simpa using ho''.frame hb (by simpa using hlisted)⟩

/-- A step keeps the trace, one token longer. -/
theorem Traces.step {st st' : State} {t : PlacedToken} (h : Traces st ts)
    (hs : step? st t = some st') : Traces st' (ts ++ [t.token]) := by
  unfold step? at hs
  split at hs
  · exact h.start_symbol hs
  · obtain ⟨e, he, rfl⟩ := Option.map_eq_some_iff.1 hs
    obtain ⟨c, ho⟩ := h
    exact ⟨c, ts, _, ho, leaf?_derives he, rfl⟩
  · exact h.after_symbol hs
  · cases hs
  · obtain ⟨c, us, vs, ho, hx, rfl⟩ := h
    cases hs
    have hfield := Derives.field ‹String› hx
    exact ⟨c, us, _, ho, by simpa only [Operand.ofExpr, Expr.withoutSpans] using hfield, by simp⟩
  · cases hs

/-- A run keeps the trace. -/
theorem Traces.steps {st st' : State} {ps : List PlacedToken} (h : Traces st ts)
    (hs : steps? st ps = some st') : Traces st' (ts ++ tokens ps) := by
  induction ps generalizing st ts with
  | nil =>
    cases hs
    simpa using h
  | cons t ps ih =>
    rw [steps?_cons, Option.bind_eq_some_iff] at hs
    obtain ⟨st1, h1, h2⟩ := hs
    simpa using ih (h.step h1) h2

/-- What the parser accepts is a sentence, and the tree is one that the grammar gives it. -/
theorem sentence_of_ofTokens {n : Nat} {ps : List PlacedToken} (h : Expr.ofTokens n ps = .ok e) :
    Sentence (tokens ps) e.withoutSpans := by
  obtain ⟨st, hsteps, hfin⟩ := run_eq_ok_iff.1 h
  have hstart : Traces (.start []) [] := ⟨.expr, .nil⟩
  have htrace : Traces st (tokens ps) := hstart.steps hsteps
  cases st with
  | start stack => cases hfin
  | member stack x => cases hfin
  | after stack x =>
    obtain ⟨c, us, vs, ho, hx, htoks⟩ := htrace
    simp only [State.finish?] at hfin
    split at hfin
    · next y hred =>
      obtain ⟨us', vs', c', ho', hd, heq⟩ := ho.reduce_zero hx hred
      cases hfin
      cases ho'
      rw [htoks, ← heq]
      exact hd
    · cases hfin

/-- **The parser accepts exactly the sentences of the grammar**, and the tree it gives is the only
one that the grammar has for them. -/
theorem ofTokens_iff_sentence (n : Nat) (ts : List PlacedToken) :
    ((∃ e, Expr.ofTokens n ts = .ok e) ↔ ∃ tree, Sentence (tokens ts) tree) ∧
      ∀ e, Expr.ofTokens n ts = .ok e →
        ∀ tree, Sentence (tokens ts) tree ↔ tree = e.withoutSpans := by
  refine ⟨⟨?_, ?_⟩, ?_⟩
  · rintro ⟨e, he⟩
    exact ⟨e.withoutSpans, sentence_of_ofTokens he⟩
  · rintro ⟨tree, htree⟩
    obtain ⟨e, he, -⟩ := ofTokens_of_sentence htree n
    exact ⟨e, he⟩
  · intro e he tree
    constructor
    · intro htree
      obtain ⟨e', he', rfl⟩ := ofTokens_of_sentence htree n
      rw [he] at he'
      cases he'
      rfl
    · rintro rfl
      exact sentence_of_ofTokens he

end Parser

end Dataflow
