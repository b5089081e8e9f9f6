import Dataflow.Expr.Basic
import Dataflow.Token.Basic

/-!
# The grammar of the expression language

The sentences of the language and their trees, as a relation between lists of tokens and expressions
without spans:

* `expr` is the loosest of six tiers of operators: `||`, `&&`, `== !=`, `< <= > >=`, `+ -`, `* / %`.
  A phrase of a tier is one or more phrases of the next, with operators of the tier between them,
  folded to the left;
* below the tiers stand phrases with the signs `-` and `!` in front, folded to the right;
* below these an atom with any number of `[expr]`, `.name` and `(items)` behind it;
* an atom is a literal, a parameter, a name, a tuple `[items]` or a group `(expr)`;
* `items` is empty, or expressions with commas between them and perhaps one more at the end.

A repetition that is folded to the left is a rule that recurs on its left, so that each rule adds
the node that its last repetition stands for.
-/

namespace Dataflow.Grammar

/-- The levels of operators between operands, loosest first. -/
inductive Tier
  | disjunction | conjunction | equality | comparison | sum | product
deriving DecidableEq

/-- The operators of a tier, with their symbols. -/
inductive Tier.Has : Tier → Symbol → BinaryOp → Prop
  | or : Has disjunction .or .or
  | and : Has conjunction .and .and
  | equal : Has equality .equal .equal
  | notEqual : Has equality .notEqual .notEqual
  | less : Has comparison .less .less
  | lessEqual : Has comparison .lessEqual .lessEqual
  | greater : Has comparison .greater .greater
  | greaterEqual : Has comparison .greaterEqual .greaterEqual
  | add : Has sum .plus .add
  | sub : Has sum .minus .sub
  | mul : Has product .star .mul
  | div : Has product .slash .div
  | rem : Has product .percent .rem

/-- The signs that stand before an operand. -/
inductive Sign : Symbol → UnaryOp → Prop
  | neg : Sign .minus .neg
  | not : Sign .bang .not

/-- The tokens that are literals, with their values. -/
inductive Constant : Token → Literal → Prop
  | bool (b : Bool) : Constant (.bool b) (.bool b)
  | null : Constant .null .null
  | int (n : Int64) : Constant (.int n) (.int n)
  | float (x : Binary64) : Constant (.float x) (.float x)
  | str (s : String) : Constant (.str s) (.str s)

/-- The sorts of phrases that are one expression: operands with operators of a tier between them, an
operand with signs before it, an atom with postfix forms behind it, and an atom, which is in
brackets or has no operators. -/
inductive Category
  | tier (t : Tier)
  | signed
  | suffixed
  | atom
deriving DecidableEq

/-- The category of a whole expression. -/
abbrev Category.expr : Category := .tier .disjunction

/-- The category of the operands of a tier. -/
def Tier.operand : Tier → Category
  | disjunction => .tier .conjunction
  | conjunction => .tier .equality
  | equality => .tier .comparison
  | comparison => .tier .sum
  | sum => .tier .product
  | product => .signed

mutual

/-- `Derives c ts e`: the tokens `ts` are a phrase of the category `c`, and its tree is `e`. -/
inductive Derives : Category → List Token → Expr → Prop
  | operand {t : Tier} {ts : List Token} {e : Expr} : Derives t.operand ts e →
      Derives (.tier t) ts e
  | binary {t : Tier} {s : Symbol} {op : BinaryOp} {ts us : List Token} {e f : Expr} :
      t.Has s op → Derives (.tier t) ts e → Derives t.operand us f →
      Derives (.tier t) (ts ++ .symbol s :: us) (.binary default op e f)
  | unsigned {ts : List Token} {e : Expr} : Derives .suffixed ts e → Derives .signed ts e
  | unary {s : Symbol} {op : UnaryOp} {ts : List Token} {e : Expr} : Sign s op →
      Derives .signed ts e →
      Derives .signed (.symbol s :: ts) (.unary default op e)
  | atom {ts : List Token} {e : Expr} : Derives .atom ts e → Derives .suffixed ts e
  | index {ts us : List Token} {e f : Expr} : Derives .suffixed ts e → Derives .expr us f →
      Derives .suffixed (ts ++ .symbol .leftBracket :: us ++ [.symbol .rightBracket])
        (.index default e f)
  | field {ts : List Token} {e : Expr} (n : String) : Derives .suffixed ts e →
      Derives .suffixed (ts ++ [.symbol .dot, .ident n]) (.field default e n)
  | call {ts us : List Token} {e : Expr} {es : List Expr} : Derives .suffixed ts e → Items us es →
      Derives .suffixed (ts ++ .symbol .leftParen :: us ++ [.symbol .rightParen])
        (.call default e es)
  | literal {token : Token} {v : Literal} : Constant token v →
      Derives .atom [token] (.literal default v)
  | param (i : UInt32) : Derives .atom [.param i] (.param default i)
  | ident (n : String) : Derives .atom [.ident n] (.ident default n)
  | tuple {ts : List Token} {es : List Expr} : Items ts es →
      Derives .atom (.symbol .leftBracket :: ts ++ [.symbol .rightBracket]) (.tuple default es)
  | group {ts : List Token} {e : Expr} : Derives .expr ts e →
      Derives .atom (.symbol .leftParen :: ts ++ [.symbol .rightParen]) e

/-- The items of a tuple or call. -/
inductive Items : List Token → List Expr → Prop
  | empty : Items [] []
  | plain {ts : List Token} {es : List Expr} : Sequence ts es → Items ts es
  | trailing {ts : List Token} {es : List Expr} : Sequence ts es → Items (ts ++ [.symbol .comma]) es

/-- Expressions with commas between them. -/
inductive Sequence : List Token → List Expr → Prop
  | one {ts : List Token} {e : Expr} : Derives .expr ts e → Sequence ts [e]
  | more {ts us : List Token} {es : List Expr} {e : Expr} : Sequence ts es → Derives .expr us e →
      Sequence (ts ++ .symbol .comma :: us) (es ++ [e])

end

/-- A list of tokens is an expression, with the given tree. -/
abbrev Sentence (ts : List Token) (e : Expr) : Prop := Derives .expr ts e

/-! ### Ranks -/

/-- How tightly the operators of a tier bind. -/
def Tier.rank : Tier → Nat
  | disjunction => 1
  | conjunction => 2
  | equality => 3
  | comparison => 4
  | sum => 5
  | product => 6

/-- How tightly a phrase of a category holds together. -/
def Category.rank : Category → Nat
  | tier t => t.rank
  | signed => 7
  | suffixed => 8
  | atom => 9

/-- The category just inside a category; an atom has none. -/
def Category.inner : Category → Category
  | tier t => t.operand
  | signed => suffixed
  | suffixed | atom => atom

theorem Tier.one_le_rank (t : Tier) : 1 ≤ t.rank := by cases t <;> decide

theorem Tier.rank_le (t : Tier) : t.rank ≤ 6 := by cases t <;> decide

@[simp] theorem Tier.rank_operand (t : Tier) : t.operand.rank = t.rank + 1 := by cases t <;> rfl

theorem Category.one_le_rank (c : Category) : 1 ≤ c.rank := by
  cases c with
  | tier t => exact t.one_le_rank
  | signed | suffixed | atom => decide

theorem Category.rank_le (c : Category) : c.rank ≤ 9 := by
  cases c with
  | tier t => exact Nat.le_trans t.rank_le (by decide)
  | signed | suffixed | atom => decide

theorem Category.rank_inner {c : Category} (h : c ≠ .atom) : c.inner.rank = c.rank + 1 := by
  cases c with
  | tier t => exact t.rank_operand
  | signed | suffixed => rfl
  | atom => contradiction

/-- The category of a rank. -/
def Category.ofRank : Nat → Category
  | 1 => tier .disjunction
  | 2 => tier .conjunction
  | 3 => tier .equality
  | 4 => tier .comparison
  | 5 => tier .sum
  | 6 => tier .product
  | 7 => signed
  | 8 => suffixed
  | _ => atom

theorem Category.ofRank_rank (c : Category) : ofRank c.rank = c := by
  cases c with
  | tier t => cases t <;> rfl
  | signed | suffixed | atom => rfl

theorem Category.rank_injective {c d : Category} (h : c.rank = d.rank) : c = d := by
  rw [← c.ofRank_rank, h, d.ofRank_rank]

variable {ts : List Token} {e : Expr}

theorem Derives.of_inner {c : Category} (h : Derives c.inner ts e) : Derives c ts e := by
  cases c with
  | tier t => exact .operand h
  | signed => exact .unsigned h
  | suffixed => exact .atom h
  | atom => exact h

/-- A phrase that holds together more tightly than needed will do. -/
theorem Derives.loosen {c d : Category} (h : Derives c ts e) (hr : d.rank ≤ c.rank) :
    Derives d ts e := by
  obtain ⟨n, hn⟩ := Nat.exists_eq_add_of_le hr
  induction n generalizing d with
  | zero => exact Category.rank_injective hn ▸ h
  | succ n ih =>
    by_cases hd : d = .atom
    · have := c.rank_le
      subst hd
      simp only [Category.rank] at hn this
      omega
    · have hi := Category.rank_inner hd
      exact (ih (d := d.inner) (by omega) (by omega)).of_inner

end Dataflow.Grammar
