import Dataflow.Number.Binary64
import Dataflow.Text.Span

/-!
# Expressions

The functions of a dataflow graph are expressions over positional parameters and names. Every node
carries the span of its source text.
-/

namespace Dataflow

/-- A literal value. -/
inductive Literal
  | int (value : Int64)
  | float (value : Binary64)
  | str (value : String)
  | bool (value : Bool)
  | null
deriving DecidableEq, Inhabited

/-- A prefix operator. -/
inductive UnaryOp
  | neg | not
deriving DecidableEq, Inhabited

/-- An operator between two operands. -/
inductive BinaryOp
  | mul | div | rem | add | sub | less | lessEqual | greater | greaterEqual | equal | notEqual | and
  | or
deriving DecidableEq, Inhabited

/-- How tightly an operator binds. -/
def BinaryOp.precedence : BinaryOp → Nat
  | mul | div | rem => 6
  | add | sub => 5
  | less | lessEqual | greater | greaterEqual => 4
  | equal | notEqual => 3
  | and => 2
  | or => 1

/-- An expression with the spans of its nodes. -/
inductive Expr
  | literal (span : Span) (value : Literal)
  | param (span : Span) (index : UInt32)
  | ident (span : Span) (name : String)
  | tuple (span : Span) (items : List Expr)
  | index (span : Span) (base position : Expr)
  | field (span : Span) (base : Expr) (name : String)
  | call (span : Span) (callee : Expr) (arguments : List Expr)
  | unary (span : Span) (op : UnaryOp) (operand : Expr)
  | binary (span : Span) (op : BinaryOp) (left right : Expr)
deriving Inhabited

namespace Expr

/-- The place of an expression in its source. -/
def span : Expr → Span
  | literal s _ | param s _ | ident s _ | tuple s _ | index s _ _ | field s _ _ | call s _ _
  | unary s _ _
  | binary s _ _ _ => s

mutual

/-- The same expression with every span empty: two expressions agree up to spans when these are
equal. -/
def withoutSpans : Expr → Expr
  | literal _ v => literal default v
  | param _ i => param default i
  | ident _ n => ident default n
  | tuple _ items => tuple default (withoutSpansAll items)
  | index _ b i => index default b.withoutSpans i.withoutSpans
  | field _ b n => field default b.withoutSpans n
  | call _ f args => call default f.withoutSpans (withoutSpansAll args)
  | unary _ op e => unary default op e.withoutSpans
  | binary _ op l r => binary default op l.withoutSpans r.withoutSpans

/-- Every expression of a list without its spans. -/
def withoutSpansAll : List Expr → List Expr
  | [] => []
  | e :: es => e.withoutSpans :: withoutSpansAll es

end

end Expr

end Dataflow
