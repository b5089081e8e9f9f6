import Dataflow.Expr.Basic
import Dataflow.Number.Decimal
import Dataflow.Script.Quote

/-!
# Expressions in the target language

`Expr.render` writes an expression with names for its parameters. Parentheses stand only where the
reading would change without them: around an operand that binds less tightly, around a right operand
of equal precedence, and around whatever is no atom before a postfix operator.
-/

namespace Dataflow

/-- An operator in the target language, where equality is the strict one. -/
def BinaryOp.targetSymbol : BinaryOp → String
  | mul => "*"
  | div => "/"
  | rem => "%"
  | add => "+"
  | sub => "-"
  | less => "<"
  | lessEqual => "<="
  | greater => ">"
  | greaterEqual => ">="
  | equal => "==="
  | notEqual => "!=="
  | and => "&&"
  | or => "||"

/-- A prefix operator in the target language. -/
def UnaryOp.targetSymbol : UnaryOp → String
  | neg => "-"
  | not => "!"

/-- A literal in the target language. -/
def Literal.render : Literal → String
  | int n => toString n.toInt
  | float x => x.literalText
  | str s => Script.quote s
  | bool true => "true"
  | bool false => "false"
  | null => "null"

namespace Expr

/-- An operator applied, or an integer, whose digits would run into a following point. -/
def wrapsAsBase : Expr → Bool
  | binary .. | unary .. | literal _ (.int _) => true
  | _ => false

/-- An operator applied. -/
def wrapsAsOperand : Expr → Bool
  | binary .. | unary .. => true
  | _ => false

/-- A left operand that binds less tightly than the operator after it. -/
def wrapsOnLeft (op : BinaryOp) : Expr → Bool
  | binary _ o _ _ => o.precedence < op.precedence
  | _ => false

/-- A right operand that does not bind more tightly than the operator before it. -/
def wrapsOnRight (op : BinaryOp) : Expr → Bool
  | binary _ o _ _ => o.precedence ≤ op.precedence
  | _ => false

/-- Put parentheses around a text where they are needed. -/
def parenthesize (needed : Bool) (text : String) : String :=
  if needed then "(" ++ text ++ ")" else text

mutual

/-- Write an expression in the target language; `params` names the positional parameters, and one
without a name is written `undefined`. -/
def render (params : List String) : Expr → String
  | literal _ v => v.render
  | param _ i => params[i.toNat]?.getD "undefined"
  | ident _ n => n
  | tuple _ items => "[" ++ renderItems params items ++ "]"
  | index _ b i => parenthesize b.wrapsAsBase (render params b) ++ "[" ++ render params i ++ "]"
  | field _ b n => parenthesize b.wrapsAsBase (render params b) ++ "." ++ n
  | call _ f args =>
    parenthesize f.wrapsAsBase (render params f) ++ "(" ++ renderItems params args ++ ")"
  | unary _ op e => op.targetSymbol ++ parenthesize e.wrapsAsOperand (render params e)
  | binary _ op l r =>
    parenthesize (l.wrapsOnLeft op) (render params l) ++ " " ++ op.targetSymbol ++ " " ++
      parenthesize (r.wrapsOnRight op) (render params r)

/-- Write expressions with commas between them. -/
def renderItems (params : List String) : List Expr → String
  | [] => ""
  | [e] => render params e
  | e :: es => render params e ++ ", " ++ renderItems params es

end

end Expr

end Dataflow
