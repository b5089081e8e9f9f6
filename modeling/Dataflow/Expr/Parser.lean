import Dataflow.Expr.Basic
import Dataflow.Token.Lexer

/-!
# Parser of the expression language

The parser is a stack machine that takes one step per token, so the first token that cannot continue
an expression is the one at which a step fails. Its grammar, loosest level first, is

* `||`, then `&&`, then `== !=`, then `< <= > >=`, then `+ -`, then `* / %`, all grouping to the
  left;
* the prefix operators `-` and `!`;
* the postfix forms `e[i]`, `e.name` and `e(items)`;
* literals, parameters, names, tuples `[items]` and groups `(e)`, where items may end in a comma.

The stack holds what stands open around the operand in hand: operators that wait for their right
operand, and open brackets with what was read before them. A node spans its own first to last token.
Parentheses around an operand belong to no node, but count as part of the operand for the node
around it.
-/

namespace Dataflow

/-! ### Operators of tokens -/

/-- The operator between operands that a symbol stands for. -/
def Symbol.binaryOp? : Symbol → Option BinaryOp
  | star => some .mul
  | slash => some .div
  | percent => some .rem
  | plus => some .add
  | minus => some .sub
  | less => some .less
  | lessEqual => some .lessEqual
  | greater => some .greater
  | greaterEqual => some .greaterEqual
  | equal => some .equal
  | notEqual => some .notEqual
  | and => some .and
  | or => some .or
  | _ => none

/-- The prefix operator that a symbol stands for. -/
def Symbol.unaryOp? : Symbol → Option UnaryOp
  | minus => some .neg
  | bang => some .not
  | _ => none

/-- The expression that a token is by itself. -/
def Token.leaf? (span : Span) : Token → Option Expr
  | bool b => some (.literal span (.bool b))
  | null => some (.literal span .null)
  | int n => some (.literal span (.int n))
  | float x => some (.literal span (.float x))
  | str s => some (.literal span (.str s))
  | param i => some (.param span i)
  | ident n => some (.ident span n)
  | symbol _ => none

namespace Parser

/-! ### Stack and state -/

/-- A complete operand: its expression, and its place with the parentheses around it. -/
structure Operand where
  expr : Expr
  extent : Span
deriving Inhabited

/-- An operand that is one node, without parentheses around it. -/
def Operand.ofExpr (e : Expr) : Operand := ⟨e, e.span⟩

/-- Something left open to the left of the operand in hand: an operator with its left operand, a
prefix operator, a parenthesis, the bracket behind a base, or a tuple or call with the items read so
far. -/
inductive Frame
  | binary (op : BinaryOp) (left : Operand)
  | unary (op : UnaryOp) (span : Span)
  | group (opening : Span)
  | index (base : Operand)
  | tuple (opening : Span) (items : List Expr)
  | call (callee : Operand) (arguments : List Expr)
deriving Inhabited

/-- Where the parser stands: an operand has to start, or one is complete and may be continued, or a
field name has to follow it. The innermost open frame comes first. -/
inductive State
  | start (stack : List Frame)
  | after (stack : List Frame) (operand : Operand)
  | member (stack : List Frame) (operand : Operand)
deriving Inhabited

/-! ### Expectations -/

/-- Something the parser could have gone on with. -/
inductive Expectation
  | symbol (s : Symbol) | name | endOfInput | somethingElse
deriving DecidableEq, Inhabited

/-- How an expectation is shown. -/
def Expectation.text : Expectation → String
  | symbol s => "'" ++ s.text ++ "'"
  | name => "'<ident>'"
  | endOfInput => "end of input"
  | somethingElse => "something else"

/-- Join alternatives: commas between them, and `or` before the last of several. -/
def alternatives : List String → String
  | [] => ""
  | [a] => a
  | [a, b] => a ++ ", or " ++ b
  | a :: rest => a ++ ", " ++ alternatives rest

/-- What may end an operand, by the innermost open bracket. -/
def closers : List Frame → List Expectation
  | [] => [.endOfInput]
  | .binary .. :: stack | .unary .. :: stack => closers stack
  | .group _ :: _ => [.symbol .rightParen]
  | .index _ :: _ => [.symbol .rightBracket]
  | .tuple .. :: _ => [.symbol .comma, .symbol .rightBracket]
  | .call .. :: _ => [.symbol .comma, .symbol .rightParen]

/-- What may stand in place of an operand: the end of the list of items that it would join. -/
def emptyClosers : List Frame → List Expectation
  | .tuple .. :: _ => [.symbol .rightBracket]
  | .call .. :: _ => [.symbol .rightParen]
  | _ => []

/-- What the parser could go on with. -/
def State.expected : State → List Expectation
  | start stack =>
    [.somethingElse, .name, .symbol .leftBracket, .symbol .leftParen] ++ emptyClosers stack
  | after stack _ =>
    [.symbol .leftBracket, .symbol .dot, .symbol .leftParen, .somethingElse, .symbol .and,
      .symbol .or] ++ closers stack
  | member _ _ => [.name]

/-! ### Steps -/

/-- Apply the waiting operators that bind at least as tightly as `level` to the operand in hand.
Prefix operators bind more tightly than any level. -/
def reduce (level : Nat) : List Frame → Operand → List Frame × Operand
  | .unary op s :: stack, x => reduce level stack (.ofExpr (.unary (s.join x.extent) op x.expr))
  | .binary op l :: stack, x =>
    if level ≤ op.precedence then
      reduce level stack (.ofExpr (.binary (l.extent.join x.extent) op l.expr x.expr))
    else (.binary op l :: stack, x)
  | stack, x => (stack, x)

/-- A closing bracket in place of an operand ends an empty list of items, or one with a final comma.
-/
def closeItems? (closing : Span) : Symbol → List Frame → Option State
  | .rightBracket, .tuple s items :: stack =>
    some (.after stack (.ofExpr (.tuple (s.join closing) items)))
  | .rightParen, .call f args :: stack =>
    some (.after stack (.ofExpr (.call (f.extent.join closing) f.expr args)))
  | _, _ => none

/-- A closing bracket or comma after a complete operand, all waiting operators applied. -/
def closeOperand? (closing : Span) : Symbol → List Frame → Operand → Option State
  | .rightParen, .group s :: stack, x => some (.after stack ⟨x.expr, s.join closing⟩)
  | .rightParen, .call f args :: stack, x =>
    some (.after stack (.ofExpr (.call (f.extent.join closing) f.expr (args ++ [x.expr]))))
  | .rightBracket, .index b :: stack, x =>
    some (.after stack (.ofExpr (.index (b.extent.join closing) b.expr x.expr)))
  | .rightBracket, .tuple s items :: stack, x =>
    some (.after stack (.ofExpr (.tuple (s.join closing) (items ++ [x.expr]))))
  | .comma, .tuple s items :: stack, x => some (.start (.tuple s (items ++ [x.expr]) :: stack))
  | .comma, .call f args :: stack, x => some (.start (.call f (args ++ [x.expr]) :: stack))
  | _, _, _ => none

/-- A symbol where an operand has to start. -/
def startSymbol? (span : Span) (stack : List Frame) : Symbol → Option State
  | .leftParen => some (.start (.group span :: stack))
  | .leftBracket => some (.start (.tuple span [] :: stack))
  | s =>
    match s.unaryOp? with
    | some op => some (.start (.unary op span :: stack))
    | none => closeItems? span s stack

/-- A symbol after a complete operand. -/
def afterSymbol? (span : Span) (stack : List Frame) (x : Operand) : Symbol → Option State
  | .leftBracket => some (.start (.index x :: stack))
  | .leftParen => some (.start (.call x [] :: stack))
  | .dot => some (.member stack x)
  | s =>
    match s.binaryOp? with
    | some op =>
      let (stack, x) := reduce op.precedence stack x
      some (.start (.binary op x :: stack))
    | none =>
      let (stack, x) := reduce 0 stack x
      closeOperand? span s stack x

/-- Take one token; none if it cannot continue the expression. -/
def step? : State → PlacedToken → Option State
  | .start stack, ⟨.symbol s, span⟩ => startSymbol? span stack s
  | .start stack, ⟨t, span⟩ => (t.leaf? span).map fun e => .after stack (.ofExpr e)
  | .after stack x, ⟨.symbol s, span⟩ => afterSymbol? span stack x s
  | .after _ _, _ => none
  | .member stack x, ⟨.ident n, span⟩ =>
    some (.after stack (.ofExpr (.field (x.extent.join span) x.expr n)))
  | .member _ _, _ => none

/-- The expression read when the tokens end here, if it is complete. -/
def State.finish? : State → Option Expr
  | after stack x =>
    match reduce 0 stack x with
    | ([], x) => some x.expr
    | _ => none
  | _ => none

end Parser

/-! ### Parsing -/

/-- The first place where the tokens stop being part of an expression: the token found there, unless
the input ends, and what could have stood there. -/
structure SyntaxError where
  found : Option Token
  span : Span
  expected : List Parser.Expectation
deriving Inhabited

/-- What is reported about a syntax error. -/
def SyntaxError.message (e : SyntaxError) : String :=
  let found := match e.found with
    | some t => "'" ++ t.text ++ "'"
    | none => "end of input"
  "found " ++ found ++ " expected " ++ Parser.alternatives (e.expected.map Parser.Expectation.text)

/-- Run the parser from a state; `length` is the byte length of the source. -/
def Parser.run (length : Nat) : Parser.State → List PlacedToken → Except SyntaxError Expr
  | s, [] =>
    match s.finish? with
    | some e => .ok e
    | none => .error ⟨none, .empty length, s.expected⟩
  | s, t :: ts =>
    match Parser.step? s t with
    | some s' => Parser.run length s' ts
    | none => .error ⟨some t.token, t.span, s.expected⟩

/-- The expression that a list of tokens is. -/
def Expr.ofTokens (length : Nat) (ts : List PlacedToken) : Except SyntaxError Expr :=
  Parser.run length (.start []) ts

/-- A fault of an expression's source: text that is no token, or a token that cannot continue the
expression. -/
inductive ParseError
  | lexical (e : LexError)
  | syntactic (e : SyntaxError)
deriving Inhabited

/-- The place of a fault. -/
def ParseError.span : ParseError → Span
  | lexical e => e.span
  | syntactic e => e.span

/-- What is reported about a fault. -/
def ParseError.message : ParseError → String
  | lexical e => e.message
  | syntactic e => e.message

/-- The outcome of parsing: the tree of the tokens, if they form one, and all faults. Refused text
comes first, in source order, and then the syntax error if there is one. -/
structure Parsed where
  expr : Option Expr
  errors : List ParseError
deriving Inhabited

/-- A tree and no fault. -/
def Parsed.isOk (p : Parsed) : Bool := p.expr.isSome && p.errors.isEmpty

/-- Parse the source of an expression. -/
def Expr.parse (source : String) : Parsed :=
  let lexed := lex source
  let lexical := lexed.errors.map ParseError.lexical
  match Expr.ofTokens source.utf8ByteSize lexed.tokens with
  | .ok e => ⟨some e, lexical⟩
  | .error e => ⟨none, lexical ++ [.syntactic e]⟩

end Dataflow
