import Dataflow.Number.Decimal
import Dataflow.Text.Span

/-!
# Tokens of the expression language

A token is a keyword, a symbol, a literal, a parameter `$i` or a name. Numbers carry their value and
strings their text with escapes undone.
-/

namespace Dataflow

/-- Punctuation and operator symbols. -/
inductive Symbol
  | leftParen | rightParen | leftBracket | rightBracket | comma | dot
  | plus | minus | star | slash | percent | bang
  | equal | notEqual | less | lessEqual | greater | greaterEqual | and | or
deriving DecidableEq, Inhabited

/-- How a symbol is written. -/
def Symbol.text : Symbol → String
  | leftParen => "("
  | rightParen => ")"
  | leftBracket => "["
  | rightBracket => "]"
  | comma => ","
  | dot => "."
  | plus => "+"
  | minus => "-"
  | star => "*"
  | slash => "/"
  | percent => "%"
  | bang => "!"
  | equal => "=="
  | notEqual => "!="
  | less => "<"
  | lessEqual => "<="
  | greater => ">"
  | greaterEqual => ">="
  | and => "&&"
  | or => "||"

/-- A token of the expression language. A literal with a fraction is a float and one of digits only
an integer; escapes in a string are undone; a name is no keyword. -/
inductive Token
  | bool (value : Bool)
  | null
  | symbol (s : Symbol)
  | param (index : UInt32)
  | float (value : Binary64)
  | int (value : Int64)
  | str (value : String)
  | ident (name : String)
deriving DecidableEq, Inhabited

/-- How messages show a token. A name is not spelled out, a string is not escaped again. -/
def Token.text : Token → String
  | bool true => "true"
  | bool false => "false"
  | null => "null"
  | symbol s => s.text
  | param i => "$" ++ toString i.toNat
  | float x => x.plainText
  | int n => toString n.toInt
  | str s => "\"" ++ s ++ "\""
  | ident _ => "<ident>"

/-- A token with its place in the source. -/
structure PlacedToken where
  token : Token
  span : Span
deriving DecidableEq, Inhabited

end Dataflow
