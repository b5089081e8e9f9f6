import Dataflow.Script.Layout
import Dataflow.Script.Quote

/-!
# Fragments of the target language

Layouts of the few constructs that generated code is made of: comments, statements, literals, calls
and anonymous functions.
-/

namespace Dataflow

/-- The parameters of an anonymous function: one name for each argument, or one tuple argument that
is taken apart by position. -/
inductive Params
  | named (names : List String)
  | destructured (names : List String)
deriving DecidableEq, Inhabited

/-- The names that parameters bind, by position. -/
def Params.names : Params → List String
  | named ns | destructured ns => ns

namespace Script

open Layout (text line concat nest)

/-- A comment on a line of its own. -/
def comment (s : String) : Layout := concat [text ("// " ++ s), line]

/-- A statement on a line of its own. -/
def statement (l : Layout) : Layout := concat [l, text ";", line]

/-- The parts with a separator between them. -/
def separated (separator : String) : List Layout → List Layout
  | [] => []
  | [l] => [l]
  | l :: ls => l :: text separator :: separated separator ls

/-- Layouts with a separator between them. -/
def join (separator : String) (ls : List Layout) : Layout := concat (separated separator ls)

/-- A string literal. -/
def string (s : String) : Layout := text (quote s)

/-- An array literal on one line. -/
def array (items : List Layout) : Layout := concat [text "[", join ", " items, text "]"]

/-- An entry of an object literal. -/
def entry (e : Layout × Layout) : Layout := concat [e.1, text ": ", e.2, text ",", line]

/-- An object literal with one entry to a line, empty braces if there is none. -/
def object (entries : List (Layout × Layout)) : Layout :=
  if entries.isEmpty then text "\x7b\x7d"
  else concat [text "\x7b", line, nest (concat (entries.map entry)), text "\x7d"]

/-- The member of an object under a quoted key. -/
def member (object key : String) : Layout := concat [text object, text "[", string key, text "]"]

/-- A function call. -/
def call (callee : Layout) (arguments : List Layout) : Layout :=
  concat [callee, text "(", join ", " arguments, text ")"]

/-- A method call. -/
def methodCall (receiver : Layout) (method : String) (arguments : List Layout) : Layout :=
  call (concat [receiver, text ".", text method]) arguments

/-- A constructor call. -/
def construct (constructor : String) (arguments : List Layout) : Layout :=
  concat [text "new ", call (text constructor) arguments]

/-- The head of an anonymous function. -/
def lambdaHead : Params → String
  | .named ns => "(" ++ ", ".intercalate ns ++ ")"
  | .destructured ns => "([" ++ ", ".intercalate ns ++ "])"

/-- An anonymous function. -/
def lambda (params : Params) (body : Layout) : Layout :=
  concat [text (lambdaHead params), text " => ", body]

end Script

end Dataflow
