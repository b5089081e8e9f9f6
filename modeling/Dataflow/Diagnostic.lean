import Dataflow.Text.Span

/-!
# Diagnostics

What the checks report: an error or a warning with a stable code, the element it is about, a place
in that element's source, a message and a hint. Everything but the level and the message may be
missing.
-/

namespace Dataflow

/-- The stable codes of diagnostics, by what they stand for. -/
inductive Code
  | unreadable
  | malformed
  | relationName
  | relationTwice
  | scannerTarget
  | port
  | arity
  | parameter
  | unplaced
  | listedTwice
  | lookup
  | tableEdge
  | capturedName
  | expression
  | nameCollision
  | portVocabulary
  | danglingReference
  | scannerSource
  | factoryName
  | misfiledRelation
deriving DecidableEq, Inhabited

namespace Code

/-- The text of a code. -/
def text : Code → String
  | unreadable => "E0001"
  | malformed => "E0002"
  | relationName => "E0101"
  | relationTwice => "E0102"
  | scannerTarget => "E0103"
  | port => "E0104"
  | arity => "E0105"
  | parameter => "E0106"
  | unplaced => "E0107"
  | listedTwice => "E0108"
  | lookup => "E0109"
  | tableEdge => "W0110"
  | capturedName => "E0111"
  | expression => "E0201"
  | nameCollision => "E0701"
  | portVocabulary => "E0702"
  | danglingReference => "E0703"
  | scannerSource => "E0704"
  | factoryName => "E0705"
  | misfiledRelation => "E0706"

/-- All codes. -/
def all : List Code :=
  [unreadable, malformed, relationName, relationTwice, scannerTarget, port, arity, parameter,
    unplaced, listedTwice, lookup, tableEdge, capturedName, expression, nameCollision,
    portVocabulary, danglingReference, scannerSource, factoryName, misfiledRelation]

end Code

/-- How serious a diagnostic is. -/
inductive Level
  | error | warning
deriving DecidableEq, Inhabited

/-- The word for a level. -/
def Level.text : Level → String
  | error => "error"
  | warning => "warning"

/-- A reported finding: how serious it is, what it says, the element it is about, the place in that
element's source, and what may be done about it. -/
structure Diagnostic where
  level : Level
  message : String
  code : Option Code := none
  subject : Option String := none
  span : Option Span := none
  hint : Option String := none
deriving DecidableEq, Inhabited

namespace Diagnostic

/-- A diagnostic is an error. -/
def isError (d : Diagnostic) : Bool := d.level == .error

/-- A diagnostic in full. -/
def text (d : Diagnostic) : String :=
  d.level.text ++
    (match d.code with
      | some c => "[" ++ c.text ++ "]: "
      | none => ": ") ++
    (match d.subject with
      | some s => "element " ++ s ++ ": "
      | none => "") ++
    d.message ++
    (match d.span with
      | some s => " (at " ++ s.text ++ ")"
      | none => "") ++
    match d.hint with
    | some h => "\n  hint: " ++ h
    | none => ""

end Diagnostic

/-- Some diagnostic is an error. -/
def hasErrors (ds : List Diagnostic) : Bool := ds.any Diagnostic.isError

end Dataflow
