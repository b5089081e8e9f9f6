import Dataflow.Graph.Basic
import Dataflow.Text.Quoted

/-!
# Documents

A document describes a graph the way it is handed over: elements refer to each other by position or
by the name of a relation, and functions are given as source text.
-/

namespace Dataflow

/-- A reference to an element of the same document, by its position or by the name of its relation.
-/
inductive ElementRef
  | index (i : UInt32)
  | name (n : String)
deriving DecidableEq, Inhabited

/-- How messages show a reference. -/
def ElementRef.text : ElementRef → String
  | index i => toString i.toNat
  | name n => Text.quoted n

/-- An element as a document describes it. -/
inductive ElementSpec
  | table (relation : String) (lastKeyColumn : UInt32)
  | input (relation : String)
  | join (buildKey probeKey : String) (leftIsBuild : Bool)
  | map (function : String) (arity : UInt32)
  | scanner (target : ElementRef)
deriving DecidableEq, Inhabited

/-- The relation of a table or input. -/
def ElementSpec.relation? : ElementSpec → Option String
  | table r _ | input r => some r
  | _ => none

/-- An edge as a document describes it. -/
structure EdgeSpec where
  source : ElementRef
  target : ElementRef
  port : InputPort
deriving DecidableEq, Inhabited

/-- A stratum as a document describes it. -/
structure StratumSpec where
  index : UInt32
  elements : List ElementRef
deriving DecidableEq, Inhabited

/-- An entry of a lookup table as a document describes it. -/
structure LookupSpec where
  key : ElementRef
  values : List ElementRef
deriving DecidableEq, Inhabited

/-- The description of a graph. The lookup tables say what to invalidate and what to scan again. -/
structure Document where
  elements : List ElementSpec
  edges : List EdgeSpec := []
  strata : List StratumSpec := []
  invalidation : List LookupSpec := []
  rescan : List LookupSpec := []
deriving DecidableEq, Inhabited

end Dataflow
