import Dataflow.Expr.Basic
import Dataflow.Graph.Registry

/-!
# Dataflow graphs

A graph has elements of five kinds. Tables hold relations, inputs feed them in, joins and maps
compute, and scanners read tables and inputs. Edges run from the output of an element to a port of
another; strata order the elements; two lookup tables say what to invalidate and what to scan again.

Nothing is promised about the numbers in a graph: an edge, scanner, stratum or lookup table may name
an element that does not exist.
-/

namespace Dataflow

/-! ### Ports and kinds -/

/-- A port at which edges end. -/
inductive InputPort
  | left | right | delta | input
deriving DecidableEq, Inhabited

/-- The name of a port. -/
def InputPort.name : InputPort → String
  | left => "leftInput"
  | right => "rightInput"
  | delta => "deltaIn"
  | input => "input"

/-- All ports. -/
def InputPort.all : List InputPort := [left, right, delta, input]

/-- The name of the one output that elements have. -/
def outputName : String := "output"

/-- The five sorts of elements. -/
inductive Variant
  | table | input | join | map | scanner
deriving DecidableEq, Inhabited

namespace Variant

/-- What a sort of elements is called. -/
def text : Variant → String
  | table => "table"
  | input => "input"
  | join => "hash equi-join"
  | map => "map"
  | scanner => "scanner"

/-- The ports at which edges may end. -/
def inputPorts : Variant → List InputPort
  | join => [.left, .right]
  | table => [.delta]
  | input | map => [.input]
  | scanner => []

/-- An element of this sort starts out with an output. -/
def hasOutput : Variant → Bool
  | table => false
  | _ => true

/-- A scanner may read an element of this sort. -/
def isScannable : Variant → Bool
  | table | input => true
  | _ => false

/-- An element of this sort has to be in a stratum. -/
def needsStratum : Variant → Bool
  | input | join | map => true
  | _ => false

end Variant

/-- What an element is: a stored relation whose key ends at the given column, a relation that is fed
in, a join by equality of two keys, a function of so many parameters, or a reader of a table or
input. -/
inductive ElementKind
  | table (relation : String) (lastKeyColumn : Nat)
  | input (relation : String)
  | join (buildKey probeKey : Expr) (leftIsBuild : Bool)
  | map (function : Expr) (arity : Nat)
  | scanner (target : ElementId)
deriving Inhabited

/-- The sort of an element. -/
def ElementKind.variant : ElementKind → Variant
  | table .. => .table
  | input .. => .input
  | join .. => .join
  | map .. => .map
  | scanner .. => .scanner

/-- The relation of a table or input. -/
def ElementKind.relation? : ElementKind → Option String
  | table r _ | input r => some r
  | _ => none

/-! ### Elements and edges -/

/-- A connection from an element's output to a port. -/
structure Edge where
  source : ElementId
  target : ElementId
  port : InputPort
deriving DecidableEq, Inhabited

/-- An output of an element, with the edges that leave it in the order in which they were made. -/
structure OutputPort where
  owner : ElementId
  connections : List Edge
deriving DecidableEq, Inhabited

/-- An element of a graph. -/
structure Element where
  id : ElementId
  kind : ElementKind
  outputs : List OutputPort
deriving Inhabited

namespace Element

/-- The sort of an element. -/
def variant (e : Element) : Variant := e.kind.variant

/-- The relation of a table or input. -/
def relation? (e : Element) : Option String := e.kind.relation?

/-- What an element is known by: its relation, or else its number. -/
def identity (e : Element) : String := e.relation?.getD (toString e.id)

/-- The edges that leave an element. -/
def edges (e : Element) : List Edge := e.outputs.flatMap OutputPort.connections

end Element

/-! ### Graphs -/

/-- A step of the computation: the elements that belong to it. -/
structure Stratum where
  index : Nat
  elements : List ElementId
deriving DecidableEq, Inhabited

/-- For each key, the elements it leads to. -/
abbrev LookupTable := List (ElementId × List ElementId)

/-- A dataflow graph. The number of an element is its position. Tables and inputs are found by their
relation, the strata are as they were declared, and the lookup tables say what to invalidate and
what to scan again. -/
structure Graph where
  elements : List Element := []
  tables : Registry := {}
  inputs : Registry := {}
  strata : List Stratum := []
  invalidation : LookupTable := []
  rescan : LookupTable := []
deriving Inhabited

namespace Graph

/-- The element with a number. -/
def element? (g : Graph) (id : ElementId) : Option Element := g.elements[id]?

/-- All edges, by the elements that they leave. -/
def edges (g : Graph) : List Edge := g.elements.flatMap Element.edges

/-- The strata in increasing order; strata of one index keep the order of their declaration. -/
def strataInOrder (g : Graph) : List Stratum := g.strata.mergeSort fun a b => a.index ≤ b.index

/-- The elements in the order of their strata, with the index of the stratum. Numbers without an
element are left out. -/
def stratifiedElements (g : Graph) : List (Nat × Element) :=
  g.strataInOrder.flatMap fun s =>
    s.elements.filterMap fun id => (g.element? id).map fun e => (s.index, e)

/-- What an element is called in messages. -/
def label (g : Graph) (id : ElementId) : String :=
  match g.element? id with
  | some e => e.identity
  | none => "#" ++ toString id

end Graph

end Dataflow
