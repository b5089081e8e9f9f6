import Dataflow.Expr.Render
import Dataflow.Graph.Summary
import Dataflow.Pipeline.Reference

/-!
# Registry entries

What an element becomes in generated code: the construction of a table, an input or an operator, or
the scan of a table or input together with the ports that its rows go to. The names bound by
generated functions start with `$`, which no name in an expression does.
-/

namespace Dataflow

/-! ### Functions -/

/-- The name for a whole tuple. -/
def tupleName : String := "$t"

/-- The parameters of a key function. -/
def keyParams : Params := .named [tupleName]

/-- The parameters of a map function: the whole tuple, or its positions if there are several. -/
def mapParams (arity : Nat) : Params :=
  if 1 < arity then .destructured ((List.range arity).map fun i => "$x" ++ toString i)
  else .named [tupleName]

/-- An anonymous function with an expression as its body. -/
def functionLayout (params : Params) (body : Expr) : Layout :=
  Script.lambda params (.text (body.render params.names))

/-! ### Entries -/

/-- An operator in generated code. -/
inductive OperatorEntry
  | join (buildKey probeKey : Expr) (leftIsBuild : Bool)
  | map (function : Expr) (arity : Nat)
deriving Inhabited

/-- A scanner in generated code: what it scans, and the ports that its rows go to. -/
structure ScannerEntry where
  source : Reference
  targets : List PortReference
deriving DecidableEq, Inhabited

/-- An element in generated code. -/
inductive Entry
  | table (lastKeyColumn : Nat)
  | input
  | operator (o : OperatorEntry)
  | scanner (s : ScannerEntry)
deriving Inhabited

/-- The construction of a table. -/
def tableLayout (lastKeyColumn : Nat) : Layout :=
  Script.construct "runtime.Table" [.text (toString lastKeyColumn)]

/-- The construction of an input. -/
def inputLayout : Layout := Script.construct "runtime.Input" []

/-- The construction of a join; the last argument names the side that is stored. -/
def joinLayout (buildKey probeKey : Expr) (leftIsBuild : Bool) : Layout :=
  Script.construct "runtime.HashEquiJoin"
    [functionLayout keyParams buildKey, functionLayout keyParams probeKey,
      Script.string (sideText leftIsBuild)]

/-- The construction of a map. -/
def mapLayout (function : Expr) (arity : Nat) : Layout :=
  Script.construct "runtime.Map" [functionLayout (mapParams arity) function]

/-- The code of an operator. -/
def OperatorEntry.layout : OperatorEntry → Layout
  | join b p left => joinLayout b p left
  | map f n => mapLayout f n

/-- The code of a scanner. -/
def ScannerEntry.layout (s : ScannerEntry) : Layout :=
  .concat [.text "\x7b scan: ", Script.lambda (.named []) s.source.layout, .text ", targets: ",
    Script.array (s.targets.map PortReference.layout), .text " \x7d"]

/-- The code of an element. -/
def Entry.layout : Entry → Layout
  | table k => tableLayout k
  | input => inputLayout
  | operator o => o.layout
  | scanner s => s.layout

/-- What an element becomes in generated code. -/
def Graph.lower (g : Graph) (ns : Names) (e : Element) : Except GenerateError Entry :=
  match e.kind with
  | .table _ k => .ok (.table k)
  | .input _ => .ok .input
  | .join b p left => .ok (.operator (.join b p left))
  | .map f n => .ok (.operator (.map f n))
  | .scanner t => do
    let source ← g.scannerSource ns e.id t
    let targets ← e.edges.mapM fun edge => g.inputRef ns edge.target edge.port
    return .scanner ⟨source, targets⟩

end Dataflow
