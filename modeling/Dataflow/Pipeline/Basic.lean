import Dataflow.Pipeline.Entry

/-!
# Pipelines

The pipeline of a graph: its registries, its lookup tables, and the subscriptions that connect it,
stratum by stratum. `Pipeline.ofGraph` makes it, in a fixed order, and stops at the first thing that
cannot be made.
-/

namespace Dataflow

/-- The output of an element feeds a port. -/
structure Subscription where
  source : PortReference
  target : PortReference
deriving DecidableEq, Inhabited

/-- The code of a subscription. -/
def Subscription.layout (s : Subscription) : Layout :=
  Script.statement (Script.methodCall s.source.layout "subscribe" [s.target.layout])

/-- The subscriptions of a stratum. -/
structure StratumWiring where
  index : Nat
  subscriptions : List Subscription
deriving DecidableEq, Inhabited

/-- The number of subscriptions. -/
def subscriptionCount (wiring : List StratumWiring) : Nat :=
  wiring.foldr (fun w n => w.subscriptions.length + n) 0

/-- A lookup table by names. -/
abbrev NamedLookup := List (String × List String)

/-- The code of a lookup table. -/
def NamedLookup.layout (t : NamedLookup) : Layout :=
  Script.object (t.map fun e => (Script.string e.1, Script.array (e.2.map Script.string)))

/-- All that is generated from a graph: the tables with their key bounds, the inputs, the operators
and the scanners by name, the lookup tables, and the subscriptions by stratum. -/
structure Pipeline where
  tables : List (String × Nat)
  inputs : List String
  operators : List (String × OperatorEntry)
  scanners : List (String × ScannerEntry)
  invalidation : NamedLookup
  rescan : NamedLookup
  wiring : List StratumWiring
deriving Inhabited

namespace Graph

/-! ### Registries -/

/-- An entry of the table registry. -/
def tableEntry (g : Graph) (ns : Names) (r : String × ElementId) :
    Except GenerateError (String × Nat) := do
  let e ← g.get r.2
  match ← g.lower ns e with
  | .table k => return (r.1, k)
  | _ => .error (.misfiledRelation r.1 r.2 .table)

/-- An entry of the input registry. -/
def inputEntry (g : Graph) (ns : Names) (r : String × ElementId) : Except GenerateError String := do
  let e ← g.get r.2
  match ← g.lower ns e with
  | .input => return r.1
  | _ => .error (.misfiledRelation r.1 r.2 .input)

/-- Elements without repetition: of several with one number the first stays. -/
def distinct : List ElementId → List Element → List Element
  | _, [] => []
  | seen, e :: es => if e.id ∈ seen then distinct seen es else e :: distinct (e.id :: seen) es

/-- All elements, those of the strata first. -/
def emissionOrder (g : Graph) : List Element :=
  distinct [] (g.stratifiedElements.map Prod.snd ++ g.elements)

/-- An element under its name. -/
def namedEntry (g : Graph) (ns : Names) (e : Element) : Except GenerateError (String × Entry) := do
  let entry ← g.lower ns e
  return (← ns.find e.id, entry)

/-- The operators among named entries. -/
def operatorEntry? : String × Entry → Option (String × OperatorEntry)
  | (n, .operator o) => some (n, o)
  | _ => none

/-- The scanners among named entries. -/
def scannerEntry? : String × Entry → Option (String × ScannerEntry)
  | (n, .scanner s) => some (n, s)
  | _ => none

/-! ### Lookup tables -/

/-- A lookup table by names. -/
def namedLookup (ns : Names) (t : LookupTable) : Except GenerateError NamedLookup :=
  t.mapM fun e => do
    let key ← ns.find e.1
    let values ← e.2.mapM ns.find
    return (key, values)

/-! ### Wiring -/

/-- The subscriptions of an output. -/
def outputSubscriptions (g : Graph) (ns : Names) (e : Element) (o : OutputPort) :
    Except GenerateError (List Subscription) := do
  let source ← g.outputRef ns e.id
  o.connections.mapM fun edge => do return ⟨source, ← g.inputRef ns edge.target edge.port⟩

/-- The subscriptions of an element; tables and scanners have none. -/
def elementSubscriptions (g : Graph) (ns : Names) (id : ElementId) :
    Except GenerateError (List Subscription) := do
  let e ← g.get id
  match e.variant with
  | .table | .scanner => return []
  | _ => return (← e.outputs.mapM (g.outputSubscriptions ns e)).flatten

/-- The subscriptions of a stratum. -/
def wireStratum (g : Graph) (ns : Names) (s : Stratum) : Except GenerateError StratumWiring := do
  return ⟨s.index, (← s.elements.mapM (g.elementSubscriptions ns)).flatten⟩

/-- The subscriptions of all strata, in order. -/
def wire (g : Graph) (ns : Names) : Except GenerateError (List StratumWiring) :=
  g.strataInOrder.mapM (g.wireStratum ns)

end Graph

/-! ### Assembly -/

/-- The pipeline of a graph. -/
def Pipeline.ofGraph (g : Graph) : Except GenerateError Pipeline := do
  let ns ← Names.ofGraph g
  let tables ← g.tables.entries.mapM (g.tableEntry ns)
  let inputs ← g.inputs.entries.mapM (g.inputEntry ns)
  let entries ← g.emissionOrder.mapM (g.namedEntry ns)
  let invalidation ← Graph.namedLookup ns g.invalidation
  let rescan ← Graph.namedLookup ns g.rescan
  let wiring ← g.wire ns
  return {
    tables := tables
    inputs := inputs
    operators := entries.filterMap Graph.operatorEntry?
    scanners := entries.filterMap Graph.scannerEntry?
    invalidation := invalidation
    rescan := rescan
    wiring := wiring }

end Dataflow
