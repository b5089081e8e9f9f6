import Dataflow.Pipeline.Basic
import Dataflow.Token.Lexer

/-!
# The source of a pipeline

A pipeline is written as a module with one factory function. The function takes the runtime, builds
the registries, makes the subscriptions, and returns an entry point for each input together with the
registries.
-/

namespace Dataflow

/-! ### Options -/

/-- How the factory leaves its module: as an exported function, or through the module's exports
object. -/
inductive ModuleFormat
  | esm
  | commonJs
deriving DecidableEq, Inhabited

/-- What may be chosen about generated code: the name of the factory, the format of the module, and
whether sections and strata are headed by comments. -/
structure Options where
  factory : String := "createPipeline"
  format : ModuleFormat := .esm
  comments : Bool := true
deriving DecidableEq, Inhabited

/-- The sizes of a generated module's parts. -/
structure Stats where
  tables : Nat
  inputs : Nat
  operators : Nat
  scanners : Nat
  subscriptions : Nat
deriving DecidableEq, Inhabited

/-- A generated module. -/
structure Generated where
  source : String
  stats : Stats
deriving DecidableEq, Inhabited

namespace Pipeline

open Layout (text line concat nest)

/-- The first line of a module. -/
def header : String := "Generated by flowgen (dataflow pipeline generator). Do not edit."

/-- The heading of a section, if headings are wanted. -/
def heading (o : Options) (title : String) : List Layout :=
  if o.comments then [Script.comment title] else []

/-- The declaration of a constant. -/
def declaration (name : String) (value : Layout) : Layout :=
  Script.statement (concat [text ("const " ++ name ++ " = "), value])

/-- The entry point of an input. -/
def entryPoint (relation : String) : Layout :=
  Script.lambda (.named ["tuple"])
    (Script.methodCall (Script.member "inputs" relation) "push" [text "tuple"])

/-- An object literal with string keys. -/
def registry {α : Type} (value : α → Layout) (entries : List (String × α)) : Layout :=
  Script.object (entries.map fun e => (Script.string e.1, value e.2))

/-- The subscriptions of a stratum under its heading; nothing if there are none. -/
def stratumSection (o : Options) (w : StratumWiring) : List Layout :=
  if w.subscriptions.isEmpty then []
  else heading o ("stratum " ++ toString w.index) ++ w.subscriptions.map Subscription.layout

/-- What the factory returns. -/
def returnLayout : Layout :=
  concat [text "return \x7b", line,
    nest (concat [text "...entryPoints,", line,
      text ("$registries: \x7b tables, inputs, operators, scanners, " ++
        "invalidationLookupTable, rescanLookupTable \x7d,"), line]),
    text "\x7d;", line]

/-- The body of the factory. -/
def body (o : Options) (p : Pipeline) : List Layout :=
  heading o "Tables" ++
    [declaration "tables" (registry tableLayout p.tables)] ++
    heading o "Inputs" ++
    [declaration "inputs" (registry (fun _ => inputLayout) (p.inputs.map fun r => (r, ()))),
      declaration "entryPoints" (registry entryPoint (p.inputs.map fun r => (r, r)))] ++
    heading o "Operators" ++
    [declaration "operators" (registry OperatorEntry.layout p.operators)] ++
    heading o "Scanners" ++
    [declaration "scanners" (registry ScannerEntry.layout p.scanners)] ++
    heading o "Invalidation and rescan" ++
    [declaration "invalidationLookupTable" (NamedLookup.layout p.invalidation),
      declaration "rescanLookupTable" (NamedLookup.layout p.rescan)] ++
    heading o "Subscriptions" ++
    p.wiring.flatMap (stratumSection o) ++
    [returnLayout]

/-- The word before the factory. -/
def exportText : ModuleFormat → String
  | .esm => "export "
  | .commonJs => ""

/-- What follows the factory. -/
def footer (o : Options) : List Layout :=
  match o.format with
  | .esm => []
  | .commonJs => [Script.statement (text ("module.exports = \x7b " ++ o.factory ++ " \x7d"))]

/-- The whole module. -/
def layout (o : Options) (p : Pipeline) : Layout :=
  concat ([Script.comment header,
    text (exportText o.format ++ "function " ++ o.factory ++ "(runtime) \x7b"), line,
    nest (concat (body o p)), text "\x7d", line] ++ footer o)

/-- The sizes of a pipeline's parts. -/
def stats (p : Pipeline) : Stats :=
  { tables := p.tables.length
    inputs := p.inputs.length
    operators := p.operators.length
    scanners := p.scanners.length
    subscriptions := subscriptionCount p.wiring }

/-- The module of a pipeline. -/
def generated (o : Options) (p : Pipeline) : Generated := ⟨(p.layout o).render, p.stats⟩

end Pipeline

/-! ### Generation -/

/-- Generate the module of a graph. -/
def Graph.generate (g : Graph) (o : Options) : Except GenerateError Generated :=
  if isIdentifier o.factory then do return (← Pipeline.ofGraph g).generated o
  else .error (.factoryName o.factory)

/-- The outcome of code generation: the module, unless something was wrong, and what was. -/
structure Emitted where
  generated : Option Generated
  diagnostics : List Diagnostic
deriving DecidableEq, Inhabited

/-- Generate the module of a graph, and report failure as a diagnostic. -/
def Graph.emit (g : Graph) (o : Options) : Emitted :=
  match g.generate o with
  | .ok m => ⟨some m, []⟩
  | .error e => ⟨none, [e.diagnostic]⟩

end Dataflow
