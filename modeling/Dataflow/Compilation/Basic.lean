import Dataflow.Compilation.Pass
import Dataflow.Document.Load
import Dataflow.Graph.Validation
import Dataflow.Provenance

/-!
# Compilations

A compilation is a document's text together with all that has been made of it. A run takes it
through the passes up to a chosen one, reports on each, and stops at the first that finds an error.
Nothing is cleared at the start of a run.
-/

namespace Dataflow

/-- A document's text and what has been made of it, with all findings so far and whether one of them
is an error. -/
structure Compilation where
  source : String
  graph : Option Graph := none
  certificate : Option Certificate := none
  generated : Option Generated := none
  diagnostics : List Diagnostic := []
  hasError : Bool := false
  provenance : Option Provenance := none
deriving Inhabited

/-- What a pass has found. -/
structure PassReport where
  pass : Pass
  diagnostics : List Diagnostic
deriving DecidableEq, Inhabited

/-- The outcome of a run: the compilation afterwards, the reports of the passes in order, and the
pass that failed, if one did. -/
structure Run where
  compilation : Compilation
  reports : List PassReport
  failure : Option Pass
deriving Inhabited

/-- What is said about a pass that failed. -/
def Pass.failureMessage (p : Pass) : String := p.name ++ " pass failed"

namespace Compilation

/-- Carry out a pass, and collect its findings. The later passes need a graph. -/
def perform (o : Options) (c : Compilation) : Pass → Option (Compilation × List Diagnostic)
  | .load =>
    let l := Graph.load c.source
    some ({ c with graph := l.graph }, l.diagnostics)
  | .validate =>
    c.graph.map fun g =>
      let v := g.validate
      ({ c with certificate := some v.certificate }, v.diagnostics)
  | .codegen =>
    c.graph.map fun g =>
      let e := g.emit o
      ({ c with generated := e.generated }, e.diagnostics)

/-- Take note of findings. -/
def record (c : Compilation) (ds : List Diagnostic) : Compilation :=
  { c with diagnostics := c.diagnostics ++ ds, hasError := c.hasError || hasErrors ds }

/-- Carry out passes in order, up to the first that finds an error. -/
def runPasses (o : Options) : Compilation → List Pass → Run
  | c, [] => ⟨c, [], none⟩
  | c, p :: ps =>
    match c.perform o p with
    | none => ⟨c, [], some .load⟩
    | some (c, ds) =>
      if hasErrors ds then ⟨c.record ds, [⟨p, ds⟩], some p⟩
      else
        let r := runPasses o (c.record ds) ps
        { r with reports := ⟨p, ds⟩ :: r.reports }

/-- Carry out all passes up to a chosen one. -/
def run (c : Compilation) (o : Options) (terminal : Pass) : Run :=
  runPasses o { c with provenance := some (Provenance.of c.source o) } terminal.required

end Compilation

end Dataflow
