import Dataflow.Diagnostic
import Dataflow.Document.Decode
import Dataflow.Expr.Parser
import Dataflow.Graph.Builder

/-!
# Graphs from documents

Loading a document resolves its references and parses its functions. All faults are collected, in
the order of the document, and there is a graph only if there is none.

* A position refers to the element there; a name refers to the first table or input with that
  relation.
* The values of a lookup entry are looked at only if its key is found.
-/

namespace Dataflow

/-! ### Values with faults -/

/-- A value, unless something was wrong, and all that was wrong, in order. -/
structure Checked (ε α : Type) where
  value : Option α
  faults : List ε

namespace Checked

variable {ε α β γ : Type}

/-- A value with nothing wrong. -/
def ok (a : α) : Checked ε α := ⟨some a, []⟩

/-- Change a value. -/
def map (f : α → β) (x : Checked ε α) : Checked ε β := ⟨x.value.map f, x.faults⟩

/-- Put two values together; the faults of both are kept. -/
def map₂ (f : α → β → γ) (x : Checked ε α) (y : Checked ε β) : Checked ε γ :=
  ⟨x.value.bind fun a => y.value.map (f a), x.faults ++ y.faults⟩

/-- Go on from a value; without one there is nothing to go on from. -/
def bind (x : Checked ε α) (f : α → Checked ε β) : Checked ε β :=
  match x.value with
  | some a => ⟨(f a).value, x.faults ++ (f a).faults⟩
  | none => ⟨none, x.faults⟩

/-- Check every item of a list; the faults of all are kept. -/
def traverse (f : α → Checked ε β) : List α → Checked ε (List β)
  | [] => ok []
  | a :: as => map₂ List.cons (f a) (traverse f as)

end Checked

/-! ### Faults -/

/-- What a reference is for. -/
inductive RefRole
  | scannerTarget | edgeSource | edgeTarget | stratumMember | invalidationKey | invalidationValue
  | rescanKey | rescanValue
deriving DecidableEq, Inhabited

/-- What a reference is for, in words. -/
def RefRole.text : RefRole → String
  | scannerTarget => "scanner target"
  | edgeSource => "edge source"
  | edgeTarget => "edge target"
  | stratumMember => "stratum member"
  | invalidationKey => "invalidation key"
  | invalidationValue => "invalidation value"
  | rescanKey => "rescan key"
  | rescanValue => "rescan value"

/-- The field that holds an expression. -/
inductive ExprField
  | buildKey | probeKey | function
deriving DecidableEq, Inhabited

/-- The name of a field. -/
def ExprField.name : ExprField → String
  | buildKey => "build_key"
  | probeKey => "probe_key"
  | function => "function"

/-- Why a document is no graph: a reference leads nowhere, or the expression in a field of the
element at a position cannot be parsed. -/
inductive LoadFault
  | unresolved (role : RefRole) (ref : ElementRef)
  | expression (position : Nat) (field : ExprField) (error : ParseError)
deriving Inhabited

/-- The diagnostic of a fault. -/
def LoadFault.diagnostic : LoadFault → Diagnostic
  | unresolved role ref =>
    { level := .error
      message := role.text ++ " " ++ ref.text ++ " does not name an element"
      code := some .malformed }
  | expression position field error =>
    { level := .error
      message := field.name ++ ": " ++ error.message
      code := some .expression
      subject := some (toString position)
      span := some error.span
      hint := some "expressions look like `$0[1]` or `[$0, $1 + 1]`" }

/-! ### Resolution -/

namespace Document

/-- The element that a reference leads to. -/
def resolve? (d : Document) : ElementRef → Option ElementId
  | .index i => if i.toNat < d.elements.length then some i.toNat else none
  | .name n => d.elements.findIdx? fun e => e.relation? == some n

/-- The element that a reference leads to, or a fault. -/
def resolve (d : Document) (role : RefRole) (ref : ElementRef) : Checked LoadFault ElementId :=
  match d.resolve? ref with
  | some id => .ok id
  | none => ⟨none, [.unresolved role ref]⟩

/-- The elements that references lead to. -/
def resolveAll (d : Document) (role : RefRole) (refs : List ElementRef) :
    Checked LoadFault (List ElementId) :=
  Checked.traverse (d.resolve role) refs

/-- The expression in a field of the element at a position. -/
def parseField (position : Nat) (field : ExprField) (source : String) : Checked LoadFault Expr :=
  let parsed := Expr.parse source
  ⟨if parsed.isOk then parsed.expr else none, parsed.errors.map (.expression position field)⟩

/-- The element at a position. -/
def loadElement (d : Document) (position : Nat) : ElementSpec → Checked LoadFault ElementKind
  | .table r k => .ok (.table r k.toNat)
  | .input r => .ok (.input r)
  | .join b p left =>
    Checked.map₂ (fun b p => .join b p left) (parseField position .buildKey b)
      (parseField position .probeKey p)
  | .map f n => (parseField position .function f).map fun f => .map f n.toNat
  | .scanner t => (d.resolve .scannerTarget t).map .scanner

/-- The elements from a position on. -/
def loadElements (d : Document) : Nat → List ElementSpec → Checked LoadFault (List BuildStep)
  | _, [] => .ok []
  | i, e :: es =>
    Checked.map₂ List.cons ((d.loadElement i e).map BuildStep.add) (d.loadElements (i + 1) es)

/-- An edge. -/
def loadEdge (d : Document) (e : EdgeSpec) : Checked LoadFault BuildStep :=
  Checked.map₂ (fun s t => .connect s t e.port) (d.resolve .edgeSource e.source)
    (d.resolve .edgeTarget e.target)

/-- A stratum. -/
def loadStratum (d : Document) (s : StratumSpec) : Checked LoadFault BuildStep :=
  (d.resolveAll .stratumMember s.elements).map (.stratum s.index.toNat)

/-- An entry of the invalidation table. -/
def loadInvalidation (d : Document) (l : LookupSpec) : Checked LoadFault BuildStep :=
  (d.resolve .invalidationKey l.key).bind fun k =>
    (d.resolveAll .invalidationValue l.values).map (.invalidate k)

/-- An entry of the rescan table. -/
def loadRescan (d : Document) (l : LookupSpec) : Checked LoadFault BuildStep :=
  (d.resolve .rescanKey l.key).bind fun k =>
    (d.resolveAll .rescanValue l.values).map (.rescan k)

/-- The steps that make the graph of a document. -/
def steps (d : Document) : Checked LoadFault (List BuildStep) :=
  let elements := d.loadElements 0 d.elements
  let edges := Checked.traverse d.loadEdge d.edges
  let strata := Checked.traverse d.loadStratum d.strata
  let invalidation := Checked.traverse d.loadInvalidation d.invalidation
  let rescan := Checked.traverse d.loadRescan d.rescan
  [edges, strata, invalidation, rescan].foldl (Checked.map₂ List.append) elements

end Document

/-! ### Loading -/

/-- The outcome of loading: the graph, unless something was wrong, and what was. -/
structure Loaded where
  graph : Option Graph
  diagnostics : List Diagnostic
deriving Inhabited

/-- The graph of a document. -/
def Document.load (d : Document) : Loaded :=
  { graph := d.steps.value.map Graph.ofSteps
    diagnostics := d.steps.faults.map LoadFault.diagnostic }

/-- Why there is no document: its file cannot be read, or its text is none. -/
inductive LoadError
  | unreadable (path reason : String)
  | malformed (error : DecodeError)
deriving Inhabited

/-- What is reported about a document that is missing. -/
def LoadError.message : LoadError → String
  | unreadable path reason => "cannot read " ++ path ++ ": " ++ reason
  | malformed error => "malformed IR document: " ++ error.message

/-- The code for a document that is missing. -/
def LoadError.code : LoadError → Code
  | unreadable .. => .unreadable
  | malformed _ => .malformed

/-- The diagnostic of a document that is missing. -/
def LoadError.diagnostic (e : LoadError) : Diagnostic :=
  { level := .error, message := e.message, code := some e.code }

/-- The outcome of loading when there is no document. -/
def LoadError.loaded (e : LoadError) : Loaded := ⟨none, [e.diagnostic]⟩

/-- The graph that the text of a document describes. -/
def Graph.load (text : String) : Loaded :=
  match Document.decode text with
  | .ok d => d.load
  | .error e => (LoadError.malformed e).loaded

end Dataflow
