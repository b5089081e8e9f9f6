import Dataflow.Pipeline.Names
import Dataflow.Script.Basic

/-!
# References to elements and ports

In generated code an element is an entry of a registry under its name. A scanner has no entry of its
own there: it is obtained from the table or input that it reads. A port is a member of its element.
-/

namespace Dataflow

/-- The registries that elements are entered in. -/
inductive Section
  | tables | inputs | operators
deriving DecidableEq, Inhabited

/-- What a registry is called in generated code. -/
def Section.name : Section → String
  | tables => "tables"
  | inputs => "inputs"
  | operators => "operators"

/-- An element in generated code: an entry of a registry, or a scanner of such an entry. -/
inductive Reference
  | entry (registry : Section) (name : String)
  | scanner (registry : Section) (name : String)
deriving DecidableEq, Inhabited

/-- The code of a reference. -/
def Reference.layout : Reference → Layout
  | entry r n => Script.member r.name n
  | scanner r n => Script.methodCall (Script.member r.name n) "scanner" []

/-- A port in generated code, which is a member of an element. -/
structure PortReference where
  owner : Reference
  member : String
deriving DecidableEq, Inhabited

/-- The code of a port. -/
def PortReference.layout (p : PortReference) : Layout :=
  .concat [p.owner.layout, .text ".", .text p.member]

/-! ### Members -/

/-- The member for a port at which edges end. -/
def inputMember (id : ElementId) (v : Variant) (p : InputPort) : Except GenerateError String :=
  match v, p with
  | .join, .left => .ok "leftInput"
  | .join, .right => .ok "rightInput"
  | .table, .delta => .ok "Delta"
  | .input, .input | .map, .input => .ok "input"
  | v, p => .error (.portVocabulary id v p.name)

/-- The member for the output. -/
def outputMember (id : ElementId) (v : Variant) : Except GenerateError String :=
  match v with
  | .table => .error (.portVocabulary id .table outputName)
  | _ => .ok outputName

/-! ### Resolution -/

namespace Graph

/-- The element with a number, which has to exist. -/
def get (g : Graph) (id : ElementId) : Except GenerateError Element :=
  match g.element? id with
  | some e => .ok e
  | none => .error (.unknownElement id)

/-- A scanner of its target, which has to be a table or input. -/
def scannerSource (g : Graph) (ns : Names) (scanner target : ElementId) :
    Except GenerateError Reference := do
  let e ← g.get target
  match e.variant with
  | .table => return .scanner .tables (← ns.find target)
  | .input => return .scanner .inputs (← ns.find target)
  | _ => .error (.scannerTarget scanner target)

/-- The reference to an element. -/
def elementRef (g : Graph) (ns : Names) (id : ElementId) : Except GenerateError Reference := do
  let e ← g.get id
  let name ← ns.find id
  match e.kind with
  | .table .. => return .entry .tables name
  | .input .. => return .entry .inputs name
  | .join .. | .map .. => return .entry .operators name
  | .scanner t => g.scannerSource ns id t

/-- The reference to a port at which an edge ends. -/
def inputRef (g : Graph) (ns : Names) (id : ElementId) (p : InputPort) :
    Except GenerateError PortReference := do
  let e ← g.get id
  let member ← inputMember id e.variant p
  return ⟨← g.elementRef ns id, member⟩

/-- The reference to the output of an element. -/
def outputRef (g : Graph) (ns : Names) (id : ElementId) : Except GenerateError PortReference := do
  let e ← g.get id
  let member ← outputMember id e.variant
  return ⟨← g.elementRef ns id, member⟩

end Graph

end Dataflow
