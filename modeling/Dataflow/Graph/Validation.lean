import Dataflow.Diagnostic
import Dataflow.Expr.References
import Dataflow.Graph.Basic
import Dataflow.Pipeline.Scope
import Dataflow.Text.Quoted
import Dataflow.Token.Lexer

/-!
# Well-formed graphs

Six checks go through a graph, and each reports every violation it finds: of the relation names, the
scanners, the ports, the functions, the strata and the lookup tables. The certificate has one flag
for each check, which tells that it found no error. Edges that leave a table are harmless, and only
warned about.

Each check is a loop, with a `Tally` that it changes step by step.
-/

namespace Dataflow

/-! ### Violations -/

/-- A function of an element, by the part it plays. -/
inductive FunctionRole
  | buildKey | probeKey | mapFunction
deriving DecidableEq, Inhabited

/-- What a function is called. -/
def FunctionRole.text : FunctionRole → String
  | buildKey => "build key"
  | probeKey => "probe key"
  | mapFunction => "map function"

/-- One of the two lookup tables. -/
inductive LookupRole
  | invalidation | rescan
deriving DecidableEq, Inhabited

/-- What a lookup table is called. -/
def LookupRole.text : LookupRole → String
  | invalidation => "invalidation"
  | rescan => "rescan"

/-- Something that is wrong with a graph. Elements are given by what they are called. -/
inductive Violation
  | relationName (relation : String)
  | relationTwice (relation : String) (first second : ElementId)
  | scannerTarget (scanner : ElementId) (target : String)
  | tableEdges (table : String) (count : Nat)
  | edgeTarget (source : String) (target : ElementId)
  | edgePort (target : String) (variant : Variant) (port : InputPort)
  | zeroArity (map : String)
  | parameter (element : String) (role : FunctionRole) (index : UInt32) (count : Nat) (span : Span)
  | capturedName (element : String) (role : FunctionRole) (name : String) (span : Span)
  | stratumTwice (index : Nat)
  | stratumMember (index : Nat) (id : ElementId)
  | placedTwice (element : String) (first again : Nat)
  | unplaced (element : String) (variant : Variant)
  | lookupKeyTwice (table : LookupRole) (key : String)
  | lookupMember (table : LookupRole) (id : ElementId)
deriving DecidableEq, Inhabited

namespace Violation

/-- The code of a violation. -/
def code : Violation → Code
  | relationName .. => .relationName
  | relationTwice .. => .relationTwice
  | scannerTarget .. => .scannerTarget
  | tableEdges .. => .tableEdge
  | edgeTarget .. | edgePort .. => .port
  | zeroArity .. => .arity
  | parameter .. => .parameter
  | capturedName .. => .capturedName
  | stratumTwice .. | placedTwice .. => .listedTwice
  | stratumMember .. | unplaced .. => .unplaced
  | lookupKeyTwice .. | lookupMember .. => .lookup

/-- How serious a violation is. -/
def level : Violation → Level
  | tableEdges .. => .warning
  | _ => .error

/-- What a violation says. -/
def message : Violation → String
  | relationName r => "relation name " ++ Text.quoted r ++ " is not an identifier"
  | relationTwice r a b =>
    "relation '" ++ r ++ "' declared twice (elements " ++ toString a ++ " and " ++ toString b ++ ")"
  | scannerTarget _ t => "scanner target " ++ t ++ " is not a table or input"
  | tableEdges _ n => toString n ++ " outgoing edge(s) from a table are never subscribed"
  | edgeTarget _ t => "edge targets unknown element #" ++ toString t
  | edgePort _ v p => v.text ++ " has no input port '" ++ p.name ++ "'"
  | zeroArity _ => "map arity must be at least 1"
  | parameter _ role i n _ =>
    role.text ++ " refers to $" ++ toString i.toNat ++ " but takes " ++ toString n ++
      " parameter(s)"
  | capturedName _ role n _ =>
    role.text ++ " uses '" ++ n ++ "', which the generated factory binds itself"
  | stratumTwice i => "stratum " ++ toString i ++ " listed twice"
  | stratumMember i id => "stratum " ++ toString i ++ " lists unknown element #" ++ toString id
  | placedTwice _ a b =>
    "element listed in stratum " ++ toString a ++ " and again in stratum " ++ toString b
  | unplaced _ v => v.text ++ " is not assigned to any stratum"
  | lookupKeyTwice t _ => t.text ++ " table has a duplicate key"
  | lookupMember t id => t.text ++ " table references unknown element #" ++ toString id

/-- The element that a violation is about. -/
def subject? : Violation → Option String
  | relationName r | relationTwice r _ _ => some r
  | scannerTarget id _ => some (toString id)
  | tableEdges e _ | edgeTarget e _ | edgePort e _ _ | zeroArity e | parameter e _ _ _ _
  | capturedName e _ _ _ | placedTwice e _ _ | unplaced e _ | lookupKeyTwice _ e => some e
  | stratumTwice _ | stratumMember .. | lookupMember .. => none

/-- The place of a violation in a function's source. -/
def span? : Violation → Option Span
  | parameter _ _ _ _ s | capturedName _ _ _ s => some s
  | _ => none

/-- What may be done about a violation. -/
def hint? : Violation → Option String
  | tableEdges .. => some "read tables through a scanner"
  | edgePort _ v _ =>
    if v.inputPorts.isEmpty then some ("a " ++ v.text ++ " accepts no incoming edges")
    else some ("valid ports: " ++ ", ".intercalate (v.inputPorts.map InputPort.name))
  | _ => none

/-- The diagnostic of a violation. -/
def diagnostic (v : Violation) : Diagnostic :=
  { level := v.level
    message := v.message
    code := some v.code
    subject := v.subject?
    span := v.span?
    hint := v.hint? }

/-- A violation is an error. -/
def isError (v : Violation) : Bool := v.level == .error

end Violation

/-! ### Checks under way -/

/-- A check under way: whether it has found no error yet, and what was reported so far, by it or by
a check before it. The two are kept apart, and every report has to change what it should. -/
structure Tally where
  ok : Bool
  diagnostics : List Diagnostic
deriving DecidableEq, Inhabited

namespace Tally

/-- The start of a check. -/
def start (reported : List Diagnostic) : Tally := ⟨true, reported⟩

/-- Report an error. -/
def error (t : Tally) (v : Violation) : Tally := ⟨false, t.diagnostics ++ [v.diagnostic]⟩

/-- Report what is no error. -/
def warning (t : Tally) (v : Violation) : Tally := ⟨t.ok, t.diagnostics ++ [v.diagnostic]⟩

/-- Go on with a part that is checked by itself. -/
def also (t : Tally) (part : List Diagnostic → Tally) : Tally :=
  ⟨t.ok && (part t.diagnostics).ok, (part t.diagnostics).diagnostics⟩

end Tally

/-! ### Relations -/

/-- A name that a relation may have: an identifier that a registry can hold as a key. -/
def isRelationName (r : String) : Bool := isIdentifier r && r != "__proto__"

namespace Graph

/-- Check the relation of an element; the relations before it come with it, the latest first. -/
def relationStep (s : Tally × List (String × ElementId)) (e : Element) :
    Tally × List (String × ElementId) :=
  match e.relation? with
  | none => s
  | some r =>
    let t := if isRelationName r then s.1 else s.1.error (.relationName r)
    let t := match s.2.lookup r with
      | some first => t.error (.relationTwice r first e.id)
      | none => t
    (t, (r, e.id) :: s.2)

/-- Check the relation names. -/
def checkRelations (g : Graph) (reported : List Diagnostic) : Tally :=
  (g.elements.foldl relationStep (.start reported, [])).1

/-! ### Scanners -/

/-- A scanner may read the element with this number. -/
def isScannable (g : Graph) (id : ElementId) : Bool :=
  match g.element? id with
  | some e => e.variant.isScannable
  | none => false

/-- Check what an element reads, if it is a scanner. -/
def scannerStep (g : Graph) (t : Tally) (e : Element) : Tally :=
  match e.kind with
  | .scanner id => if g.isScannable id then t else t.error (.scannerTarget e.id (g.label id))
  | _ => t

/-- Check the scanners. -/
def checkScanners (g : Graph) (reported : List Diagnostic) : Tally :=
  g.elements.foldl g.scannerStep (.start reported)

/-! ### Ports -/

/-- Check an output of an element. All sorts but tables have the output, so nothing else can be
wrong with it than that it is a table's. -/
def outputStep (e : Element) (t : Tally) (o : OutputPort) : Tally :=
  if o.connections.isEmpty then t
  else if e.variant = .table then t.warning (.tableEdges e.identity o.connections.length)
  else t

/-- Check an edge that leaves the element `e`. -/
def edgeStep (g : Graph) (e : Element) (t : Tally) (edge : Edge) : Tally :=
  match g.element? edge.target with
  | none => t.error (.edgeTarget e.identity edge.target)
  | some target =>
    if edge.port ∈ target.variant.inputPorts then t
    else t.error (.edgePort target.identity target.variant edge.port)

/-- Check the outputs of an element, and then its edges. -/
def portStep (g : Graph) (t : Tally) (e : Element) : Tally :=
  e.edges.foldl (g.edgeStep e) (e.outputs.foldl (outputStep e) t)

/-- Check the ports. -/
def checkPorts (g : Graph) (reported : List Diagnostic) : Tally :=
  g.elements.foldl g.portStep (.start reported)

/-! ### Functions -/

/-- Check a parameter in a function of so many parameters. -/
def paramStep (element : String) (role : FunctionRole) (count : Nat) (t : Tally)
    (p : UInt32 × Span) : Tally :=
  if count ≤ p.1.toNat then t.error (.parameter element role p.1 count p.2) else t

/-- Check a free name in a function. -/
def nameStep (element : String) (role : FunctionRole) (t : Tally) (p : String × Span) : Tally :=
  if p.1 ∈ Pipeline.factoryLocals then t.error (.capturedName element role p.1 p.2) else t

/-- Check a function of so many parameters. -/
def checkFunction (element : String) (role : FunctionRole) (f : Expr) (count : Nat)
    (reported : List Diagnostic) : Tally :=
  f.freeNames.foldl (nameStep element role)
    (f.paramRefs.foldl (paramStep element role count) (.start reported))

/-- Check the functions of an element. -/
def functionStep (t : Tally) (e : Element) : Tally :=
  match e.kind with
  | .join b p _ =>
    (t.also (checkFunction e.identity .buildKey b 1)).also (checkFunction e.identity .probeKey p 1)
  | .map f n =>
    if n = 0 then t.error (.zeroArity e.identity)
    else t.also (checkFunction e.identity .mapFunction f n)
  | _ => t

/-- Check the functions. -/
def checkFunctions (g : Graph) (reported : List Diagnostic) : Tally :=
  g.elements.foldl functionStep (.start reported)

/-! ### Strata -/

/-- Check an element that a stratum lists; the elements placed before come with it, the latest
first. -/
def memberStep (g : Graph) (index : Nat) (s : Tally × List (ElementId × Nat)) (id : ElementId) :
    Tally × List (ElementId × Nat) :=
  if (g.element? id).isNone then (s.1.error (.stratumMember index id), s.2)
  else
    let t := match s.2.lookup id with
      | some first => s.1.error (.placedTwice (g.label id) first index)
      | none => s.1
    (t, (id, index) :: s.2)

/-- Check a stratum; the elements placed before and the indices before come with it. -/
def stratumStep (g : Graph) (s : (Tally × List (ElementId × Nat)) × List Nat)
    (stratum : Stratum) : (Tally × List (ElementId × Nat)) × List Nat :=
  let t := if stratum.index ∈ s.2 then s.1.1.error (.stratumTwice stratum.index) else s.1.1
  (stratum.elements.foldl (g.memberStep stratum.index) (t, s.1.2), stratum.index :: s.2)

/-- Check that an element is placed if it has to be. -/
def unplacedStep (placed : List (ElementId × Nat)) (t : Tally) (e : Element) : Tally :=
  if e.variant.needsStratum && (placed.lookup e.id).isNone then
    t.error (.unplaced e.identity e.variant)
  else t

/-- Check the strata. -/
def checkStrata (g : Graph) (reported : List Diagnostic) : Tally :=
  let s := (g.strata.foldl g.stratumStep ((.start reported, []), [])).1
  g.elements.foldl (unplacedStep s.2) s.1

/-! ### Lookup tables -/

/-- Check an element that a lookup table names. -/
def lookupMemberStep (g : Graph) (role : LookupRole) (t : Tally) (id : ElementId) : Tally :=
  if (g.element? id).isNone then t.error (.lookupMember role id) else t

/-- Check an entry of a lookup table; the keys before come with it. -/
def lookupStep (g : Graph) (role : LookupRole) (s : Tally × List ElementId)
    (entry : ElementId × List ElementId) : Tally × List ElementId :=
  let t := if entry.1 ∈ s.2 then s.1.error (.lookupKeyTwice role (g.label entry.1)) else s.1
  ((entry.1 :: entry.2).foldl (g.lookupMemberStep role) t, entry.1 :: s.2)

/-- Check a lookup table. -/
def checkLookup (g : Graph) (role : LookupRole) (table : LookupTable)
    (reported : List Diagnostic) : Tally :=
  (table.foldl (g.lookupStep role) (.start reported, [])).1

end Graph

/-! ### Certificates -/

/-- Which checks found no error. -/
structure Certificate where
  relations : Bool
  scanners : Bool
  ports : Bool
  functions : Bool
  strata : Bool
  lookups : Bool
deriving DecidableEq, Inhabited

namespace Certificate

/-- The flags by name. -/
def obligations (c : Certificate) : List (String × Bool) :=
  [("relations", c.relations), ("scanners", c.scanners), ("ports", c.ports),
    ("functions", c.functions), ("strata", c.strata), ("lookups", c.lookups)]

/-- No check found an error. -/
def allPass (c : Certificate) : Bool := c.obligations.all Prod.snd

end Certificate

/-- The outcome of the checks: which of them found no error, and what they found. -/
structure Validated where
  certificate : Certificate
  diagnostics : List Diagnostic
deriving DecidableEq, Inhabited

/-- Check a graph. The checks report one after another, and each has a flag of its own. -/
def Graph.validate (g : Graph) : Validated :=
  let relations := g.checkRelations []
  let scanners := g.checkScanners relations.diagnostics
  let ports := g.checkPorts scanners.diagnostics
  let functions := g.checkFunctions ports.diagnostics
  let strata := g.checkStrata functions.diagnostics
  let invalidation := g.checkLookup .invalidation g.invalidation strata.diagnostics
  let rescan := g.checkLookup .rescan g.rescan invalidation.diagnostics
  { certificate :=
      { relations := relations.ok
        scanners := scanners.ok
        ports := ports.ok
        functions := functions.ok
        strata := strata.ok
        lookups := invalidation.ok && rescan.ok }
    diagnostics := rescan.diagnostics }

end Dataflow
