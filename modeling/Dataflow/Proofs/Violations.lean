import Dataflow.Graph.Validation

/-!
# What the checks find

Each check is a loop that changes a `Tally`. What it finds is given here by itself, as the list of
the violations in the order in which they are reported.

* `Tally.addAll` is what becomes of a tally once a list of violations is reported: the flag stays if
  there is no error among them, and their diagnostics come behind those before.
* Each step of a check adds the violations that it finds, and no more (`scannerStep_eq` and the
  others). So by induction over the loop, the whole check adds its list (`checkScanners_eq` and the
  others).
* The flags of the certificate are then those of the lists, and the diagnostics are those of all
  lists in a row (`certificate_validate`, `diagnostics_validate`).
-/

namespace Dataflow

namespace Graph

/-- There is no error among some violations. -/
def clean (vs : List Violation) : Bool := !vs.any Violation.isError

end Graph

/-! ### Tallies -/

namespace Tally

variable {t : Tally} {v : Violation} {vs ws : List Violation}

/-- A tally once some violations are reported. -/
def addAll (t : Tally) (vs : List Violation) : Tally :=
  ⟨t.ok && Graph.clean vs, t.diagnostics ++ vs.map Violation.diagnostic⟩

theorem addAll_nil : t.addAll [] = t := by
  simp [addAll, Graph.clean]

theorem addAll_append : t.addAll (vs ++ ws) = (t.addAll vs).addAll ws := by
  simp [addAll, Graph.clean, Bool.and_assoc]

theorem error_eq (hv : v.isError = true) : t.error v = t.addAll [v] := by
  simp [error, addAll, Graph.clean, hv]

theorem warning_eq (hv : v.isError = false) : t.warning v = t.addAll [v] := by
  simp [warning, addAll, Graph.clean, hv]

/-- An error is reported unless a condition holds. -/
theorem ite_error {p : Prop} [Decidable p] (hv : v.isError = true) :
    (if p then t else t.error v) = t.addAll (if p then [] else [v]) := by
  split
  · exact addAll_nil.symm
  · exact error_eq hv

/-- An error is reported if a condition holds. -/
theorem ite_error_not {p : Prop} [Decidable p] (hv : v.isError = true) :
    (if p then t.error v else t) = t.addAll (if p then [v] else []) := by
  split
  · exact error_eq hv
  · exact addAll_nil.symm

/-- A part that is checked by itself lowers the flag exactly if it finds an error. -/
theorem also_eq {part : List Diagnostic → Tally} (h : ∀ ds, part ds = (start ds).addAll vs) :
    t.also part = t.addAll vs := by
  simp [also, h, addAll, start]

/-- A loop adds what its steps add. -/
theorem foldl_eq {α : Type} {step : Tally → α → Tally} {found : α → List Violation}
    (h : ∀ t a, step t a = t.addAll (found a)) (t : Tally) (l : List α) :
    l.foldl step t = t.addAll (l.flatMap found) := by
  induction l generalizing t with
  | nil => exact addAll_nil.symm
  | cons a l ih => rw [List.foldl_cons, ih, h, List.flatMap_cons, addAll_append]

end Tally

/-! ### Relations -/

namespace Graph

/-- The violations of relation names; `seen` has the relations before, the latest first. -/
def relationViolationsFrom (seen : List (String × ElementId)) : List Element → List Violation
  | [] => []
  | e :: es =>
    match e.relation? with
    | none => relationViolationsFrom seen es
    | some r =>
      (if isRelationName r then [] else [.relationName r]) ++
        (match seen.lookup r with
          | some first => [.relationTwice r first e.id]
          | none => []) ++
        relationViolationsFrom ((r, e.id) :: seen) es

/-- The violations of relation names. -/
def relationViolations (g : Graph) : List Violation := relationViolationsFrom [] g.elements

theorem foldl_relationStep (t : Tally) (seen : List (String × ElementId)) (es : List Element) :
    (es.foldl relationStep (t, seen)).1 = t.addAll (relationViolationsFrom seen es) := by
  induction es generalizing t seen with
  | nil => exact Tally.addAll_nil.symm
  | cons e es ih =>
    rw [List.foldl_cons, relationStep, relationViolationsFrom]
    cases e.relation? with
    | none => exact ih t seen
    | some r =>
      dsimp only
      rw [ih, Tally.addAll_append, Tally.addAll_append, Tally.ite_error rfl]
      cases seen.lookup r with
      | none => rw [Tally.addAll_nil]
      | some first => exact congrArg (Tally.addAll · _) (Tally.error_eq rfl)

theorem checkRelations_eq (g : Graph) (ds : List Diagnostic) :
    g.checkRelations ds = (Tally.start ds).addAll g.relationViolations :=
  foldl_relationStep _ [] g.elements

/-! ### Scanners -/

/-- The violations of an element as a scanner. -/
def elementScannerViolations (g : Graph) (e : Element) : List Violation :=
  match e.kind with
  | .scanner t => if g.isScannable t then [] else [.scannerTarget e.id (g.label t)]
  | _ => []

/-- The violations of scanners. -/
def scannerViolations (g : Graph) : List Violation := g.elements.flatMap g.elementScannerViolations

theorem scannerStep_eq (g : Graph) (t : Tally) (e : Element) :
    g.scannerStep t e = t.addAll (g.elementScannerViolations e) := by
  unfold scannerStep elementScannerViolations
  cases e.kind with
  | scanner id => exact Tally.ite_error rfl
  | table | input | join | map => exact Tally.addAll_nil.symm

theorem checkScanners_eq (g : Graph) (ds : List Diagnostic) :
    g.checkScanners ds = (Tally.start ds).addAll g.scannerViolations :=
  Tally.foldl_eq g.scannerStep_eq _ _

/-! ### Ports -/

/-- The edges of an output, if it is a table's. -/
def tableEdgeViolations (e : Element) (o : OutputPort) : List Violation :=
  if e.variant = .table ∧ ¬o.connections.isEmpty then
    [.tableEdges e.identity o.connections.length]
  else []

/-- The violations of an edge that leaves the element `e`. -/
def edgeViolations (g : Graph) (e : Element) (edge : Edge) : List Violation :=
  match g.element? edge.target with
  | none => [.edgeTarget e.identity edge.target]
  | some t =>
    if edge.port ∈ t.variant.inputPorts then [] else [.edgePort t.identity t.variant edge.port]

/-- The violations of ports. -/
def portViolations (g : Graph) : List Violation :=
  g.elements.flatMap fun e =>
    e.outputs.flatMap (tableEdgeViolations e) ++ e.edges.flatMap (g.edgeViolations e)

/-- The edges of a table are reported, and leave the flag as it is. -/
theorem outputStep_eq (e : Element) (t : Tally) (o : OutputPort) :
    outputStep e t o = t.addAll (tableEdgeViolations e o) := by
  unfold outputStep tableEdgeViolations
  by_cases ho : o.connections.isEmpty = true
  · simp [ho, Tally.addAll_nil]
  · by_cases hv : e.variant = .table
    · simp only [ho, hv, not_false_eq_true, and_self, if_true, Bool.false_eq_true, if_false]
      exact Tally.warning_eq rfl
    · simp [ho, hv, Tally.addAll_nil]

theorem edgeStep_eq (g : Graph) (e : Element) (t : Tally) (edge : Edge) :
    g.edgeStep e t edge = t.addAll (g.edgeViolations e edge) := by
  unfold edgeStep edgeViolations
  cases g.element? edge.target with
  | none => exact Tally.error_eq rfl
  | some target => exact Tally.ite_error rfl

theorem checkPorts_eq (g : Graph) (ds : List Diagnostic) :
    g.checkPorts ds = (Tally.start ds).addAll g.portViolations := by
  refine Tally.foldl_eq (fun t e => ?_) _ _
  rw [portStep, Tally.foldl_eq (outputStep_eq e), Tally.foldl_eq (g.edgeStep_eq e),
    Tally.addAll_append]

/-! ### Functions -/

/-- The violations of a function of so many parameters. -/
def functionViolations (element : String) (role : FunctionRole) (f : Expr) (count : Nat) :
    List Violation :=
  (f.paramRefs.flatMap fun p =>
    if count ≤ p.1.toNat then [.parameter element role p.1 count p.2] else []) ++
  f.freeNames.flatMap fun p =>
    if p.1 ∈ Pipeline.factoryLocals then [.capturedName element role p.1 p.2] else []

/-- The violations of an element's functions. -/
def elementFunctionViolations (e : Element) : List Violation :=
  match e.kind with
  | .join b p _ =>
    functionViolations e.identity .buildKey b 1 ++ functionViolations e.identity .probeKey p 1
  | .map f n =>
    if n = 0 then [.zeroArity e.identity] else functionViolations e.identity .mapFunction f n
  | _ => []

/-- The violations of functions. -/
def functionsViolations (g : Graph) : List Violation := g.elements.flatMap elementFunctionViolations

theorem paramStep_eq (element : String) (role : FunctionRole) (count : Nat) (t : Tally)
    (p : UInt32 × Span) :
    paramStep element role count t p =
      t.addAll (if count ≤ p.1.toNat then [.parameter element role p.1 count p.2] else []) :=
  Tally.ite_error_not rfl

theorem nameStep_eq (element : String) (role : FunctionRole) (t : Tally) (p : String × Span) :
    nameStep element role t p = t.addAll
      (if p.1 ∈ Pipeline.factoryLocals then [.capturedName element role p.1 p.2] else []) :=
  Tally.ite_error_not rfl

theorem checkFunction_eq (element : String) (role : FunctionRole) (f : Expr) (count : Nat)
    (ds : List Diagnostic) :
    checkFunction element role f count ds =
      (Tally.start ds).addAll (functionViolations element role f count) := by
  rw [checkFunction, Tally.foldl_eq (paramStep_eq element role count),
    Tally.foldl_eq (nameStep_eq element role), functionViolations, Tally.addAll_append]

theorem functionStep_eq (t : Tally) (e : Element) :
    functionStep t e = t.addAll (elementFunctionViolations e) := by
  have hpart (role : FunctionRole) (f : Expr) (count : Nat) (t : Tally) :
      t.also (checkFunction e.identity role f count) =
        t.addAll (functionViolations e.identity role f count) :=
    Tally.also_eq (checkFunction_eq e.identity role f count)
  unfold functionStep elementFunctionViolations
  cases e.kind with
  | join b p left => simp only [hpart, Tally.addAll_append]
  | map f n =>
    dsimp only
    split
    · exact Tally.error_eq rfl
    · exact hpart _ f n t
  | table | input | scanner => exact Tally.addAll_nil.symm

theorem checkFunctions_eq (g : Graph) (ds : List Diagnostic) :
    g.checkFunctions ds = (Tally.start ds).addAll g.functionsViolations :=
  Tally.foldl_eq functionStep_eq _ _

/-! ### Strata -/

/-- The violations of a stratum's elements; `placed` has the elements placed before, the latest
first. Also all that are placed then. -/
def memberViolations (g : Graph) (index : Nat) :
    List (ElementId × Nat) → List ElementId → List Violation × List (ElementId × Nat)
  | placed, [] => ([], placed)
  | placed, id :: ids =>
    if (g.element? id).isNone then
      let (vs, placed) := g.memberViolations index placed ids
      (.stratumMember index id :: vs, placed)
    else
      let here := match placed.lookup id with
        | some first => [.placedTwice (g.label id) first index]
        | none => []
      let (vs, placed) := g.memberViolations index ((id, index) :: placed) ids
      (here ++ vs, placed)

/-- The violations of strata; `indices` and `placed` have what came before. Also all that are placed
then. -/
def stratumViolations (g : Graph) :
    List Nat → List (ElementId × Nat) → List Stratum → List Violation × List (ElementId × Nat)
  | _, placed, [] => ([], placed)
  | indices, placed, s :: strata =>
    let here := if s.index ∈ indices then [.stratumTwice s.index] else []
    let (members, placed) := g.memberViolations s.index placed s.elements
    let (rest, placed) := g.stratumViolations (s.index :: indices) placed strata
    (here ++ members ++ rest, placed)

/-- An element that has to be in a stratum and is not. -/
def unplacedViolations (placed : List (ElementId × Nat)) (e : Element) : List Violation :=
  if e.variant.needsStratum && (placed.lookup e.id).isNone then
    [.unplaced e.identity e.variant]
  else []

/-- The violations of the strata. -/
def strataViolations (g : Graph) : List Violation :=
  let (vs, placed) := g.stratumViolations [] [] g.strata
  vs ++ g.elements.flatMap (unplacedViolations placed)

theorem foldl_memberStep (g : Graph) (index : Nat) (t : Tally) (placed : List (ElementId × Nat))
    (ids : List ElementId) :
    ids.foldl (g.memberStep index) (t, placed) =
      (t.addAll (g.memberViolations index placed ids).1,
        (g.memberViolations index placed ids).2) := by
  induction ids generalizing t placed with
  | nil => simp [memberViolations, Tally.addAll_nil]
  | cons id ids ih =>
    rw [List.foldl_cons, memberStep, memberViolations]
    split
    · rw [ih, Tally.error_eq rfl, ← Tally.addAll_append]
      rfl
    · cases placed.lookup id with
      | none => exact ih t _
      | some first =>
        dsimp only
        rw [ih, Tally.error_eq rfl, ← Tally.addAll_append]

theorem foldl_stratumStep (g : Graph) (t : Tally) (placed : List (ElementId × Nat))
    (indices : List Nat) (strata : List Stratum) :
    (strata.foldl g.stratumStep ((t, placed), indices)).1 =
      (t.addAll (g.stratumViolations indices placed strata).1,
        (g.stratumViolations indices placed strata).2) := by
  induction strata generalizing t placed indices with
  | nil => simp [stratumViolations, Tally.addAll_nil]
  | cons s strata ih =>
    rw [List.foldl_cons, stratumStep, stratumViolations]
    dsimp only
    rw [foldl_memberStep, ih, Tally.ite_error_not rfl, Tally.addAll_append, Tally.addAll_append]

theorem unplacedStep_eq (placed : List (ElementId × Nat)) (t : Tally) (e : Element) :
    unplacedStep placed t e = t.addAll (unplacedViolations placed e) :=
  Tally.ite_error_not rfl

theorem checkStrata_eq (g : Graph) (ds : List Diagnostic) :
    g.checkStrata ds = (Tally.start ds).addAll g.strataViolations := by
  rw [checkStrata, foldl_stratumStep, Tally.foldl_eq (unplacedStep_eq _), ← Tally.addAll_append]
  rfl

/-! ### Lookup tables -/

/-- The violations of a lookup table; `keys` has the keys before. -/
def lookupViolationsFrom (g : Graph) (role : LookupRole) (keys : List ElementId) :
    LookupTable → List Violation
  | [] => []
  | (key, values) :: entries =>
    (if key ∈ keys then [.lookupKeyTwice role (g.label key)] else []) ++
      ((key :: values).flatMap fun id =>
        if (g.element? id).isNone then [.lookupMember role id] else []) ++
      g.lookupViolationsFrom role (key :: keys) entries

/-- The violations of the lookup tables. -/
def lookupViolations (g : Graph) : List Violation :=
  g.lookupViolationsFrom .invalidation [] g.invalidation ++
    g.lookupViolationsFrom .rescan [] g.rescan

theorem lookupMemberStep_eq (g : Graph) (role : LookupRole) (t : Tally) (id : ElementId) :
    g.lookupMemberStep role t id =
      t.addAll (if (g.element? id).isNone then [.lookupMember role id] else []) :=
  Tally.ite_error_not rfl

theorem foldl_lookupStep (g : Graph) (role : LookupRole) (t : Tally) (keys : List ElementId)
    (table : LookupTable) :
    (table.foldl (g.lookupStep role) (t, keys)).1 =
      t.addAll (g.lookupViolationsFrom role keys table) := by
  induction table generalizing t keys with
  | nil => exact Tally.addAll_nil.symm
  | cons entry table ih =>
    rw [List.foldl_cons, lookupStep, lookupViolationsFrom]
    dsimp only
    rw [ih, Tally.foldl_eq (g.lookupMemberStep_eq role), Tally.ite_error_not rfl,
      Tally.addAll_append, Tally.addAll_append]

theorem checkLookup_eq (g : Graph) (role : LookupRole) (table : LookupTable)
    (ds : List Diagnostic) :
    g.checkLookup role table ds = (Tally.start ds).addAll (g.lookupViolationsFrom role [] table) :=
  foldl_lookupStep g role _ [] table

/-! ### All checks -/

/-- Which lists of violations have no error. -/
def certificate (g : Graph) : Certificate :=
  { relations := clean g.relationViolations
    scanners := clean g.scannerViolations
    ports := clean g.portViolations
    functions := clean g.functionsViolations
    strata := clean g.strataViolations
    lookups := clean g.lookupViolations }

/-- All violations of a graph, by check. -/
def violations (g : Graph) : List Violation :=
  g.relationViolations ++ g.scannerViolations ++ g.portViolations ++ g.functionsViolations ++
    g.strataViolations ++ g.lookupViolations

/-- The flags that the checks keep are those of the violations that they find. -/
theorem certificate_validate (g : Graph) : g.validate.certificate = g.certificate := by
  simp only [validate, checkRelations_eq, checkScanners_eq, checkPorts_eq, checkFunctions_eq,
    checkStrata_eq, checkLookup_eq, Tally.addAll, Tally.start, Bool.true_and, certificate]
  simp [clean, lookupViolations]

/-- What the checks report is what they find. -/
theorem diagnostics_validate (g : Graph) :
    g.validate.diagnostics = g.violations.map Violation.diagnostic := by
  simp [validate, checkRelations_eq, checkScanners_eq, checkPorts_eq, checkFunctions_eq,
    checkStrata_eq, checkLookup_eq, Tally.addAll, Tally.start, violations, lookupViolations]

end Graph

end Dataflow
