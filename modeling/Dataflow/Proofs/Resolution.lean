import Dataflow.Proofs.Generation

/-!
# Resolution ends, and is exact

To refer to an element is a recursive matter: a scanner is obtained from the element that it reads,
which is referred to in turn. Since scanners may read themselves or each other, it is not clear that
this ends.

* `Graph.elementCall` and `Graph.sourceCall` say what a call does, given what the calls inside of it
  give. A call may also not end.
* Only tables and inputs are asked for inside of a call, and they ask for nothing
  (`elementCall_of_isScannable`). So there is at most one call inside of another: whatever further
  calls would give, the answer is `Graph.elementRef` (`elementCall_elementCall`).

`Graph.resolution_exact` adds which elements can be referred to, how, and what the error is for all
others.
-/

namespace Dataflow

namespace Graph

/-! ### Calls -/

/-- What a call gives: code or an error, unless it does not end. -/
abbrev Outcome := ExceptT GenerateError Option Layout

/-- The scanner of a target, where `nested` is what calls for elements give. -/
def sourceCall (g : Graph) (nested : ElementId → Outcome) (scanner target : ElementId) :
    Outcome := do
  let e ← g.get target
  if e.variant.isScannable then
    return Script.methodCall (← nested target) "scanner" []
  else
    throw (.scannerTarget scanner target)

/-- An element, where `nested` is what calls for elements give. -/
def elementCall (g : Graph) (ns : Names) (nested : ElementId → Outcome) (id : ElementId) :
    Outcome := do
  let e ← g.get id
  let name ← ns.find id
  match e.kind with
  | .table .. => return Script.member "tables" name
  | .input .. => return Script.member "inputs" name
  | .join .. | .map .. => return Script.member "operators" name
  | .scanner t => g.sourceCall nested id t

/-- A call that ends. -/
def Outcome.ofExcept (x : Except GenerateError Layout) : Outcome := ExceptT.mk (some x)

variable {g : Graph} {id : ElementId}

/-- A call for a table or input has no calls inside of it. -/
theorem elementCall_of_isScannable {e : Element} (he : g.element? id = some e)
    (hv : e.variant.isScannable = true) (ns : Names) (nested : ElementId → Outcome) :
    g.elementCall ns nested id = .ofExcept ((g.elementRef ns id).map Reference.layout) := by
  unfold elementCall elementRef
  rw [get_eq_ok.2 he]
  obtain ⟨_, kind, _⟩ := e
  cases ns.find id with
  | error err => rfl
  | ok name =>
    cases kind with
    | table | input => rfl
    | join | map | scanner => cases hv

/-- A scanner asks only for a table or input, and then gets it. -/
theorem sourceCall_elementCall (g : Graph) (ns : Names) (nested : ElementId → Outcome)
    (scanner target : ElementId) :
    g.sourceCall (g.elementCall ns nested) scanner target =
      .ofExcept ((g.scannerSource ns scanner target).map Reference.layout) := by
  unfold sourceCall scannerSource
  cases he : g.element? target with
  | none =>
    rw [get, he]
    rfl
  | some e =>
    have hcall := fun hv => elementCall_of_isScannable he hv ns nested
    unfold elementRef at hcall
    rw [get_eq_ok.2 he] at hcall ⊢
    obtain ⟨_, kind, _⟩ := e
    cases kind with
    | table | input =>
      have hnested := hcall rfl
      cases hfind : ns.find target with
      | error err | ok name =>
        rw [hfind] at hnested
        exact congrArg (· >>= fun code => pure (Script.methodCall code "scanner" [])) hnested
    | join | map | scanner => rfl

/-- After one nested call the answer is there, whatever further calls would give. -/
theorem elementCall_elementCall (g : Graph) (ns : Names) (nested : ElementId → Outcome)
    (id : ElementId) :
    g.elementCall ns (g.elementCall ns nested) id =
      .ofExcept ((g.elementRef ns id).map Reference.layout) := by
  unfold elementRef
  rw [elementCall]
  cases g.get id with
  | error err => rfl
  | ok e =>
    obtain ⟨_, kind, _⟩ := e
    cases ns.find id with
    | error err => rfl
    | ok name =>
      cases kind with
      | table | input | join | map => rfl
      | scanner target => exact sourceCall_elementCall g ns nested id target

/-! ### Answers -/

/-- Why there is no reference to an element: there is no such element, or it is a scanner, and what
it reads does not exist or is no table or input. -/
inductive Unresolved (g : Graph) (id : ElementId) : GenerateError → Prop
  | unknown : g.element? id = none → Unresolved g id (.unknownElement id)
  | unknownTarget {target : ElementId} :
    g.scanned? id = some target → g.element? target = none →
    Unresolved g id (.unknownElement target)
  | target {target : ElementId} {e : Element} :
    g.scanned? id = some target → g.element? target = some e →
    ¬(e.variant = .table ∨ e.variant = .input) →
      Unresolved g id (.scannerTarget id target)

theorem resolves_iff :
    g.Resolves id ↔ ∃ e, g.element? id = some e ∧ ∀ target, e.kind = .scanner target →
    ∃ e', g.element? target = some e' ∧ (e'.variant = .table ∨ e'.variant = .input) := by
  simp only [Resolves, Option.isSome_iff_exists, scanned?_eq_some, isScannable_iff]
  constructor
  · rintro ⟨⟨e, he⟩, hscanned⟩
    exact ⟨e, he, fun target hk => hscanned target ⟨e, he, hk⟩⟩
  · rintro ⟨e, he, hscanned⟩
    refine ⟨⟨e, he⟩, ?_⟩
    rintro target ⟨e', he', hk⟩
    cases he.symm.trans he'
    exact hscanned target hk

theorem resolves_or_unresolved (g : Graph) (id : ElementId) :
    g.Resolves id ∨ ∃ err, g.Unresolved id err := by
  cases he : g.element? id with
  | none => exact .inr ⟨_, .unknown he⟩
  | some e =>
    cases hs : g.scanned? id with
    | none => exact .inl ⟨by simp [he], by simp [hs]⟩
    | some target =>
      cases ht : g.element? target with
      | none => exact .inr ⟨_, .unknownTarget hs ht⟩
      | some e' =>
        by_cases hv : e'.variant = .table ∨ e'.variant = .input
        · exact .inl ⟨by simp [he], by simpa [hs] using isScannable_iff.2 ⟨e', ht, hv⟩⟩
        · exact .inr ⟨_, .target hs ht hv⟩

/-- A scanner is referred to through what it reads. -/
theorem elementRef_scanner {target : ElementId} (h : g.scanned? id = some target) :
    g.elementRef g.names id = g.scannerSource g.names id target := by
  obtain ⟨⟨_, kind, _⟩, he, rfl⟩ := scanned?_eq_some.1 h
  have hfind : g.names.find id = .ok (g.label id) := (names_find_eq_ok _ _).2 ⟨by simp [he], rfl⟩
  rw [elementRef, get_eq_ok.2 he, hfind]
  rfl

theorem Unresolved.elementRef_eq {err : GenerateError} (h : g.Unresolved id err) :
    g.elementRef g.names id = .error err := by
  cases h with
  | unknown he =>
    rw [elementRef, get, he]
    rfl
  | unknownTarget hs ht =>
    rw [elementRef_scanner hs, scannerSource, get, ht]
    rfl
  | @target target e hs ht hv =>
    rw [elementRef_scanner hs, scannerSource, get_eq_ok.2 ht]
    obtain ⟨_, kind, _⟩ := e
    cases kind with
    | table => exact absurd (.inl rfl) hv
    | input => exact absurd (.inr rfl) hv
    | join | map | scanner => rfl

theorem elementRef_eq_error {err : GenerateError} :
    g.elementRef g.names id = .error err ↔ g.Unresolved id err := by
  refine ⟨fun h => ?_, Unresolved.elementRef_eq⟩
  rcases g.resolves_or_unresolved id with hr | ⟨err', hu⟩
  · rw [elementRef_eq_ok.2 ⟨hr, rfl⟩] at h
    cases h
  · rw [hu.elementRef_eq] at h
    cases h
    exact hu

/-- **Resolution ends and is exact.** Whatever steps made a graph, whose elements have their names,
a call for an element has at most one call inside of it: the answer does not depend on what further
calls give, or on whether they end. It is a reference if the element exists and, if it is a scanner,
reads a table or input. Otherwise it is the error that the element or what it reads is unknown, or
that the scanner reads something else. -/
theorem resolution_exact (steps : List BuildStep) (ns : Names)
    (h : Names.ofGraph (ofSteps steps) = .ok ns) (id : ElementId) :
    let g := ofSteps steps
    (∀ nested,
      g.elementCall ns (g.elementCall ns nested) id =
        .ofExcept ((g.elementRef ns id).map Reference.layout)) ∧
    (∀ r, g.elementRef ns id = .ok r ↔
      (∃ e, g.element? id = some e ∧ ∀ target, e.kind = .scanner target →
        ∃ e', g.element? target = some e' ∧ (e'.variant = .table ∨ e'.variant = .input)) ∧
        r = g.reference id) ∧
    ∀ err, g.elementRef ns id = .error err ↔ g.Unresolved id err := by
  intro g
  obtain ⟨-, rfl⟩ := Names.ofGraph_eq_ok.1 h
  refine ⟨fun nested => elementCall_elementCall g g.names nested id, fun r => ?_, fun err =>
    elementRef_eq_error⟩
  rw [← resolves_iff]
  exact elementRef_eq_ok

theorem resolution_exact_tangled :
    let steps : List BuildStep :=
      [.add (.table "t" 0), .add (.map (.param default 0) 1), .add (.scanner 2), .add (.scanner 4),
        .add (.scanner 3), .add (.scanner 9), .add (.scanner 1), .add (.scanner 0)]
    let g := ofSteps steps
    ∃ ns, Names.ofGraph g = .ok ns ∧
      (∀ id nested, g.elementCall ns (g.elementCall ns nested) id =
        .ofExcept ((g.elementRef ns id).map Reference.layout)) ∧
      g.elementRef ns 2 = .error (.scannerTarget 2 2) ∧
      g.elementRef ns 3 = .error (.scannerTarget 3 4) ∧
      g.elementRef ns 4 = .error (.scannerTarget 4 3) ∧
      g.elementRef ns 5 = .error (.unknownElement 9) ∧
      g.elementRef ns 6 = .error (.scannerTarget 6 1) ∧
      g.elementRef ns 7 = .ok (.scanner .tables "t") ∧
      g.elementRef ns 8 = .error (.unknownElement 8) := by
  intro steps g
  have hns : Names.ofGraph g = .ok g.names := Names.ofGraph_eq_ok.2 ⟨by decide +kernel, rfl⟩
  have hexact := resolution_exact steps _ hns
  refine ⟨_, hns, fun id => (hexact id).1, ?_, ?_, ?_, ?_, ?_, ?_, ?_⟩
  · exact ((hexact 2).2.2 _).2 (.target rfl rfl (by decide))
  · exact ((hexact 3).2.2 _).2 (.target rfl rfl (by decide))
  · exact ((hexact 4).2.2 _).2 (.target rfl rfl (by decide))
  · exact ((hexact 5).2.2 _).2 (.unknownTarget rfl rfl)
  · exact ((hexact 6).2.2 _).2 (.target rfl rfl (by decide))
  · refine ((hexact 7).2.1 _).2 ⟨⟨_, rfl, fun target hk => ?_⟩, rfl⟩
    cases hk
    exact ⟨_, rfl, .inl rfl⟩
  · exact ((hexact 8).2.2 _).2 (.unknown rfl)

-- The nested call is needed: if it does not end, neither does the call for a scanner of a table.
example :
    (ofSteps [.add (.table "t" 0), .add (.scanner 0)]).elementCall ⟨["t", "1"]⟩
      (fun _ => ExceptT.mk none) 1 =
    ExceptT.mk none := rfl

end Graph

end Dataflow
