import Dataflow.CommandLine.Basic
import Dataflow.Proofs.Loading
import Dataflow.Proofs.Wellformed

/-!
# How a run ends

Every pass either makes what it is there to make or reports an error, never both and never neither.
So a run that goes through the passes in order has what the later passes need, and its outcome can
be read off its findings.

* `Succeeded c done`: the passes `done` have left all that they make, and no error.
* `Failed c done p`: after the passes `done`, the pass `p` has found an error.

A pass leads from a state of the first kind to one of the two (`Performed.succeeded`,
`Performed.failed`), hence so does a run (`ends_runPasses`).
-/

namespace Dataflow

/-! ### A pass makes its artifact or finds an error -/

@[simp] theorem hasErrors_append {ds es : List Diagnostic} :
    hasErrors (ds ++ es) = (hasErrors ds || hasErrors es) := List.any_append

theorem hasErrors_eq_false_of_all {ds : List Diagnostic} (h : ∀ d ∈ ds, d.isError = true) :
    hasErrors ds = false ↔ ds = [] := by
  cases ds with
  | nil => simp [hasErrors]
  | cons d ds => simp [hasErrors, h d List.mem_cons_self]

theorem LoadFault.isError_diagnostic (f : LoadFault) : f.diagnostic.isError = true := by
  cases f <;> rfl

namespace Graph

/-- Loading finds no error exactly if there is a graph. -/
theorem hasErrors_load {text : String} :
    hasErrors (load text).diagnostics = false ↔ (load text).graph.isSome = true := by
  unfold load
  cases Document.decode text with
  | error e => simp [LoadError.loaded, LoadError.diagnostic, hasErrors, Diagnostic.isError]
  | ok d =>
    have hall : ∀ x ∈ d.load.diagnostics, x.isError = true := by
      intro x hx
      obtain ⟨f, _, rfl⟩ := List.mem_map.1 hx
      exact f.isError_diagnostic
    exact (hasErrors_eq_false_of_all hall).trans Document.load_diagnostics_eq_nil

/-- The checks find no error exactly if the certificate has all flags. -/
theorem hasErrors_validate {g : Graph} :
    hasErrors g.validate.diagnostics = false ↔ g.validate.certificate.allPass = true := by
  have hclean : hasErrors g.validate.diagnostics = false ↔ clean g.violations = true := by
    rw [clean_iff]
    simp [hasErrors, diagnostics_validate, Violation.diagnostic, Diagnostic.isError,
      Violation.isError]
  rw [hclean, certificate_validate]
  simp [violations, certificate, Certificate.allPass, Certificate.obligations]

/-- Generation finds no error exactly if there is a module. -/
theorem hasErrors_emit {g : Graph} {o : Options} :
    hasErrors (g.emit o).diagnostics = false ↔ (g.emit o).generated.isSome = true := by
  unfold emit
  cases g.generate o with
  | error e => simp [GenerateError.diagnostic, hasErrors, Diagnostic.isError]
  | ok m => simp [hasErrors]

end Graph

/-! ### Plans -/

namespace Pass

/-- A pass can be carried out after others: it is a new one, the module is not there yet, and the
graph is, if it is needed. -/
def Follows (p : Pass) (done : List Pass) : Prop :=
  p ∉ done ∧ .codegen ∉ done ∧ (p = .load ∨ .load ∈ done)

/-- Passes can be carried out in order after others. -/
def Feasible : List Pass → List Pass → Prop
  | _, [] => True
  | done, p :: ps => p.Follows done ∧ Feasible (done ++ [p]) ps

theorem feasible_required (p : Pass) : Feasible [] p.required := by
  cases p <;> simp [required, all, Feasible, Follows]

theorem required_isPrefix (p : Pass) : p.required <+: all := by
  cases p <;> decide

/-- The passes up to one that is required are those that it requires itself. -/
theorem required_of_mem {terminal p : Pass} {pre post : List Pass}
    (h : terminal.required = pre ++ p :: post) :
    p.required = pre ++ [p] := by
  obtain ⟨rest, hrest⟩ := terminal.required_isPrefix
  have hall : all = pre ++ p :: (post ++ rest) := by
    rw [← hrest, h, List.append_assoc, List.cons_append]
  have hnodup : (pre ++ p :: (post ++ rest)).Nodup := hall ▸ (by decide : all.Nodup)
  have hpre : ∀ q ∈ pre, decide (q ≠ p) = true := by
    intro q hq
    exact decide_eq_true ((List.nodup_append.1 hnodup).2.2 q hq p List.mem_cons_self)
  rw [required, hall, List.takeWhile_append_of_pos hpre, List.takeWhile_cons_of_neg (by simp),
    List.append_nil]

/-- No two passes make the same. -/
theorem eq_of_mem_outputs {p q : Pass} {a : Artifact} (hp : a ∈ p.outputs) (hq : a ∈ q.outputs) :
    p = q := by
  cases p <;> cases q <;> simp_all [outputs]

end Pass

/-! ### One pass -/

namespace Compilation

/-- An artifact has been made. -/
def has (c : Compilation) : Artifact → Bool
  | .graph => c.graph.isSome
  | .certificate => c.certificate.isSome
  | .module => c.generated.isSome

/-- The passes so far have found no error, and what they make is there, and nothing else. -/
structure Succeeded (c : Compilation) (done : List Pass) : Prop where
  has_iff : ∀ a, c.has a = true ↔ ∃ p ∈ done, a ∈ p.outputs
  allPass : ∀ v, c.certificate = some v → v.allPass = true
  hasErrors : hasErrors c.diagnostics = false
  hasError : c.hasError = false

/-- A pass has found an error. What the passes before it make is there; it may have left something
itself, but no module. -/
structure Failed (c : Compilation) (done : List Pass) (p : Pass) : Prop where
  kept : ∀ q ∈ done, ∀ a ∈ q.outputs, c.has a = true
  made : ∀ a, c.has a = true → ∃ q ∈ done ++ [p], a ∈ q.outputs
  generated : c.generated = none
  hasErrors : hasErrors c.diagnostics = true
  hasError : c.hasError = true

/-- All that a pass can do: it changes only what it makes, and that is there, and in order, if it
finds no error. -/
structure Performed (c : Compilation) (p : Pass) (c' : Compilation) (ds : List Diagnostic) :
    Prop where
  frame : ∀ a, a ∉ p.outputs → c'.has a = c.has a
  certificate : ∀ v, c'.certificate = some v → c.certificate = some v ∨
    (hasErrors ds = false → v.allPass = true)
  made : hasErrors ds = false → ∀ a ∈ p.outputs, c'.has a = true
  generated : hasErrors ds = true → c.generated = none → c'.generated = none
  diagnostics : c'.diagnostics = c.diagnostics
  hasError : c'.hasError = c.hasError
  provenance : c'.provenance = c.provenance

variable {o : Options} {c c' : Compilation} {p : Pass} {ds : List Diagnostic}

theorem performed_of_perform (h : c.perform o p = some (c', ds)) : c.Performed p c' ds := by
  cases p with
  | load =>
    simp only [perform, Option.some.injEq, Prod.mk.injEq] at h
    obtain ⟨rfl, rfl⟩ := h
    exact
      { frame := by rintro (_ | _ | _) ha <;> simp_all [has, Pass.outputs]
        certificate := fun v hv => .inl hv
        made := fun hds => by simpa [Pass.outputs, has] using Graph.hasErrors_load.1 hds
        generated := fun _ hg => hg
        diagnostics := rfl
        hasError := rfl
        provenance := rfl }
  | validate =>
    obtain ⟨g, _, hg⟩ := Option.map_eq_some_iff.1 h
    obtain ⟨rfl, rfl⟩ := Prod.mk.inj hg
    exact
      { frame := by rintro (_ | _ | _) ha <;> simp_all [has, Pass.outputs]
        certificate := by
          rintro v ⟨⟩
          exact .inr Graph.hasErrors_validate.1
        made := fun _ => by simp [Pass.outputs, has]
        generated := fun _ hg => hg
        diagnostics := rfl
        hasError := rfl
        provenance := rfl }
  | codegen =>
    obtain ⟨g, _, hg⟩ := Option.map_eq_some_iff.1 h
    obtain ⟨rfl, rfl⟩ := Prod.mk.inj hg
    exact
      { frame := by rintro (_ | _ | _) ha <;> simp_all [has, Pass.outputs]
        certificate := fun v hv => .inl hv
        made := fun hds => by simpa [Pass.outputs, has] using Graph.hasErrors_emit.1 hds
        generated := fun hds _ => by
          have hnone := mt Graph.hasErrors_emit.2 (by rw [hds]; decide)
          simpa using hnone
        diagnostics := rfl
        hasError := rfl
        provenance := rfl }

/-- A pass has what it needs. -/
theorem exists_perform {done : List Pass} (hc : c.Succeeded done) (hp : p.Follows done) :
    ∃ c' ds, c.perform o p = some (c', ds) := by
  -- the later passes need a graph, which the first of the passes so far has left
  have hgraph : p ≠ .load → ∃ g, c.graph = some g := by
    intro hne
    have hload := hp.2.2.resolve_left hne
    exact Option.isSome_iff_exists.1 ((hc.has_iff .graph).2 ⟨.load, hload, by decide⟩)
  cases p with
  | load => exact ⟨_, _, rfl⟩
  | validate =>
    obtain ⟨g, hg⟩ := hgraph (by decide)
    exact ⟨_, _, by rw [perform, hg, Option.map_some]⟩
  | codegen =>
    obtain ⟨g, hg⟩ := hgraph (by decide)
    exact ⟨_, _, by rw [perform, hg, Option.map_some]⟩

theorem has_record (a : Artifact) : (c.record ds).has a = c.has a := by
  cases a <;> rfl

/-- A pass that finds no error adds what it makes. -/
theorem Performed.succeeded {done : List Pass} (h : c.Performed p c' ds) (hc : c.Succeeded done)
    (hds : hasErrors ds = false) : (c'.record ds).Succeeded (done ++ [p]) where
  has_iff a := by
    rw [has_record]
    by_cases ha : a ∈ p.outputs
    · exact iff_of_true (h.made hds a ha) ⟨p, by simp, ha⟩
    · rw [h.frame a ha, hc.has_iff a]
      simp [or_and_right, exists_or, ha]
  allPass v hv := by
    rcases h.certificate v hv with hv | hv
    · exact hc.allPass v hv
    · exact hv hds
  hasErrors := by simp [record, h.diagnostics, hc.hasErrors, hds]
  hasError := by simp [record, h.hasError, hc.hasError, hds]

/-- A pass that finds an error leaves no module, and leaves what is there. -/
theorem Performed.failed {done : List Pass} (h : c.Performed p c' ds) (hc : c.Succeeded done)
    (hp : p.Follows done) (hds : hasErrors ds = true) : (c'.record ds).Failed done p where
  kept q hq a ha := by
    have hne : a ∉ p.outputs := fun hap => hp.1 (Pass.eq_of_mem_outputs hap ha ▸ hq)
    rw [has_record, h.frame a hne]
    exact (hc.has_iff a).2 ⟨q, hq, ha⟩
  made a ha := by
    rw [has_record] at ha
    by_cases hap : a ∈ p.outputs
    · exact ⟨p, by simp, hap⟩
    · obtain ⟨q, hq, haq⟩ := (hc.has_iff a).1 (h.frame a hap ▸ ha)
      exact ⟨q, List.mem_append_left _ hq, haq⟩
  generated := by
    refine h.generated hds (Option.eq_none_iff_forall_ne_some.2 fun m hm => ?_)
    obtain ⟨q, hq, hmodule⟩ := (hc.has_iff .module).1 (Option.isSome_iff_exists.2 ⟨m, hm⟩)
    have hcodegen : Artifact.module ∈ Pass.codegen.outputs := by decide
    exact hp.2.1 (Pass.eq_of_mem_outputs hmodule hcodegen ▸ hq)
  hasErrors := by simp [record, hds]
  hasError := by simp [record, hds]

/-! ### Runs -/

/-- How a run of some passes ends after others: all of them are reported and have succeeded, or
those up to the first that failed are. -/
def Ends (done ps : List Pass) (r : Run) : Prop :=
  (r.failure = none ∧ r.reports.map PassReport.pass = ps ∧ r.compilation.Succeeded (done ++ ps)) ∨
    ∃ pre p post, ps = pre ++ p :: post ∧ r.failure = some p ∧
    r.reports.map PassReport.pass = pre ++ [p] ∧
      r.compilation.Failed (done ++ pre) p

/-- A pass that finds no error goes in front of the passes after it. -/
theorem Ends.cons {done ps : List Pass} {r : Run} (h : Ends (done ++ [p]) ps r) :
    Ends done (p :: ps) { r with reports := ⟨p, ds⟩ :: r.reports } := by
  rcases h with ⟨hfailure, hreports, hc⟩ | ⟨pre, q, post, rfl, hfailure, hreports, hc⟩
  · refine .inl ⟨hfailure, by simp [hreports], ?_⟩
    rwa [List.append_assoc] at hc
  · refine .inr ⟨p :: pre, q, post, rfl, hfailure, by simp [hreports], ?_⟩
    rwa [List.append_assoc] at hc

theorem ends_runPasses {done ps : List Pass} (hc : c.Succeeded done) (hps : Pass.Feasible done ps) :
    Ends done ps (c.runPasses o ps) := by
  induction ps generalizing c done with
  | nil => exact .inl ⟨rfl, rfl, by rwa [List.append_nil]⟩
  | cons p ps ih =>
    obtain ⟨hp, hps⟩ := hps
    obtain ⟨c', ds, hperform⟩ := exists_perform (o := o) hc hp
    have hstep := performed_of_perform hperform
    rw [runPasses, hperform]
    by_cases hds : hasErrors ds = true
    · simp only [hds, if_true]
      exact .inr ⟨[], p, ps, rfl, rfl, rfl, by simpa using hstep.failed hc hp hds⟩
    · simp only [hds]
      exact (ih (hstep.succeeded hc (Bool.eq_false_iff.2 hds)) hps).cons

/-- What holds of a run that does nothing and goes from a pass and the run after it to both together
holds of all runs. -/
theorem runPasses_induction {motive : Compilation → Run → Prop} (hnil : ∀ c, motive c ⟨c, [], none⟩)
    (hmissing : ∀ c, motive c ⟨c, [], some .load⟩)
    (hstop : ∀ c p c' ds, Performed c p c' ds → motive c ⟨c'.record ds, [⟨p, ds⟩], some p⟩)
    (hcons : ∀ c p c' ds r, Performed c p c' ds → motive (c'.record ds) r →
      motive c { r with reports := ⟨p, ds⟩ :: r.reports })
    (c : Compilation) (ps : List Pass) : motive c (c.runPasses o ps) := by
  induction ps generalizing c with
  | nil => exact hnil c
  | cons p ps ih =>
    rw [runPasses]
    cases hperform : c.perform o p with
    | none => exact hmissing c
    | some result =>
      obtain ⟨c', ds⟩ := result
      have hstep := performed_of_perform hperform
      by_cases hds : hasErrors ds = true
      · simp only [hds, if_true]
        exact hstop c p c' ds hstep
      · simp only [hds]
        exact hcons c p c' ds _ hstep (ih (c'.record ds))

/-- What a run has found is what its reports say. -/
theorem runPasses_diagnostics (c : Compilation) (ps : List Pass) :
    (c.runPasses o ps).compilation.diagnostics =
      c.diagnostics ++ (c.runPasses o ps).reports.flatMap PassReport.diagnostics := by
  refine runPasses_induction (motive := fun c r =>
    r.compilation.diagnostics =
      c.diagnostics ++ r.reports.flatMap PassReport.diagnostics) ?_ ?_ ?_ ?_ c ps
  · simp
  · simp
  · intro c p c' ds hstep
    simp [record, hstep.diagnostics]
  · intro c p c' ds r hstep hr
    simp [hr, record, hstep.diagnostics]

/-- A run keeps the provenance. -/
theorem runPasses_provenance (c : Compilation) (ps : List Pass) :
    (c.runPasses o ps).compilation.provenance = c.provenance := by
  refine runPasses_induction
    (motive := fun c r => r.compilation.provenance = c.provenance) ?_ ?_ ?_ ?_ c ps
  · exact fun _ => rfl
  · exact fun _ => rfl
  · intro c p c' ds hstep
    exact hstep.provenance
  · intro c p c' ds r hstep hr
    exact hr.trans hstep.provenance

theorem succeeded_fresh (source : String) (provenance : Option Provenance) :
    ({ source := source, provenance := provenance } : Compilation).Succeeded [] where
  has_iff a := by cases a <;> simp [has]
  allPass := by simp
  hasErrors := rfl
  hasError := rfl

end Compilation

/-! ### The contract -/

/-- What can be relied on after a run up to a chosen pass. It succeeds exactly if no error was
found, or noted. After success all passes have been reported on, and what they make is there and
nothing else. After failure the passes up to the one that failed have been reported on; there is no
module, nothing of any later pass, and all of the earlier ones. The reports say all that was found,
in order. -/
structure Run.Contract (r : Run) (terminal : Pass) : Prop where
  success : r.failure = none ↔ hasErrors r.compilation.diagnostics = false
  unmarked : r.failure = none ↔ r.compilation.hasError = false
  finished : r.failure = none → r.reports.map PassReport.pass = terminal.required ∧
    (∀ a, r.compilation.has a = true ↔ ∃ p ∈ terminal.required, a ∈ p.outputs) ∧
    ∀ v, r.compilation.certificate = some v → v.allPass = true
  failed : ∀ p, r.failure = some p → p ∈ terminal.required ∧
    r.reports.map PassReport.pass = p.required ∧
    r.compilation.generated = none ∧
    (∀ a, r.compilation.has a = true → ∃ q ∈ p.required, a ∈ q.outputs) ∧
    ∀ q ∈ p.required, q ≠ p → ∀ a ∈ q.outputs, r.compilation.has a = true
  diagnostics : r.compilation.diagnostics = r.reports.flatMap PassReport.diagnostics

open Compilation (Ends)

theorem Run.Contract.of_ends {r : Run} {terminal : Pass} (h : Ends [] terminal.required r)
    (hd : r.compilation.diagnostics = r.reports.flatMap PassReport.diagnostics) :
    r.Contract terminal := by
  rcases h with ⟨hfailure, hreports, hc⟩ | ⟨pre, p, post, hps, hfailure, hreports, hc⟩
  · exact
      { success := iff_of_true hfailure hc.hasErrors
        unmarked := iff_of_true hfailure hc.hasError
        finished := fun _ => ⟨hreports, hc.has_iff, hc.allPass⟩
        failed := by simp [hfailure]
        diagnostics := hd }
  · have hrequired := Pass.required_of_mem hps
    refine
      { success := by simp [hfailure, hc.hasErrors]
        unmarked := by simp [hfailure, hc.hasError]
        finished := by simp [hfailure]
        failed := ?_
        diagnostics := hd }
    intro q hq
    obtain rfl : p = q := Option.some.inj (hfailure.symm.trans hq)
    rw [hrequired]
    refine ⟨by simp [hps], hreports, hc.generated, hc.made, fun q hq hne a ha => hc.kept q ?_ a ha⟩
    simpa [hne] using hq

theorem Compilation.contract_run (source : String) (o : Options) (terminal : Pass) :
    (({ source := source } : Compilation).run o terminal).Contract terminal :=
  .of_ends (ends_runPasses (succeeded_fresh source _) terminal.feasible_required)
    (runPasses_diagnostics _ _)

/-- After success there is something to write, whatever is asked for. -/
theorem Emit.isSome_product {source : String} {o : Options} {e : Emit}
    (h : (({ source := source } : Compilation).run o e.terminal).failure = none) :
    (e.product (({ source := source } : Compilation).run o e.terminal).compilation).isSome =
      true := by
  obtain ⟨_, hhas, _⟩ := (Compilation.contract_run source o e.terminal).finished h
  cases e with
  | script =>
    rw [product, Option.isSome_map]
    exact (hhas .module).2 ⟨.codegen, by decide, by decide⟩
  | summary =>
    rw [product, Option.isSome_map]
    exact (hhas .graph).2 ⟨.load, by decide, by decide⟩
  | dot =>
    rw [product, Option.isSome_map]
    exact (hhas .graph).2 ⟨.load, by decide, by decide⟩
  | record => simp [product, Compilation.run, Compilation.runPasses_provenance]

/-- What the command says at last about a run: which pass has failed, if one has. -/
def Run.closing (r : Run) : List String :=
  (r.failure.map fun p => "flowgen: " ++ p.failureMessage).toList

/-- **The contract of a run.** It holds for every document, every choice of a last pass and all
options. The command, therefore, says that a pass has failed or writes what it was asked for: there
is always something to write after success. -/
theorem run_contract (source : String) :
    (∀ o terminal, (({ source := source } : Compilation).run o terminal).Contract terminal) ∧
      ∀ i : Invocation,
        let r := ({ source := source } : Compilation).run i.options i.emit.terminal
        (r.failure = none → (i.emit.product r.compilation).isSome = true) ∧
          (i.compile source).messages = i.runMessages r ++ r.closing ∧
          ((i.compile source).exit = 0 ↔ r.failure = none) := by
  refine ⟨Compilation.contract_run source, fun i => ?_⟩
  intro r
  have hproduct : r.failure = none → (i.emit.product r.compilation).isSome = true :=
    Emit.isSome_product
  refine ⟨hproduct, ?_⟩
  unfold Invocation.compile
  cases hf : r.failure with
  | some p => simp [r, hf, Run.closing]
  | none =>
    obtain ⟨product, hp⟩ := Option.isSome_iff_exists.1 (hproduct hf)
    cases i.target? <;> simp [r, hf, hp, Run.closing]

/-- A document with one input, which is in a stratum. -/
def placedInput : String :=
  "\x7b\"elements\": [\x7b\"kind\": \"input\", \"relation\": \"a\"\x7d], " ++
    "\"strata\": [\x7b\"index\": 0, \"elements\": [\"a\"]\x7d]\x7d"

/-- A document with one input, which is in no stratum. -/
def unplacedInput : String :=
  "\x7b\"elements\": [\x7b\"kind\": \"input\", \"relation\": \"a\"\x7d]\x7d"

theorem run_contract_placed_unplaced :
    ((({ source := placedInput } : Compilation).run {} .codegen).failure = none ∧
      hasErrors (({ source := placedInput } : Compilation).run {}
        .codegen).compilation.diagnostics = false ∧
      (({ source := "a.json" } : Invocation).compile placedInput).exit = 0) ∧
    (({ source := unplacedInput } : Compilation).run {} .codegen).failure = some .validate ∧
      (({ source := unplacedInput } : Compilation).run {} .codegen).reports.map PassReport.pass =
        [.load, .validate] ∧
      (({ source := unplacedInput } : Compilation).run {} .codegen).compilation.generated = none ∧
      (({ source := unplacedInput } : Compilation).run {} .codegen).compilation.has .graph =
        true := by
  have hsuccess : (({ source := placedInput } : Compilation).run {} .codegen).failure = none := by
    decide +kernel
  have hfailure :
      (({ source := unplacedInput } : Compilation).run {} .codegen).failure = some .validate := by
    decide +kernel
  obtain ⟨hcontract, hcommand⟩ := run_contract placedInput
  have hexit := (hcommand { source := "a.json" }).2.2.2 hsuccess
  have hfailed := ((run_contract unplacedInput).1 {} .codegen).failed .validate hfailure
  refine ⟨⟨hsuccess, (hcontract {} .codegen).success.1 hsuccess, hexit⟩, hfailure, hfailed.2.1,
    hfailed.2.2.1, ?_⟩
  exact hfailed.2.2.2.2 .load (by decide) (by decide) .graph (by decide)

end Dataflow
