import Dataflow.Proofs.Compiling
import Dataflow.Proofs.Wiring

/-!
# Certificates agree with what is reported

A run of the checks gives a certificate and a list of diagnostics. Some callers look at one and some
at the other, and the loops of the checks keep them apart. So it matters that they say the same
(`certificate_agrees`): a flag is lowered exactly if an error with one of its codes is reported.
Warnings have a code of their own and lower no flag.

* The flag of a check that went through its loops is down exactly if there is an error among what it
  found (`flag_validate`).
* Each of the six checks has its own codes, and no two checks share one (`Check.eq_of_mem_codes`).
  So a reported code tells which check reported it.
-/

namespace Dataflow

/-- The six checks of a graph. -/
inductive Check
  | relations | scanners | ports | functions | strata | lookups
deriving DecidableEq, Inhabited

namespace Check

/-- The codes of the errors that a check reports. -/
def codes : Check → List String
  | relations => ["E0101", "E0102"]
  | scanners => ["E0103"]
  | ports => ["E0104"]
  | functions => ["E0105", "E0106", "E0111"]
  | strata => ["E0107", "E0108"]
  | lookups => ["E0109"]

/-- The violations that a check finds. -/
def violations (g : Graph) : Check → List Violation
  | relations => g.relationViolations
  | scanners => g.scannerViolations
  | ports => g.portViolations
  | functions => g.functionsViolations
  | strata => g.strataViolations
  | lookups => g.lookupViolations

/-- No code is reported by two checks. -/
theorem eq_of_mem_codes {k k' : Check} {code : String} (h : code ∈ k.codes) (h' : code ∈ k'.codes) :
    k = k' := by
  have hdisjoint : ∀ code ∈ k.codes, code ∈ k'.codes → k = k' := by
    cases k <;> cases k' <;> decide
  exact hdisjoint code h h'

end Check

/-- The flag of a check. -/
def Certificate.flag (c : Certificate) : Check → Bool
  | .relations => c.relations
  | .scanners => c.scanners
  | .ports => c.ports
  | .functions => c.functions
  | .strata => c.strata
  | .lookups => c.lookups

/-- Warnings are told from errors by their code. -/
theorem Violation.isError_eq_false {v : Violation} : v.isError = false ↔ v.code.text = "W0110" := by
  rw [Code.text_eq_iff]
  cases v <;> simp [isError, level, code]

namespace Graph

variable {g : Graph} {v : Violation}

theorem mem_violations : v ∈ g.violations ↔ ∃ k : Check, v ∈ k.violations g := by
  simp only [violations, List.mem_append]
  constructor
  · rintro (((((h | h) | h) | h) | h) | h)
    · exact ⟨.relations, h⟩
    · exact ⟨.scanners, h⟩
    · exact ⟨.ports, h⟩
    · exact ⟨.functions, h⟩
    · exact ⟨.strata, h⟩
    · exact ⟨.lookups, h⟩
  · rintro ⟨k, h⟩
    cases k with
    | relations => exact .inl (.inl (.inl (.inl (.inl h))))
    | scanners => exact .inl (.inl (.inl (.inl (.inr h))))
    | ports => exact .inl (.inl (.inl (.inr h)))
    | functions => exact .inl (.inl (.inr h))
    | strata => exact .inl (.inr h)
    | lookups => exact .inr h

theorem flag_validate (k : Check) : g.validate.certificate.flag k = clean (k.violations g) := by
  rw [certificate_validate]
  cases k <;> rfl

theorem code_of_mem_portViolations (h : v ∈ g.portViolations) (he : v.isError = true) :
    v.code ∈ [Code.port] := by
  obtain ⟨e, -, h⟩ := List.mem_flatMap.1 h
  rcases List.mem_append.1 h with h | h
  · -- edges that leave a table are warned about
    obtain ⟨o, -, h⟩ := List.mem_flatMap.1 h
    have hclean := clean_iff.1 (clean_tableEdgeViolations (e := e) (o := o)) v h
    rw [he] at hclean
    cases hclean
  · obtain ⟨edge, -, h⟩ := List.mem_flatMap.1 h
    exact code_of_mem_edgeViolations h

/-- The errors of a check have its codes. -/
theorem text_mem_codes {k : Check} (h : v ∈ k.violations g) (he : v.isError = true) :
    v.code.text ∈ k.codes := by
  have htexts {cs : List Code} (hv : v.code ∈ cs) : v.code.text ∈ cs.map Code.text :=
    List.mem_map_of_mem hv
  cases k with
  | relations => exact htexts (code_of_mem_relationViolations h)
  | scanners => exact htexts (code_of_mem_scannerViolations h)
  | ports => exact htexts (code_of_mem_portViolations h he)
  | functions => exact htexts (code_of_mem_functionsViolations h)
  | strata =>
    have hswap := htexts (code_of_mem_strataViolations h)
    exact (List.Perm.swap "E0107" "E0108" []).mem_iff.1 hswap
  | lookups => exact htexts (code_of_mem_lookupViolations h)

/-- A flag is lowered exactly if some error has a code of its check. -/
theorem flag_eq_false_iff {k : Check} :
    g.validate.certificate.flag k = false ↔
      ∃ v ∈ g.violations, v.isError = true ∧ v.code.text ∈ k.codes := by
  have hflag : g.validate.certificate.flag k = false ↔ ∃ v ∈ k.violations g, v.isError = true := by
    rw [flag_validate]
    simp [clean]
  rw [hflag]
  constructor
  · rintro ⟨v, hv, he⟩
    exact ⟨v, mem_violations.2 ⟨k, hv⟩, he, text_mem_codes hv he⟩
  · rintro ⟨v, hv, he, hcode⟩
    -- the check that found it is the one whose code it has
    obtain ⟨k', hk'⟩ := mem_violations.1 hv
    obtain rfl := Check.eq_of_mem_codes hcode (text_mem_codes hk' he)
    exact ⟨v, hk', he⟩

end Graph

/-! ### Reports -/

/-- A certificate and a report say the same: a flag is lowered exactly if an error with a code of
its check is reported, and not all flags are set exactly if there is an error. -/
structure Certificate.Agrees (c : Certificate) (ds : List Diagnostic) : Prop where
  flags : ∀ k : Check, c.flag k = false ↔
    ∃ d ∈ ds, d.isError = true ∧ ∃ code ∈ k.codes, d.code.map Code.text = some code
  allPass : hasErrors ds = true ↔ c.allPass = false

/-- Only the errors of a report matter to the certificate. -/
theorem Certificate.Agrees.filter_isError {c : Certificate} {ds : List Diagnostic}
    (h : c.Agrees ds) :
    c.Agrees (ds.filter Diagnostic.isError) where
  flags k := by simp [h.flags k, and_assoc]
  allPass := by simp [← h.allPass, hasErrors]

namespace Graph

theorem agrees_validate (g : Graph) : g.validate.certificate.Agrees g.validate.diagnostics where
  flags k := by
    have hflag := flag_eq_false_iff (g := g) (k := k)
    simpa [diagnostics_validate, Violation.diagnostic, Diagnostic.isError,
      Violation.isError] using hflag
  allPass := by
    rw [← Bool.not_eq_false, hasErrors_validate, Bool.not_eq_true]

/-- **Certificates and diagnostics agree.** For every graph, each flag of the certificate is lowered
exactly if an error with one of the codes of its check is reported, and so there is an error exactly
if not all flags are set. The warnings are what has the code W0110, and without them the report says
the same about the certificate. -/
theorem certificate_agrees (g : Graph) :
    g.validate.certificate.Agrees g.validate.diagnostics ∧
      (g.validate.diagnostics.filter fun d => !d.isError) =
        (g.validate.diagnostics.filter fun d => d.code.map Code.text == some "W0110") ∧
      g.validate.certificate.Agrees (g.validate.diagnostics.filter Diagnostic.isError) := by
  have hwarning (v : Violation) :
      (!v.diagnostic.isError) = (v.diagnostic.code.map Code.text == some "W0110") := by
    rw [Bool.eq_iff_iff, Bool.not_eq_true', beq_iff_eq,
      show v.diagnostic.isError = v.isError from rfl, Violation.isError_eq_false,
      show v.diagnostic.code = some v.code from rfl, Option.map_some, Option.some.injEq]
  refine ⟨g.agrees_validate, ?_, g.agrees_validate.filter_isError⟩
  simp only [diagnostics_validate, List.filter_map, Function.comp_def, hwarning]

end Graph

end Dataflow
