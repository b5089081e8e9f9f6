import Dataflow.Proofs.Choices
import Dataflow.Proofs.Registries

/-!
# The outline of a module

No name, text or function of a document makes a line of generated code, breaks one or leaves blanks
at its end. How many lines a module has depends on how much there is to write, and not on what it is
called (`outline_of_load`).

* Every line ends in a visible character that is part of the generated code itself
  (`Pipeline.closes_lines`).
* Every part of a module has as many lines as its size tells (`Pipeline.length_lines`), and line
  breaks stand at the ends of lines only (`count_unlines`).
-/

namespace Dataflow

/-! ### The ends of lines -/

/-- The characters that Unicode counts as white space. -/
def isWhiteSpace (c : Char) : Bool :=
  (0x09 ≤ c.toNat && c.toNat ≤ 0x0d) || (0x2000 ≤ c.toNat && c.toNat ≤ 0x200a) ||
    [0x20, 0x85, 0xa0, 0x1680, 0x2028, 0x2029, 0x202f, 0x205f, 0x3000].contains c.toNat

/-- A text ends in a visible character of the ASCII range. -/
def Closes (s : String) : Prop :=
  (s.toList.getLast?.any fun c => decide (0x21 ≤ c.toNat ∧ c.toNat ≤ 0x7e)) = true

instance (s : String) : Decidable (Closes s) := inferInstanceAs (Decidable (_ = true))

section Ends

variable {s t : String}

theorem closes_iff : Closes s ↔ ∃ c ∈ s.toList.getLast?, 0x21 ≤ c.toNat ∧ c.toNat ≤ 0x7e := by
  simp [Closes, Option.any_eq_true]

theorem closes_append (s : String) (h : Closes t) : Closes (s ++ t) := by
  obtain ⟨c, hc, hbounds⟩ := closes_iff.1 h
  refine closes_iff.2 ⟨c, ?_, hbounds⟩
  rw [String.toList_append, List.getLast?_append, hc]
  rfl

theorem closes_toString (n : Nat) : Closes (toString n) := by
  obtain ⟨c, r, hcr, hc, hr, -⟩ := exists_digits n
  have hdigits : ∀ d ∈ (toString n).toList, d.isDigit = true := by
    rw [hcr]
    exact List.forall_mem_cons.2 ⟨hc, hr⟩
  have hlast : (toString n).toList.getLast? = some ((c :: r).getLast (by simp)) := by
    rw [hcr, List.getLast?_eq_some_getLast]
  have hdigit := hdigits _ (List.mem_of_getLast? hlast)
  refine closes_iff.2 ⟨_, hlast, ?_⟩
  simp only [Char.isDigit, Bool.and_eq_true, decide_eq_true_eq, ge_iff_le,
    UInt32.le_iff_toNat_le] at hdigit
  exact ⟨Nat.le_trans (by decide) hdigit.1, Nat.le_trans hdigit.2 (by decide)⟩

theorem Closes.isWhiteSpace_eq_false (h : Closes s) :
    ∀ c ∈ s.toList.getLast?, isWhiteSpace c = false := by
  obtain ⟨c, hc, hlower, hupper⟩ := closes_iff.1 h
  intro d hd
  obtain rfl : c = d := Option.mem_unique hc hd
  simp [isWhiteSpace]
  omega

end Ends

namespace Pipeline

theorem closes_literalLines (name : String) (entries : List (String × String)) :
    ∀ l ∈ literalLines name entries, Closes l := by
  unfold literalLines
  split
  · exact List.forall_mem_singleton.2 (closes_append _ (by decide +kernel))
  · rw [List.cons_append, List.forall_mem_cons, List.forall_mem_append, List.forall_mem_map]
    refine ⟨closes_append _ (by decide +kernel), fun e _ => ?_,
      List.forall_mem_singleton.2 (by decide +kernel)⟩
    exact closes_append _ (closes_append _ (by decide +kernel))

theorem closes_headingLines (o : Options) {title : String} (h : Closes title) :
    ∀ l ∈ headingLines o title, Closes l := by
  unfold headingLines
  split
  · exact List.forall_mem_singleton.2 (closes_append _ h)
  · exact List.forall_mem_nil _

theorem closes_stratumLines (o : Options) (w : StratumWiring) :
    ∀ l ∈ stratumLines o w, Closes l := by
  unfold stratumLines
  split
  · exact List.forall_mem_nil _
  · refine List.forall_mem_append.2
      ⟨closes_headingLines o (closes_append _ (closes_toString w.index)), ?_⟩
    exact List.forall_mem_map.2 fun s _ => closes_append _ (by decide +kernel)

theorem closes_bodyLines (o : Options) (p : Pipeline) : ∀ l ∈ p.bodyLines o, Closes l := by
  have hreturn : (returnLines.all fun l => decide (Closes l)) = true := by decide +kernel
  have hheading {title : String} (h : Closes title) := closes_headingLines o h
  simp only [bodyLines, List.forall_mem_append, and_assoc]
  exact ⟨hheading (by decide +kernel), closes_literalLines _ _, hheading (by decide +kernel),
    closes_literalLines _ _, closes_literalLines _ _, hheading (by decide +kernel),
    closes_literalLines _ _, hheading (by decide +kernel), closes_literalLines _ _,
    hheading (by decide +kernel), closes_literalLines _ _, closes_literalLines _ _,
    hheading (by decide +kernel), List.forall_mem_flatMap.2 fun w _ => closes_stratumLines o w,
    fun l hl => of_decide_eq_true (List.all_eq_true.1 hreturn l hl)⟩

/-- Every line of a module ends in a visible character. -/
theorem closes_lines (o : Options) (p : Pipeline) : ∀ l ∈ p.lines o, Closes l := by
  have hfooter : ∀ l ∈ footerLines o, Closes l := by
    unfold footerLines
    split
    · exact List.forall_mem_nil _
    · exact List.forall_mem_singleton.2 (closes_append _ (by decide +kernel))
  simp only [lines, List.cons_append, List.forall_mem_cons, List.forall_mem_append,
    List.forall_mem_map]
  exact ⟨by decide +kernel, closes_append _ (by decide +kernel),
    fun l hl => closes_append _ (p.closes_bodyLines o l hl), by decide +kernel, hfooter⟩

/-! ### The number of lines -/

/-- The number of lines of an object literal with so many entries. -/
def literalSize (n : Nat) : Nat := if n = 0 then 1 else n + 2

theorem length_literalLines (name : String) (entries : List (String × String)) :
    (literalLines name entries).length = literalSize entries.length := by
  cases entries with
  | nil => rfl
  | cons e es => simp [literalLines, literalSize]

theorem length_headingLines (o : Options) (title : String) :
    (headingLines o title).length = if o.comments then 1 else 0 := by
  unfold headingLines
  split <;> rfl

/-- Each subscription has a line, and a stratum has one more if it has subscriptions and headings
are wanted. -/
theorem length_stratumLines (o : Options) (ws : List StratumWiring) :
    (ws.flatMap (stratumLines o)).length =
      subscriptionCount ws + if o.comments then ws.countP fun w => !w.subscriptions.isEmpty
        else 0 := by
  induction ws with
  | nil => simp [subscriptionCount]
  | cons w ws ih =>
    have hcount : subscriptionCount (w :: ws) = w.subscriptions.length + subscriptionCount ws := rfl
    rw [List.flatMap_cons, List.length_append, ih, hcount, List.countP_cons]
    unfold stratumLines
    by_cases hempty : w.subscriptions.isEmpty = true
    · simp [List.isEmpty_iff.1 hempty]
    · simp only [hempty, Bool.false_eq_true, if_false, Bool.not_false, if_true, List.length_append,
        List.length_map, length_headingLines]
      split <;> omega

theorem length_bodyLines (o : Options) (p : Pipeline) :
    (p.bodyLines o).length = 4 + literalSize p.tables.length + 2 * literalSize p.inputs.length +
      literalSize p.operators.length + literalSize p.scanners.length +
        literalSize p.invalidation.length +
      literalSize p.rescan.length + subscriptionCount p.wiring +
      if o.comments then 6 + p.wiring.countP fun w => !w.subscriptions.isEmpty else 0 := by
  have hreturn : returnLines.length = 4 := rfl
  simp only [bodyLines, List.length_append, length_headingLines, length_literalLines,
    List.length_map, length_stratumLines, hreturn]
  split <;> omega

/-- The number of lines of a module, by the sizes of its parts. -/
theorem length_lines (o : Options) (p : Pipeline) :
    (p.lines o).length = 7 + literalSize p.tables.length + 2 * literalSize p.inputs.length +
      literalSize p.operators.length + literalSize p.scanners.length +
        literalSize p.invalidation.length +
      literalSize p.rescan.length + subscriptionCount p.wiring +
      (if o.comments then 6 + p.wiring.countP fun w => !w.subscriptions.isEmpty else 0) +
      if o.format = .commonJs then 1 else 0 := by
  have hfooter : (footerLines o).length = if o.format = .commonJs then 1 else 0 := by
    unfold footerLines
    cases o.format <;> rfl
  simp only [lines, List.cons_append, List.length_cons, List.length_append, List.length_map,
    length_bodyLines, hfooter]
  omega

end Pipeline

/-! ### Lines in a text -/

section Unlines

variable {ls : List String}

/-- If no line has a line break in it, then each has one behind it and there are no others. -/
theorem count_unlines (h : ∀ l ∈ ls, Inline l) : (unlines ls).toList.count '\n' = ls.length := by
  induction ls with
  | nil => rfl
  | cons l ls ih =>
    obtain ⟨hl, hls⟩ := List.forall_mem_cons.1 h
    have hnone : l.toList.count '\n' = 0 := List.count_eq_zero.2 (not_mem_newline hl)
    rw [unlines, String.toList_append, String.toList_append, List.count_append, List.count_append,
      hnone, ih hls, List.length_cons]
    exact Nat.add_comm _ _

theorem eq_newline_of_mem_unlines (h : ∀ l ∈ ls, Inline l) :
    ∀ c ∈ (unlines ls).toList, c.toNat < 0x20 → c = '\n' := by
  induction ls with
  | nil => exact List.forall_mem_nil _
  | cons l ls ih =>
    obtain ⟨hl, hls⟩ := List.forall_mem_cons.1 h
    rw [unlines, String.toList_append, String.toList_append, List.forall_mem_append,
      List.forall_mem_append]
    refine ⟨⟨fun c hc hlow => ?_, fun c hc _ => ?_⟩, ih hls⟩
    · exact absurd hlow (Nat.not_lt.2 (inline_iff.1 hl c hc))
    · simpa using hc

theorem getLast?_unlines (h : ls ≠ []) : (unlines ls).toList.getLast? = some '\n' := by
  induction ls with
  | nil => exact absurd rfl h
  | cons l ls ih =>
    rw [unlines, String.toList_append, List.getLast?_append]
    cases ls with
    | nil => simp [unlines]
    | cons k ks =>
      rw [ih (List.cons_ne_nil k ks)]
      rfl

end Unlines

namespace Graph

variable {g : Graph}

/-- The number of lines of the module of a graph with so many subscriptions. -/
def lineCount (g : Graph) (o : Options) (subscriptions : Nat) : Nat :=
  let size (vs : List Variant) : Nat := Pipeline.literalSize (g.ofVariants vs).length
  7 + size [.table] + 2 * size [.input] + size [.join, .map] + size [.scanner] +
    Pipeline.literalSize g.invalidation.length + Pipeline.literalSize g.rescan.length +
      subscriptions +
    (if o.comments then 6 + g.strata.countP fun s => !(s.elements.flatMap g.wiredEdges).isEmpty
      else 0) +
    if o.format = .commonJs then 1 else 0

theorem countP_wiring (g : Graph) :
    (g.pipeline.wiring.countP fun w => !w.subscriptions.isEmpty) =
      g.strata.countP fun s => !(s.elements.flatMap g.wiredEdges).isEmpty := by
  have hperm := (strataInOrder_perm g).countP_eq fun s => !(s.elements.flatMap g.wiredEdges).isEmpty
  rw [← hperm, pipeline, List.countP_map]
  simp only [Function.comp_def, stratumWiring, List.isEmpty_map]

theorem Generable.length_lines (h : g.Generable) (hg : g.Built) (o : Options) :
    (g.pipeline.lines o).length = g.lineCount o g.pipeline.stats.subscriptions := by
  have hstats := (h.registered hg).stats_eq
  simp only [Pipeline.stats, sizes, Stats.mk.injEq] at hstats
  obtain ⟨htables, hinputs, hoperators, hscanners, -⟩ := hstats
  have hinvalidation : g.pipeline.invalidation.length = g.invalidation.length := List.length_map _
  have hrescan : g.pipeline.rescan.length = g.rescan.length := List.length_map _
  rw [Pipeline.length_lines, htables, hinputs, hoperators, hscanners, hinvalidation, hrescan,
    countP_wiring]
  rfl

/-- **No text makes or deforms a line.** The module of a loaded graph ends with a line break, has no
other control character, and no line of it ends in white space. The number of its lines depends only
on how many elements, lookup entries, subscriptions and strata with subscriptions there are, and on
the options. -/
theorem outline_of_load {text : String} (h : (load text).graph = some g) {o : Options}
    {m : Generated} (hm : g.generate o = .ok m) :
    m.source.toList.getLast? = some '\n' ∧
      (∀ c ∈ m.source.toList, c.toNat < 0x20 → c = '\n') ∧
      (∀ l ∈ textLines m.source, ∀ c ∈ l.toList.getLast?, isWhiteSpace c = false) ∧
      m.source.toList.count '\n' = g.lineCount o m.stats.subscriptions := by
  obtain ⟨d, -, -, hg⟩ := exists_describes_of_load h
  obtain ⟨⟨hid, hgenerable⟩, rfl⟩ := (generate_eq_ok hg).1 hm
  have hinline : ∀ l ∈ g.pipeline.lines o, Inline l :=
    (inlined_of_load h).inline_lines (inline_of_isIdentifier hid)
  rw [Pipeline.source_generated, textLines_unlines hinline, count_unlines hinline]
  refine ⟨getLast?_unlines (List.cons_ne_nil _ _), eq_newline_of_mem_unlines hinline, ?_,
    hgenerable.length_lines hg o⟩
  rw [List.forall_mem_append, List.forall_mem_singleton]
  exact ⟨fun l hl => (g.pipeline.closes_lines o l hl).isWhiteSpace_eq_false, by simp⟩

/-- Relations with line breaks and blanks at their ends, and a function with a blank behind it. -/
theorem outline_of_load_blanks :
    let d : Document :=
      { elements := [.input "a\r\n", .table "\n// b \t" 0, .map "[$0] " 1]
        edges := [⟨.index 0, .index 2, .input⟩, ⟨.index 2, .index 1, .delta⟩]
        strata := [⟨7, [.index 2, .index 1, .index 0]⟩]
        invalidation := [⟨.name "a\r\n", [.index 1]⟩] }
    ∃ g m, (load d.encode).graph = some g ∧ g.generate { format := .commonJs } = .ok m ∧
      m.source.toList.getLast? = some '\n' ∧
      (∀ c ∈ m.source.toList, c.toNat < 0x20 → c = '\n') ∧
      (∀ l ∈ textLines m.source, ∀ c ∈ l.toList.getLast?, isWhiteSpace c = false) ∧
      m.source.toList.count '\n' = 34 := by
  intro d
  have hchecked : d.load.graph.map (fun g => (g.generate { format := .commonJs }).toOption.map
      fun m => g.lineCount { format := .commonJs } m.stats.subscriptions) = some (some 34) := by
    decide +kernel
  obtain ⟨g, hg, hgenerated⟩ := Option.map_eq_some_iff.1 hchecked
  obtain ⟨m, hm, hcount⟩ := Option.map_eq_some_iff.1 hgenerated
  have hload : (load d.encode).graph = some g := by rw [load_encode, hg]
  have hok : g.generate { format := .commonJs } = .ok m := by
    cases hresult : g.generate { format := .commonJs } with
    | error err => rw [hresult] at hm; cases hm
    | ok k => rw [hresult] at hm; cases hm; rfl
  obtain ⟨hlast, hcontrol, hends, hlines⟩ := outline_of_load hload hok
  exact ⟨g, m, hload, hok, hlast, hcontrol, hends, hlines.trans hcount⟩

end Graph

end Dataflow
