import Dataflow.Proofs.Inline

/-!
# What options change

Options choose how a module is written, and nothing else. Whether a module is generated, and the
sizes of its parts, depend on the name of the factory only. With and without headings a module has
the same lines of code, and a heading is a comment that stands for nothing. Both formats have the
same lines, but for the word before the factory and the line that exports it.

No line of code looks like a comment: it starts with a word, a quote or a brace, whatever names it
has in it (`isComment_of_opensCode`). And lines can be told apart in the text, since none has a line
break in it (`textLines_unlines`).
-/

namespace Dataflow

/-! ### Lines of a text -/

/-- The lines of a text. What follows the last line break counts as a line too, also if nothing
does. -/
def textLines (s : String) : List String := (s.toList.splitOn '\n').map String.ofList

theorem textLines_cons {s t : String} (h : '\n' ∉ s.toList) :
    textLines (s ++ "\n" ++ t) = s :: textLines t := by
  have hchars : (s ++ "\n" ++ t).toList = s.toList ++ '\n' :: t.toList := by simp
  rw [textLines, hchars, List.splitOn_append_cons_self, List.splitOn_eq_singleton h]
  simp [textLines]

/-- The lines that a text was made of are found in it. -/
theorem textLines_unlines {ls : List String} (h : ∀ l ∈ ls, Inline l) :
    textLines (unlines ls) = ls ++ [""] := by
  induction ls with
  | nil => decide
  | cons l ls ih =>
    obtain ⟨hl, hls⟩ := List.forall_mem_cons.1 h
    rw [unlines, textLines_cons (not_mem_newline hl), ih hls, List.cons_append]

theorem unlines_eq_intercalate (ls : List String) : unlines ls = "\n".intercalate (ls ++ [""]) := by
  induction ls with
  | nil => rfl
  | cons l ls ih =>
    rw [unlines, ih]
    cases ls with
    | nil => rfl
    | cons k ks => exact String.intercalate_cons_cons.symm

/-! ### Comments -/

/-- A line whose first characters that are no blanks are two slashes. -/
def isComment (l : String) : Bool := ['/', '/'].isPrefixOf (l.toList.dropWhile Char.isWhitespace)

/-- A text without the comments among its lines; the first line stays. -/
def withoutComments (s : String) : String :=
  match textLines s with
  | [] => ""
  | first :: rest => "\n".intercalate (first :: rest.filter fun l => !isComment l)

/-- A text that starts with something else than a blank or a slash. -/
def opensCode (s : String) : Bool := s.toList.head?.any fun c => !c.isWhitespace && c != '/'

theorem opensCode_append {s : String} (h : opensCode s = true) (t : String) :
    opensCode (s ++ t) = true := by
  unfold opensCode at h ⊢
  rw [String.toList_append]
  cases hs : s.toList with
  | nil =>
    rw [hs] at h
    cases h
  | cons c r =>
    rw [hs] at h
    exact h

theorem opensCode_quote (s : String) : opensCode (Script.quote s) = true := by
  rw [opensCode, Script.quote, String.toList_ofList]
  rfl

/-- Code is no comment. -/
theorem isComment_of_opensCode {s : String} (h : opensCode s = true) : isComment s = false := by
  unfold opensCode at h
  unfold isComment
  cases hs : s.toList with
  | nil => rfl
  | cons c r =>
    rw [hs] at h
    simp only [List.head?_cons, Option.any_some, Bool.and_eq_true, Bool.not_eq_true',
      bne_iff_ne] at h
    simp [h.1, List.isPrefixOf, h.2.symm]

theorem isComment_indent (s : String) : isComment ("  " ++ s) = isComment s := by
  have hchars : ("  " ++ s).toList = ' ' :: ' ' :: s.toList := by simp
  have hspace : ' '.isWhitespace = true := by decide
  simp only [isComment, hchars, List.dropWhile_cons, hspace, if_true]

theorem isComment_heading (title : String) : isComment ("// " ++ title) = true := by
  have hchars : ("// " ++ title).toList = '/' :: '/' :: ' ' :: title.toList := by simp
  have hslash : '/'.isWhitespace = false := by decide
  simp [isComment, hchars, hslash, List.isPrefixOf]

/-- Lines of code are kept when comments are deleted. -/
theorem filter_code {ls : List String} (h : ∀ l ∈ ls, isComment l = false) :
    (ls.filter fun l => !isComment l) = ls := by
  refine List.filter_eq_self.2 fun l hl => ?_
  rw [h l hl]
  rfl

theorem filter_indent (ls : List String) :
    ((ls.map ("  " ++ ·)).filter fun l => !isComment l) =
      (ls.filter fun l => !isComment l).map ("  " ++ ·) := by
  rw [List.filter_map]
  simp only [Function.comp_def, isComment_indent]

namespace Pipeline

/-! ### Headings -/

theorem filter_headingLines (o : Options) (title : String) :
    ((headingLines o title).filter fun l => !isComment l) = [] := by
  unfold headingLines
  split
  · simp [isComment_heading]
  · rfl

theorem code_literalLines (name : String) (entries : List (String × String)) :
    ∀ l ∈ literalLines name entries, isComment l = false := by
  have hname (rest : String) : isComment ("const " ++ name ++ rest) = false :=
    isComment_of_opensCode (opensCode_append (opensCode_append (by decide) name) rest)
  unfold literalLines
  split
  · exact List.forall_mem_singleton.2 (hname _)
  · rw [List.cons_append, List.forall_mem_cons, List.forall_mem_append, List.forall_mem_map]
    refine ⟨hname _, fun e _ => ?_, List.forall_mem_singleton.2 (by decide)⟩
    rw [isComment_indent]
    exact isComment_of_opensCode
      (opensCode_append (opensCode_append (opensCode_append (opensCode_quote e.1) _) _) _)

theorem code_subscription (s : Subscription) : isComment s.text = false := by
  have hname (r : Section) : opensCode r.text = true := by cases r <;> decide
  have howner : opensCode s.source.owner.text = true := by
    cases s.source.owner with
    | entry r n | scanner r n =>
      exact opensCode_append (opensCode_append (opensCode_append (hname r) _) _) _
  have hsource : opensCode s.source.text = true := opensCode_append (opensCode_append howner _) _
  exact isComment_of_opensCode
    (opensCode_append (opensCode_append (opensCode_append hsource _) _) _)

theorem filter_stratumLines (o : Options) (w : StratumWiring) :
    ((stratumLines o w).filter fun l => !isComment l) =
      stratumLines { o with comments := false } w := by
  unfold stratumLines
  split
  · rfl
  · rw [List.filter_append, filter_headingLines,
      filter_code (List.forall_mem_map.2 fun s _ => code_subscription s)]
    rfl

/-- Without its comments, the body of a factory is the one that is written without headings. -/
theorem filter_bodyLines (o : Options) (p : Pipeline) :
    ((p.bodyLines o).filter fun l => !isComment l) = p.bodyLines { o with comments := false } := by
  have hreturn : (returnLines.filter fun l => !isComment l) = returnLines := by decide +kernel
  simp only [bodyLines, List.filter_append, filter_headingLines,
    filter_code (code_literalLines _ _), List.filter_flatMap, filter_stratumLines, hreturn]
  rfl

theorem code_footerLines (o : Options) : ∀ l ∈ footerLines o, isComment l = false := by
  unfold footerLines
  split
  · exact List.forall_mem_nil _
  · refine List.forall_mem_singleton.2 (isComment_of_opensCode ?_)
    exact opensCode_append (opensCode_append (by decide) _) _

theorem code_factory (o : Options) :
    isComment (exportText o.format ++ "function " ++ o.factory ++ "(runtime) \x7b") = false := by
  refine isComment_of_opensCode (opensCode_append (opensCode_append ?_ _) _)
  cases o.format <;> decide

/-- Without the comments behind its first line, a module is the one that is written without
headings. -/
theorem lines_withoutComments (o : Options) (p : Pipeline) :
    ∃ first rest, p.lines o = first :: rest ∧
      p.lines { o with comments := false } = first :: rest.filter fun l => !isComment l := by
  have hbrace : isComment "\x7d" = false := by decide
  refine ⟨"// " ++ header, (exportText o.format ++ "function " ++ o.factory ++ "(runtime) \x7b") ::
    ((p.bodyLines o).map ("  " ++ ·) ++ "\x7d" :: footerLines o), rfl, ?_⟩
  simp only [List.filter_cons, List.filter_append, filter_indent, filter_bodyLines, code_factory,
    hbrace, filter_code (code_footerLines o), Bool.not_false, if_true]
  rfl

/-! ### Formats -/

/-- The formats differ in the word before the factory, and in the last line. -/
theorem lines_formats (o : Options) (p : Pipeline) :
    ∃ first second rest,
      p.lines { o with format := .esm } = first :: ("export " ++ second) :: rest ∧
      p.lines { o with format := .commonJs } =
        first :: second :: (rest ++ ["module.exports = \x7b " ++ o.factory ++ " \x7d;"]) := by
  refine ⟨"// " ++ header, "function " ++ o.factory ++ "(runtime) \x7b",
    (p.bodyLines o).map ("  " ++ ·) ++ ["\x7d"], ?_, ?_⟩
  · simp only [lines, exportText, String.append_assoc]
    rfl
  · simp only [lines, exportText, String.empty_append, List.append_assoc]
    rfl

end Pipeline

/-! ### Choices -/

section Sources

variable {p : Pipeline} {o : Options}

/-- What is written without headings is what is written with headings, less the comments behind the
first line. -/
theorem source_withoutComments (hp : p.Inlined) (ho : Inline o.factory) :
    (p.generated { o with comments := false }).source = withoutComments (p.generated o).source := by
  obtain ⟨first, rest, hlines, hcode⟩ := p.lines_withoutComments o
  have hempty : isComment "" = false := by decide
  rw [Pipeline.source_generated, Pipeline.source_generated, withoutComments,
    textLines_unlines (hp.inline_lines ho), hcode, hlines, unlines_eq_intercalate]
  simp [List.filter_append, hempty]

/-- What is written in both formats, line by line. -/
theorem textLines_formats (hp : p.Inlined) (ho : Inline o.factory) :
    ∃ first second rest,
      textLines (p.generated { o with format := .esm }).source =
        first :: ("export " ++ second) :: (rest ++ [""]) ∧
      textLines (p.generated { o with format := .commonJs }).source =
        first :: second :: (rest ++ ["module.exports = \x7b " ++ o.factory ++ " \x7d;", ""]) := by
  have hlines (format : ModuleFormat) : textLines (p.generated { o with format := format }).source =
      p.lines { o with format := format } ++ [""] := by
    rw [Pipeline.source_generated]
    exact textLines_unlines (hp.inline_lines ho)
  obtain ⟨first, second, rest, hesm, hcommonJs⟩ := p.lines_formats o
  refine ⟨first, second, rest, ?_, ?_⟩
  · rw [hlines, hesm]
    rfl
  · rw [hlines, hcommonJs]
    simp

end Sources

namespace Graph

variable {g : Graph}

/-- The name of the factory is looked at first, and then the graph. -/
theorem generate_eq (g : Graph) (o : Options) :
    g.generate o = if isIdentifier o.factory then (Pipeline.ofGraph g).map (Pipeline.generated o)
      else .error (.factoryName o.factory) := by
  unfold generate
  cases Pipeline.ofGraph g <;> rfl

/-- **Options only change what they name.** A loaded graph and a name for the factory decide whether
a module is generated, and otherwise which error there is; then all modules have the same sizes. The
module without headings is the one with headings, less the comments behind its first line. The
module of the second format is the one of the first, less the word before its factory, and with a
line for the exports at the end. -/
theorem generate_choices {text : String} (h : (load text).graph = some g) (o o' : Options)
    (hfactory : o.factory = o'.factory) :
    (∃ err, g.generate o = .error err ∧ g.generate o' = .error err) ∨
    ∃ m m', g.generate o = .ok m ∧ g.generate o' = .ok m' ∧ m.stats = m'.stats ∧
      (o.format = o'.format → o.comments = true → o'.comments = false →
        m'.source = withoutComments m.source) ∧
      (o.comments = o'.comments → o.format = .esm → o'.format = .commonJs →
        ∃ first second rest, textLines m.source = first :: ("export " ++ second) :: (rest ++ [""]) ∧
          textLines m'.source =
            first :: second ::
              (rest ++ ["module.exports = \x7b " ++ o.factory ++ " \x7d;", ""])) := by
  obtain ⟨d, -, -, hg⟩ := exists_describes_of_load h
  rw [generate_eq, generate_eq, ← hfactory]
  split
  · next hid =>
    cases hp : Pipeline.ofGraph g with
    | error err => exact .inl ⟨err, rfl, rfl⟩
    | ok p =>
      obtain ⟨-, rfl⟩ := (Pipeline.ofGraph_eq_ok hg).1 hp
      have hinlined : g.pipeline.Inlined := inlined_of_load h
      have hinline : Inline o.factory := inline_of_isIdentifier hid
      obtain ⟨factory, format, comments⟩ := o
      obtain ⟨factory', format', comments'⟩ := o'
      obtain rfl : factory = factory' := hfactory
      refine .inr ⟨_, _, rfl, rfl, rfl, ?_, ?_⟩
      · rintro rfl rfl rfl
        exact source_withoutComments (o := ⟨factory, format, true⟩) hinlined hinline
      · rintro rfl rfl rfl
        exact textLines_formats (o := ⟨factory, .esm, comments⟩) hinlined hinline
  · exact .inl ⟨_, rfl, rfl⟩

/-- A relation and a text with slashes and line breaks make no line and no comment. -/
theorem generate_choices_slashes :
    let d : Document :=
      { elements := [.input "// a\n// b", .map "[\"//\", $0 / 2]" 1]
        edges := [⟨.index 0, .index 1, .input⟩]
        strata := [⟨0, [.index 0, .index 1]⟩] }
    ∃ g m n k, (load d.encode).graph = some g ∧ g.generate {} = .ok m ∧
    g.generate { comments := false } = .ok n ∧
      g.generate { format := .commonJs } = .ok k ∧ m.stats = n.stats ∧ m.stats = k.stats ∧
      n.source = withoutComments m.source ∧
      ∃ first second rest, textLines m.source = first :: ("export " ++ second) :: (rest ++ [""]) ∧
        textLines k.source =
          first :: second ::
            (rest ++ ["module.exports = \x7b " ++ "createPipeline" ++ " \x7d;", ""]) := by
  intro d
  have hchecked : d.load.graph.map (fun g => (g.generate {}).isOk) = some true := by decide +kernel
  obtain ⟨g, hg, hok⟩ := Option.map_eq_some_iff.1 hchecked
  have hload : (load d.encode).graph = some g := by rw [load_encode, hg]
  have herror (err : GenerateError) : g.generate {} ≠ .error err := by
    intro herr
    rw [herr] at hok
    cases hok
  obtain ⟨err, herr, -⟩ | ⟨m, n, hm, hn, hstats, hcomments, -⟩ :=
    generate_choices hload {} { comments := false } rfl
  · exact absurd herr (herror err)
  obtain ⟨err, herr, -⟩ | ⟨m', k, hm', hk, hstats', -, hformats⟩ :=
    generate_choices hload {} { format := .commonJs } rfl
  · exact absurd herr (herror err)
  obtain rfl : m = m' := Except.ok.inj (hm.symm.trans hm')
  exact ⟨g, m, n, k, hload, hm, hn, hk, hstats, hstats', hcomments rfl rfl rfl,
    hformats rfl rfl rfl⟩

end Graph

end Dataflow
