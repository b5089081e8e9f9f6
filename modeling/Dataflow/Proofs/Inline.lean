import Dataflow.Proofs.Closed
import Dataflow.Proofs.Hygiene
import Dataflow.Proofs.Lines

/-!
# Texts that stay on their line

No text from a document makes a new line in generated code. Names of relations are quoted, and
quoting escapes all control characters; names in functions were parsed, and are identifiers; all
other texts are numbers or fixed. So no line of a module has a control character in it.

`Inline s` says that the text `s` has none. Putting texts together keeps it (`inline_append`,
`inline_intercalate`), and so it goes from the parts of an expression to its text
(`Expr.inline_render`), and from the parts of a pipeline to its lines
(`Pipeline.Inlined.inline_lines`). The pipeline of a loaded graph has such parts
(`Graph.inlined_of_load`).
-/

namespace Dataflow

/-- A text without control characters. -/
def Inline (s : String) : Prop := (s.toList.all fun c => decide (0x20 ≤ c.toNat)) = true

instance (s : String) : Decidable (Inline s) := inferInstanceAs (Decidable (_ = true))

section Texts

variable {s t separator : String} {ts : List String}

theorem le_toNat_of_all {cs : List Char} (h : (cs.all fun c => decide (0x20 ≤ c.toNat)) = true) :
    ∀ c ∈ cs, 0x20 ≤ c.toNat :=
  fun c hc => of_decide_eq_true (List.all_eq_true.1 h c hc)

theorem inline_iff : Inline s ↔ ∀ c ∈ s.toList, 0x20 ≤ c.toNat := by
  simp only [Inline, List.all_eq_true, decide_eq_true_eq]

@[simp] theorem inline_append : Inline (s ++ t) ↔ Inline s ∧ Inline t := by
  simp only [inline_iff, String.toList_append, List.forall_mem_append]

theorem inline_intercalate (hs : Inline separator) (h : ∀ t ∈ ts, Inline t) :
    Inline (separator.intercalate ts) := by
  induction ts with
  | nil => exact (by decide : Inline "")
  | cons t ts ih =>
    obtain ⟨ht, hts⟩ := List.forall_mem_cons.1 h
    cases ts with
    | nil => rwa [String.intercalate_singleton]
    | cons u us =>
      rw [String.intercalate_cons_cons, inline_append, inline_append]
      exact ⟨⟨ht, hs⟩, ih hts⟩

theorem not_mem_newline (h : Inline s) : '\n' ∉ s.toList := by
  intro hmem
  exact absurd (inline_iff.1 h _ hmem) (by decide)

/-! ### Names and numbers -/

/-- A class of characters without the control characters. -/
theorem le_toNat_of {p : Char → Bool} {c : Char} (hp : ∀ n < 0x20, p (Char.ofNat n) = false)
    (h : p c = true) :
    0x20 ≤ c.toNat := by
  refine Nat.le_of_not_lt fun hlt => ?_
  have hc := hp c.toNat hlt
  rw [Char.ofNat_toNat, h] at hc
  cases hc

theorem le_toNat_of_isNameChar {c : Char} (h : isNameChar c = true) : 0x20 ≤ c.toNat :=
  le_toNat_of (by decide) h

theorem le_toNat_of_isDigit {c : Char} (h : c.isDigit = true) : 0x20 ≤ c.toNat :=
  le_toNat_of (by decide) h

theorem inline_of_isIdentifier (h : isIdentifier s = true) : Inline s := by
  obtain ⟨c, r, hcr, hc, hr⟩ := exists_cons_of_isIdentifier h
  rw [inline_iff, hcr, List.forall_mem_cons]
  exact ⟨le_toNat_of (by decide) hc, fun d hd => le_toNat_of_isNameChar (hr d hd)⟩

theorem inline_toString (n : Nat) : Inline (toString n) := by
  obtain ⟨c, r, hcr, hc, hr, -⟩ := exists_digits n
  rw [inline_iff, hcr, List.forall_mem_cons]
  exact ⟨le_toNat_of_isDigit hc, fun d hd => le_toNat_of_isDigit (hr d hd)⟩

theorem inline_toString_int (n : Int) : Inline (toString n) := by
  cases n with
  | ofNat n => exact inline_toString n
  | negSucc n =>
    have htext : toString (Int.negSucc n) = "-" ++ toString (n + 1) := rfl
    rw [htext, inline_append]
    exact ⟨by decide, inline_toString (n + 1)⟩

theorem le_toNat_of_mem_quoteChar {c d : Char} (h : d ∈ Script.quoteChar c) : 0x20 ≤ d.toNat := by
  have hhex : ∀ n < 16, 0x20 ≤ (Script.hexDigit n).toNat := by decide
  unfold Script.quoteChar at h
  split at h
  · exact le_toNat_of_all (by decide) d h
  · exact le_toNat_of_all (by decide) d h
  · exact le_toNat_of_all (by decide) d h
  · exact le_toNat_of_all (by decide) d h
  · exact le_toNat_of_all (by decide) d h
  · split at h
    · next hlt =>
      simp only [List.mem_cons, List.not_mem_nil, or_false] at h
      rcases h with rfl | rfl | rfl | rfl | rfl | rfl
      · decide
      · decide
      · decide
      · decide
      · exact hhex _ (by omega)
      · exact hhex _ (by omega)
    · next hle =>
      rw [List.mem_singleton.1 h]
      omega

/-- A quoted text has no control characters, whatever it is. -/
theorem inline_quote (s : String) : Inline (Script.quote s) := by
  rw [inline_iff, Script.quote, String.toList_ofList, List.cons_append, List.forall_mem_cons,
    List.forall_mem_append]
  refine ⟨by decide, fun d hd => ?_, List.forall_mem_singleton.2 (by decide)⟩
  obtain ⟨c, -, hc⟩ := List.mem_flatMap.1 hd
  exact le_toNat_of_mem_quoteChar hc

theorem le_toNat_of_mem_digitChars {n : Nat} {c : Char} (h : c ∈ Decimal.digitChars n) :
    0x20 ≤ c.toNat :=
  le_toNat_of_isDigit (Nat.isDigit_of_mem_toDigits (by decide) (by decide) h)

theorem le_toNat_of_mem_positional {d : Decimal} {c : Char} (h : c ∈ d.positional) :
    0x20 ≤ c.toNat := by
  have hzero {k : Nat} (hc : c ∈ List.replicate k '0') : 0x20 ≤ c.toNat := by
    rw [List.eq_of_mem_replicate hc]
    decide
  unfold Decimal.positional at h
  dsimp only at h
  split at h
  · rcases List.mem_append.1 h with h | h
    · exact le_toNat_of_mem_digitChars h
    · exact hzero h
  · split at h
    · rcases List.mem_append.1 h with h | h
      · exact le_toNat_of_mem_digitChars (List.mem_of_mem_take h)
      · rcases List.mem_cons.1 h with rfl | h
        · decide
        · exact le_toNat_of_mem_digitChars (List.mem_of_mem_drop h)
    · simp only [List.mem_append, List.mem_cons, List.not_mem_nil, or_false] at h
      rcases h with ((rfl | rfl) | h) | h
      · decide
      · decide
      · exact hzero h
      · exact le_toNat_of_mem_digitChars h

theorem inline_literalText (x : Binary64) : Inline x.literalText := by
  have hsign : ∀ c ∈ x.signChars, 0x20 ≤ c.toNat := by
    unfold Binary64.signChars
    split <;> exact le_toNat_of_all (by decide)
  rw [inline_iff, Binary64.literalText, Binary64.textWith, String.toList_ofList]
  split
  · refine List.forall_mem_append.2 ⟨hsign, fun c hc => ?_⟩
    split at hc
    · rcases List.mem_append.1 hc with hc | hc
      · exact le_toNat_of_mem_digitChars hc
      · exact le_toNat_of_all (by decide) c hc
    · exact le_toNat_of_mem_positional hc
  · split
    · exact le_toNat_of_all (by decide)
    · exact List.forall_mem_append.2 ⟨hsign, le_toNat_of_all (by decide)⟩

end Texts

/-! ### Expressions -/

theorem Literal.inline_render (v : Literal) : Inline v.render := by
  cases v with
  | int n => exact inline_toString_int n.toInt
  | float x => exact inline_literalText x
  | str s => exact inline_quote s
  | bool b => cases b <;> decide
  | null => decide

namespace Expr

variable {params : List String} {e : Expr} {es : List Expr}

theorem inline_parenthesize {s : String} (needed : Bool) (h : Inline s) :
    Inline (parenthesize needed s) := by
  cases needed with
  | false => exact h
  | true =>
    rw [parenthesize, if_pos rfl, inline_append, inline_append]
    exact ⟨⟨by decide, h⟩, by decide⟩

theorem inline_renderItems (h : ∀ e ∈ es, Inline (e.render params)) :
    Inline (renderItems params es) := by
  induction es with
  | nil =>
    rw [renderItems]
    decide
  | cons e es ih =>
    obtain ⟨he, hes⟩ := List.forall_mem_cons.1 h
    cases es with
    | nil => rwa [renderItems]
    | cons e' es' =>
      rw [renderItems, inline_append, inline_append]
      · exact ⟨⟨he, by decide⟩, ih hes⟩
      · simp

/-- An expression with identifiers as names is written on one line, if its parameters are. -/
theorem inline_render (hp : ∀ n ∈ params, Inline n) (he : e.Leaves Token.Lexical) :
    Inline (e.render params) := by
  induction e using induction_children with
  | h e ih =>
    obtain ⟨hown, hchildren⟩ := leaves_iff.1 he
    have hrender : ∀ c ∈ e.children, Inline (c.render params) :=
      fun c hc => ih c hc (hchildren c hc)
    cases e with
    | literal s v =>
      rw [render]
      exact v.inline_render
    | param s i =>
      rw [render]
      cases hi : params[i.toNat]? with
      | none => decide
      | some n => exact hp n (List.mem_of_getElem? hi)
    | ident s n =>
      have hn : IsName n := hown _ List.mem_cons_self
      rw [render]
      exact inline_of_isIdentifier hn.1
    | tuple s items =>
      rw [render, inline_append, inline_append]
      exact ⟨⟨by decide, inline_renderItems hrender⟩, by decide⟩
    | index s b i =>
      have hb := inline_parenthesize b.wrapsAsBase (hrender b (by simp [children]))
      have hi := hrender i (by simp [children])
      rw [render]
      simp only [inline_append]
      exact ⟨⟨⟨hb, by decide⟩, hi⟩, by decide⟩
    | field s b n =>
      have hb := inline_parenthesize b.wrapsAsBase (hrender b (by simp [children]))
      have hn : IsName n := hown _ List.mem_cons_self
      rw [render]
      simp only [inline_append]
      exact ⟨⟨hb, by decide⟩, inline_of_isIdentifier hn.1⟩
    | call s f args =>
      obtain ⟨hf, hargs⟩ := List.forall_mem_cons.1 hrender
      rw [render]
      simp only [inline_append]
      exact ⟨⟨⟨inline_parenthesize _ hf, by decide⟩, inline_renderItems hargs⟩, by decide⟩
    | unary s op e =>
      have he := inline_parenthesize e.wrapsAsOperand (hrender e (by simp [children]))
      have hop : Inline op.targetSymbol := by cases op <;> decide
      rw [render]
      exact inline_append.2 ⟨hop, he⟩
    | binary s op l r =>
      have hl := inline_parenthesize (l.wrapsOnLeft op) (hrender l (by simp [children]))
      have hr := inline_parenthesize (r.wrapsOnRight op) (hrender r (by simp [children]))
      have hop : Inline op.targetSymbol := by cases op <;> decide
      rw [render]
      simp only [inline_append]
      exact ⟨⟨⟨⟨hl, by decide⟩, hop⟩, by decide⟩, hr⟩

end Expr

/-! ### Parts of pipelines -/

theorem inline_of_mem_names {name : String} {n : Nat} (h : name ∈ (mapParams n).names) :
    Inline name := by
  obtain ⟨c, r, hcr, hc, hr⟩ := exists_of_mem_names h
  rw [inline_iff, hcr, List.forall_mem_cons, List.forall_mem_cons]
  exact ⟨by decide, le_toNat_of (by decide) hc, fun d hd => le_toNat_of_isNameChar (hr d hd)⟩

theorem inline_lambdaHead {params : Params} (h : ∀ n ∈ params.names, Inline n) :
    Inline (Script.lambdaHead params) := by
  cases params with
  | named ns | destructured ns =>
    unfold Script.lambdaHead
    simp only [inline_append]
    exact ⟨⟨by decide +kernel, inline_intercalate (by decide +kernel) h⟩, by decide +kernel⟩

theorem inline_functionText {n : Nat} {f : Expr} (hf : f.Leaves Token.Lexical) :
    Inline (functionText (mapParams n) f) := by
  have hnames : ∀ name ∈ (mapParams n).names, Inline name := fun name h => inline_of_mem_names h
  unfold functionText
  simp only [inline_append]
  exact ⟨⟨inline_lambdaHead hnames, by decide +kernel⟩, Expr.inline_render hnames hf⟩

/-- The functions of an operator. -/
def OperatorEntry.functions : OperatorEntry → List Expr
  | join b p _ => [b, p]
  | map f _ => [f]

theorem OperatorEntry.inline_text {o : OperatorEntry}
    (h : ∀ f ∈ o.functions, f.Leaves Token.Lexical) :
    Inline o.text := by
  cases o with
  | join b p left =>
    obtain ⟨hb, hp⟩ := List.forall_mem_cons.1 h
    have hkeys {f : Expr} (hf : f.Leaves Token.Lexical) : Inline (functionText keyParams f) :=
      inline_functionText (n := 0) hf
    unfold text
    simp only [inline_append]
    exact ⟨⟨⟨⟨⟨⟨by decide +kernel, hkeys hb⟩, by decide +kernel⟩, hkeys (hp p List.mem_cons_self)⟩,
      by decide +kernel⟩, inline_quote _⟩, by decide +kernel⟩
  | map f n =>
    unfold text
    simp only [inline_append]
    exact ⟨⟨by decide +kernel, inline_functionText (h f List.mem_cons_self)⟩, by decide +kernel⟩

theorem Reference.inline_text (r : Reference) : Inline r.text := by
  have hname (s : Section) : Inline s.text := by cases s <;> decide +kernel
  cases r with
  | entry s n | scanner s n =>
    unfold text
    simp only [inline_append]
    exact ⟨⟨⟨hname s, by decide +kernel⟩, inline_quote n⟩, by decide +kernel⟩

theorem PortReference.inline_text {p : PortReference} (h : Inline p.member) : Inline p.text := by
  unfold text
  simp only [inline_append]
  exact ⟨⟨p.owner.inline_text, by decide +kernel⟩, h⟩

theorem Subscription.inline_text {s : Subscription} (hs : Inline s.source.member)
    (ht : Inline s.target.member) :
    Inline s.text := by
  unfold text
  simp only [inline_append]
  exact ⟨⟨⟨PortReference.inline_text hs, by decide +kernel⟩, PortReference.inline_text ht⟩,
    by decide +kernel⟩

theorem ScannerEntry.inline_text {s : ScannerEntry} (h : ∀ p ∈ s.targets, Inline p.member) :
    Inline s.text := by
  have htargets : ∀ t ∈ s.targets.map PortReference.text, Inline t :=
    List.forall_mem_map.2 fun p hp => PortReference.inline_text (h p hp)
  unfold text
  simp only [inline_append]
  exact ⟨⟨⟨⟨by decide +kernel, s.source.inline_text⟩, by decide +kernel⟩,
    inline_intercalate (by decide +kernel) htargets⟩, by decide +kernel⟩

/-! ### Lines -/

namespace Pipeline

/-- What a pipeline has of its own to write, beside names in quotes, has no control characters. -/
structure Inlined (p : Pipeline) : Prop where
  operators : ∀ e ∈ p.operators, Inline e.2.text
  scanners : ∀ s ∈ p.scanners, Inline s.2.text
  subscriptions : ∀ w ∈ p.wiring, ∀ s ∈ w.subscriptions, Inline s.text

theorem inline_literalLines {name : String} {entries : List (String × String)} (hn : Inline name)
    (h : ∀ e ∈ entries, Inline e.2) : ∀ l ∈ literalLines name entries, Inline l := by
  unfold literalLines
  split
  · refine List.forall_mem_singleton.2 ?_
    simp only [inline_append]
    exact ⟨⟨by decide +kernel, hn⟩, by decide +kernel⟩
  · rw [List.cons_append, List.forall_mem_cons, List.forall_mem_append, List.forall_mem_map]
    refine ⟨?_, fun e he => ?_, List.forall_mem_singleton.2 (by decide +kernel)⟩
    · simp only [inline_append]
      exact ⟨⟨by decide +kernel, hn⟩, by decide +kernel⟩
    · simp only [Script.entryText, inline_append]
      exact ⟨by decide +kernel, ⟨⟨inline_quote e.1, by decide +kernel⟩, h e he⟩, by decide +kernel⟩

theorem inline_headingLines (o : Options) {title : String} (h : Inline title) :
    ∀ l ∈ headingLines o title, Inline l := by
  unfold headingLines
  split
  · exact List.forall_mem_singleton.2 (inline_append.2 ⟨by decide +kernel, h⟩)
  · exact List.forall_mem_nil _

theorem Inlined.inline_stratumLines {p : Pipeline} (h : p.Inlined) (o : Options) :
    ∀ w ∈ p.wiring, ∀ l ∈ stratumLines o w, Inline l := by
  intro w hw
  unfold stratumLines
  split
  · exact List.forall_mem_nil _
  · refine List.forall_mem_append.2 ⟨inline_headingLines o ?_,
      List.forall_mem_map.2 (h.subscriptions w hw)⟩
    exact inline_append.2 ⟨by decide +kernel, inline_toString w.index⟩

theorem Inlined.inline_bodyLines {p : Pipeline} (h : p.Inlined) (o : Options) :
    ∀ l ∈ p.bodyLines o, Inline l := by
  have htables (k : Nat) : Inline (tableText k) := by
    unfold tableText
    simp only [inline_append]
    exact ⟨⟨by decide +kernel, inline_toString k⟩, by decide +kernel⟩
  have hinput : Inline inputText := by decide +kernel
  have hpoints (r : String) : Inline (entryPointText r) := by
    unfold entryPointText
    simp only [inline_append]
    exact ⟨⟨by decide +kernel, inline_quote r⟩, by decide +kernel⟩
  have hvalues (ns : List String) : Inline (valuesText ns) := by
    have hquoted : ∀ t ∈ ns.map Script.quote, Inline t :=
      List.forall_mem_map.2 fun n _ => inline_quote n
    unfold valuesText
    simp only [inline_append]
    exact ⟨⟨by decide +kernel, inline_intercalate (by decide +kernel) hquoted⟩, by decide +kernel⟩
  have hreturn : (returnLines.all fun l => decide (Inline l)) = true := by decide +kernel
  simp only [bodyLines, List.forall_mem_append, and_assoc]
  exact ⟨inline_headingLines o (by decide +kernel),
    inline_literalLines (by decide +kernel) (List.forall_mem_map.2 fun t _ => htables t.2),
    inline_headingLines o (by decide +kernel),
    inline_literalLines (by decide +kernel) (List.forall_mem_map.2 fun _ _ => hinput),
    inline_literalLines (by decide +kernel) (List.forall_mem_map.2 fun r _ => hpoints r),
    inline_headingLines o (by decide +kernel),
    inline_literalLines (by decide +kernel) (List.forall_mem_map.2 h.operators),
    inline_headingLines o (by decide +kernel),
    inline_literalLines (by decide +kernel) (List.forall_mem_map.2 h.scanners),
    inline_headingLines o (by decide +kernel),
    inline_literalLines (by decide +kernel) (List.forall_mem_map.2 fun t _ => hvalues t.2),
    inline_literalLines (by decide +kernel) (List.forall_mem_map.2 fun t _ => hvalues t.2),
    inline_headingLines o (by decide +kernel),
    List.forall_mem_flatMap.2 (h.inline_stratumLines o),
    fun l hl => of_decide_eq_true (List.all_eq_true.1 hreturn l hl)⟩

/-- No line of a module has a control character in it. -/
theorem Inlined.inline_lines {p : Pipeline} (h : p.Inlined) {o : Options} (ho : Inline o.factory) :
    ∀ l ∈ p.lines o, Inline l := by
  have hexport : Inline (exportText o.format) := by cases o.format <;> decide +kernel
  have hfooter : ∀ l ∈ footerLines o, Inline l := by
    unfold footerLines
    split
    · exact List.forall_mem_nil _
    · refine List.forall_mem_singleton.2 ?_
      simp only [inline_append]
      exact ⟨⟨by decide +kernel, ho⟩, by decide +kernel⟩
  simp only [lines, List.cons_append, List.forall_mem_cons, List.forall_mem_append,
    List.forall_mem_map, inline_append]
  exact ⟨⟨by decide +kernel, by decide +kernel⟩,
    ⟨⟨⟨hexport, by decide +kernel⟩, ho⟩, by decide +kernel⟩, fun l hl =>
      ⟨by decide +kernel, h.inline_bodyLines o l hl⟩, by decide +kernel, hfooter⟩

end Pipeline

/-! ### Loaded graphs -/

namespace Graph

variable {g : Graph}

theorem inline_member (p : InputPort) : Inline p.member := by
  cases p <;> decide +kernel

theorem exists_of_mem_emitted {r : String × Entry} (h : r ∈ g.emitted) :
    ∃ e ∈ g.elements, r.2 = g.entryOf e := by
  obtain ⟨e, he, rfl⟩ := List.mem_map.1 h
  exact ⟨e, mem_of_mem_emissionOrder he, rfl⟩

theorem inline_operator (h : ∀ e ∈ g.elements, ∀ f ∈ e.kind.functions, f.Leaves Token.Lexical)
    {o : String × OperatorEntry} (ho : o ∈ g.pipeline.operators) : Inline o.2.text := by
  obtain ⟨⟨n, entry⟩, hr, hop⟩ := List.mem_filterMap.1 ho
  obtain ⟨e, he, rfl⟩ := exists_of_mem_emitted hr
  refine OperatorEntry.inline_text fun f hf => h e he f ?_
  unfold entryOf at hop
  cases hk : e.kind with
  | table | input | scanner =>
    rw [hk] at hop
    cases hop
  | join | map =>
    rw [hk] at hop
    cases hop
    exact hf

theorem inline_scanner {s : String × ScannerEntry} (hs : s ∈ g.pipeline.scanners) :
    Inline s.2.text := by
  obtain ⟨⟨n, entry⟩, hr, hsc⟩ := List.mem_filterMap.1 hs
  obtain ⟨e, -, rfl⟩ := exists_of_mem_emitted hr
  refine ScannerEntry.inline_text fun p hp => ?_
  unfold entryOf at hsc
  cases hk : e.kind with
  | table | input | join | map =>
    rw [hk] at hsc
    cases hsc
  | scanner t =>
    rw [hk] at hsc
    cases hsc
    obtain ⟨edge, -, rfl⟩ := List.mem_map.1 hp
    exact inline_member edge.port

/-- A pipeline has no control characters to write if the names in the functions of its graph are
identifiers. -/
theorem inlined_pipeline (h : ∀ e ∈ g.elements, ∀ f ∈ e.kind.functions, f.Leaves Token.Lexical) :
    g.pipeline.Inlined := by
  have houtput : Inline outputName := by decide +kernel
  refine ⟨fun o ho => inline_operator h ho, fun s hs => inline_scanner hs, fun w hw s hs => ?_⟩
  obtain ⟨stratum, -, rfl⟩ := List.mem_map.1 hw
  obtain ⟨edge, -, rfl⟩ := List.mem_map.1 hs
  exact Subscription.inline_text houtput (inline_member edge.port)

/-- Functions in a loaded graph were parsed, so their names are identifiers. -/
theorem inlined_of_load {text : String} (h : (load text).graph = some g) : g.pipeline.Inlined := by
  obtain ⟨d, -, hd, -⟩ := exists_describes_of_load h
  refine inlined_pipeline fun e he f hf => ?_
  obtain ⟨source, hsource⟩ := hd.parsesTo he f hf
  exact hsource.leaves

end Graph

end Dataflow
