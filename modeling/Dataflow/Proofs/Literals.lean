import Dataflow.Proofs.Covering
import Dataflow.Proofs.Inline
import Dataflow.Proofs.Reading

/-!
# String literals and their readers

A quoted text is read in two places, by readers of JSON and by the lexer of the expression language.

* As a JSON string it is exact: no other string literal starts where it starts, it stands for the
  text that was quoted, and it ends at its own closing quote, whatever follows
  (`Script.quote_exact`).
* The lexer has fewer escapes. It takes a quoted text for one token as well, but refuses it as a
  whole if an escape that it lacks was needed (`lex_quote`).
-/

namespace Dataflow

open Script (quote quoteChar)

/-! ### As JSON strings -/

namespace Json

theorem charText_quoteChar (c : Char) : CharText c (quoteChar c) := by
  unfold quoteChar
  split
  · exact .escape (by decide)
  · exact .escape (by decide)
  · exact .escape (by decide)
  · exact .escape (by decide)
  · exact .escape (by decide)
  · next hquote hslash _ _ _ =>
    split
    · next hlow => exact charText_control hlow
    · next hlow => exact .plain hquote hslash hlow

theorem spells_quote (s : String) : Spells (.string s) (quote s).toList := by
  rw [quote, String.toList_ofList]
  exact .string (stringText_flatMap charText_quoteChar s.toList)

variable {s t : String} {lit lit' r r' : List Char}

/-- Reading a string literal stops right behind it. -/
theorem Spells.readValue_append (h : Spells (.string s) lit) (depth : Nat) (rest : List Char) :
    readValue depth (lit ++ rest) = (.string s, .ok rest) := by
  cases h with
  | string h =>
    rw [(settles_string depth h).ok trivial, reading]

/-- No string literal is the beginning of another one. -/
theorem Spells.eq_of_append_eq (h : Spells (.string s) lit) (h' : Spells (.string t) lit')
    (heq : lit ++ r = lit' ++ r') : s = t ∧ lit = lit' ∧ r = r' := by
  have hread := h.readValue_append 0 r
  rw [heq, h'.readValue_append 0 r', Prod.mk.injEq, Reading.string.injEq, Except.ok.injEq] at hread
  obtain ⟨rfl, rfl⟩ := hread
  exact ⟨rfl, List.append_cancel_right heq, rfl⟩

end Json

/-- **A quoted text is an exact JSON literal.** Names and string literals are written by quoting
them. In front of any text, reading a JSON value gets the quoted text back and leaves what follows
it; the quoted text is the only JSON string literal that starts there, and the only quoted text; and
it has no control characters. -/
theorem Script.quote_exact (s rest : String) :
    (Literal.str s).render = quote s ∧ (string s).render = quote s ∧
    Json.read (quote s ++ rest) = (.string s, .ok rest.toList) ∧
    (∀ t lit more, Json.Spells (.string t) lit ∧ (quote s ++ rest).toList = lit ++ more ↔
      t = s ∧ lit = (quote s).toList ∧ more = rest.toList) ∧
    (∀ t more, quote t ++ more = quote s ++ rest → t = s ∧ more = rest) ∧
    ∀ c ∈ (quote s).toList, 0x20 ≤ c.toNat := by
  have hspells := Json.spells_quote s
  refine ⟨rfl, ?_, ?_, fun t lit more => ⟨?_, ?_⟩, fun t more heq => ?_,
    inline_iff.1 (inline_quote s)⟩
  · exact (spells_string s).render
  · rw [Json.read, String.toList_append]
    exact hspells.readValue_append _ _
  · rintro ⟨hlit, heq⟩
    rw [String.toList_append] at heq
    obtain ⟨hst, htext, hrest⟩ := hspells.eq_of_append_eq hlit heq
    exact ⟨hst.symm, htext.symm, hrest.symm⟩
  · rintro ⟨rfl, rfl, rfl⟩
    exact ⟨hspells, String.toList_append⟩
  · have hchars := congrArg String.toList heq
    rw [String.toList_append, String.toList_append] at hchars
    obtain ⟨hst, -, hrest⟩ := (Json.spells_quote t).eq_of_append_eq hspells hchars
    exact ⟨hst, String.toList_inj.1 hrest⟩

/-! ### As tokens -/

/-- A text as a whole. -/
def Span.whole (source : String) : Span := ⟨0, source.utf8ByteSize⟩

/-- A text that is one longest match is one token, or else is refused as a whole. -/
theorem lex_of_munch {source : String} {c : Char} {r : List Char} {t? : Option Token}
    (hs : source.toList = c :: r) (hm : munch c r = .ofToken? r.length t?) :
    lex source = t?.elim ⟨[], [⟨source, .whole source⟩]⟩ fun t => ⟨[⟨t, .whole source⟩], []⟩ := by
  have hspan (kind : LexemeKind) : Lexeme.span ⟨kind, source.toList, 0⟩ = .whole source := by
    rw [Lexeme.span, ← utf8ByteSize_ofList, String.ofList_toList, Nat.zero_add, Span.whole]
  cases t? with
  | none => simp [lex, lexemes_of_munch hs hm, Lexeme.token?, Lexeme.error?, hspan]
  | some t => simp [lex, lexemes_of_munch hs hm, Lexeme.token?, Lexeme.error?, hspan]

/-- The lexer has no escape for the other control characters, though quoting has. -/
theorem unescape?_quoteChar_eq_none {c : Char} (h : ¬Escapable c) (r : List Char) :
    unescape? (quoteChar c ++ r) = none := by
  unfold quoteChar
  split
  · exact absurd (by decide) h
  · exact absurd (by decide) h
  · exact absurd (by decide) h
  · rfl
  · exact absurd (by decide) h
  · split
    · rfl
    · next hlow => exact absurd (fun hlow' => absurd hlow' hlow) h

theorem unescape?_quote_eq_none {cs : List Char} (h : ∃ c ∈ cs, ¬Escapable c) :
    unescape? (cs.flatMap quoteChar) = none := by
  induction cs with
  | nil => simp at h
  | cons c cs ih =>
    rw [List.flatMap_cons]
    by_cases hc : Escapable c
    · have hcs : ∃ d ∈ cs, ¬Escapable d := by simpa [hc] using h
      rw [unescape?_quoteChar hc, ih hcs]
      rfl
    · exact unescape?_quoteChar_eq_none hc _

/-- **Quoting and the lexer agree on the alphabet of the lexer.** A quoted text is lexed as one
string token with the text that was quoted exactly if line breaks and tabs are its only control
characters. If not, there is no token at all, and one error, which takes up the whole quoted text.
-/
theorem lex_quote (s : String) :
    (lex (quote s) = ⟨[⟨.str s, .whole (quote s)⟩], []⟩ ↔
      ∀ c ∈ s.toList, c.toNat < 0x20 → c = '\n' ∨ c = '\t') ∧
    (¬(∀ c ∈ s.toList, c.toNat < 0x20 → c = '\n' ∨ c = '\t') →
      lex (quote s) = ⟨[], [⟨quote s, .whole (quote s)⟩]⟩) := by
  have hchars : (quote s).toList = '"' :: (s.toList.flatMap quoteChar ++ ['"']) := by
    rw [quote, String.toList_ofList, List.cons_append]
  have hmunch := munch_quoted s.toList []
  rw [List.append_nil] at hmunch
  have hlex := lex_of_munch hchars hmunch
  have hrefused (h : ¬∀ c ∈ s.toList, Escapable c) :
      lex (quote s) = ⟨[], [⟨quote s, .whole (quote s)⟩]⟩ := by
    simp only [not_forall] at h
    obtain ⟨c, hc, hescape⟩ := h
    rw [hlex, unescape?_quote_eq_none ⟨c, hc, hescape⟩]
    rfl
  refine ⟨⟨fun h => ?_, fun h => ?_⟩, hrefused⟩
  · by_contra hnot
    cases h.symm.trans (hrefused hnot)
  · rw [hlex, unescape?_quote h, Option.map_some, Function.comp_apply, String.ofList_toList]
    rfl

end Dataflow
