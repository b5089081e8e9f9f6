import Dataflow.Script.Quote
import Dataflow.Token.Lexer

/-!
# Lexing text that is written token by token

A text that was put together from the texts of tokens is cut into these tokens again, as long as
what follows each of them cannot continue it. `Lexes` is the relation between a text and its tokens,
and for every class of tokens there is a lemma that takes the text of one token off the front.
-/

namespace Dataflow

/-- `Lexes cs ts`: the text `cs` consists of the tokens `ts` and of blanks, each the longest match
at its place. -/
inductive Lexes : List Char → List Token → Prop
  | nil : Lexes [] []
  | blank {c : Char} {r : List Char} {k : Nat} {ts : List Token} : munch c r = ⟨k, .blank⟩ →
      Lexes (r.drop k) ts → Lexes (c :: r) ts
  | token {c : Char} {r : List Char} {k : Nat} {t : Token} {ts : List Token} :
      munch c r = ⟨k, .token t⟩ → Lexes (r.drop k) ts → Lexes (c :: r) (t :: ts)

/-- The lexemes of a text have its tokens, and none is refused. -/
theorem Lexes.lexemesFrom {cs : List Char} {ts : List Token} (h : Lexes cs ts) (offset : Nat) :
    ((lexemesFrom offset cs).filterMap Lexeme.token?).map PlacedToken.token = ts ∧
      (Dataflow.lexemesFrom offset cs).filterMap Lexeme.error? = [] := by
  induction h generalizing offset with
  | nil => simp [Dataflow.lexemesFrom]
  | blank hm _ ih =>
    rw [Dataflow.lexemesFrom, hm]
    simp only [List.filterMap_cons, Lexeme.token?, Lexeme.error?]
    exact ih _
  | token hm _ ih =>
    rw [Dataflow.lexemesFrom, hm]
    simp only [List.filterMap_cons, Lexeme.token?, Lexeme.error?, List.map_cons]
    exact ⟨congrArg _ (ih _).1, (ih _).2⟩

theorem Lexes.lex {source : String} {ts : List Token} (h : Lexes source.toList ts) :
    (lex source).tokens.map PlacedToken.token = ts ∧ (Dataflow.lex source).errors = [] :=
  h.lexemesFrom 0

variable {c : Char} {r rest : List Char} {t : Token} {ts : List Token}

theorem Lexes.token_append (h : Lexes rest ts) (hm : munch c (r ++ rest) = ⟨r.length, .token t⟩) :
    Lexes (c :: (r ++ rest)) (t :: ts) :=
  .token hm (by simpa using h)

/-- A text that is one longest match has one lexeme. -/
theorem lexemes_of_munch {source : String} {kind : LexemeKind} (hs : source.toList = c :: r)
    (hm : munch c r = ⟨r.length, kind⟩) : lexemes source = [⟨kind, source.toList, 0⟩] := by
  simp [lexemes, hs, Dataflow.lexemesFrom, hm]

/-- The token of a text that is one longest match, if it is accepted. -/
theorem tokens_lex_of_munch {source : String} {t? : Option Token} (hs : source.toList = c :: r)
    (hm : munch c r = .ofToken? r.length t?) :
    (lex source).tokens.map PlacedToken.token = t?.toList := by
  cases t? <;> simp [lex, lexemes_of_munch hs hm, Lexeme.token?]

/-! ### Where a token ends -/

/-- A text that cannot continue an operand: it is empty, or starts with a character that is in no
name, and no fraction starts there either. -/
def Boundary : List Char → Prop
  | [] => True
  | c :: r => isNameChar c = false ∧ (c = '.' → ∀ d ∈ r.head?, d.isDigit = false)

theorem boundary_nil : Boundary [] := trivial

theorem boundary_cons (hc : isNameChar c = false) (h : c ≠ '.') (rest : List Char) :
    Boundary (c :: rest) :=
  ⟨hc, fun hp => absurd hp h⟩

theorem takeWhile_append_of_head {p : Char → Bool} (hr : ∀ c ∈ r, p c = true)
    (hrest : ∀ c ∈ rest.head?, p c = false) : (r ++ rest).takeWhile p = r := by
  rw [List.takeWhile_append_of_pos hr]
  cases rest with
  | nil => simp
  | cons c rest => simp [hrest c rfl]

theorem dropWhile_append_of_head {p : Char → Bool} (hr : ∀ c ∈ r, p c = true)
    (hrest : ∀ c ∈ rest.head?, p c = false) : (r ++ rest).dropWhile p = rest := by
  rw [List.dropWhile_append_of_pos hr]
  cases rest with
  | nil => rfl
  | cons c rest => simp [hrest c rfl]

theorem isNameChar_of_isDigit (h : c.isDigit = true) : isNameChar c = true := by
  simp [isNameChar, Char.isAlphanum, h]

theorem Boundary.head_isNameChar (h : Boundary rest) : ∀ c ∈ rest.head?, isNameChar c = false := by
  cases rest with
  | nil => simp
  | cons c r => simpa using h.1

theorem Boundary.head_isDigit (h : Boundary rest) : ∀ c ∈ rest.head?, c.isDigit = false := by
  intro c hc
  cases hd : c.isDigit with
  | false => rfl
  | true =>
    have hn := h.head_isNameChar c hc
    rw [isNameChar_of_isDigit hd] at hn
    contradiction

/-- A class of characters without the equals sign. -/
theorem ne_equals_of {p : Char → Bool} (hp : p '=' = false) (h : p c = true) : c ≠ '=' := by
  rintro rfl
  simp [hp] at h

/-! ### Names -/

theorem isBlank_eq_true (h : isBlank c = true) : c = ' ' ∨ c = '\t' ∨ c = '\r' ∨ c = '\n' := by
  simpa [isBlank, or_assoc] using h

/-- A class of characters without the blanks. -/
theorem isBlank_eq_false_of {p : Char → Bool}
    (hp : p ' ' = false ∧ p '\t' = false ∧ p '\r' = false ∧ p '\n' = false) (h : p c = true) :
    isBlank c = false := by
  cases hb : isBlank c with
  | false => rfl
  | true => rcases isBlank_eq_true hb with rfl | rfl | rfl | rfl <;> simp_all

theorem isBlank_of_isNameStart (h : isNameStart c = true) : isBlank c = false :=
  isBlank_eq_false_of (by decide) h

theorem exists_cons_of_isIdentifier {s : String} (h : isIdentifier s = true) :
    ∃ c r, s.toList = c :: r ∧ isNameStart c = true ∧ ∀ d ∈ r, isNameChar d = true := by
  unfold isIdentifier at h
  split at h
  · cases h
  · next c r hcr =>
    rw [Bool.and_eq_true, List.all_eq_true] at h
    exact ⟨c, r, hcr, h⟩

/-- The longest match at the front of a word. -/
theorem munch_word (hc : isNameStart c = true) (hr : ∀ d ∈ r, isNameChar d = true)
    (hb : Boundary rest) : munch c (r ++ rest) = ⟨r.length, .token (wordToken (c :: r))⟩ := by
  simp only [munch, isBlank_of_isNameStart hc, hc, takeWhile_append_of_head hr hb.head_isNameChar]
  rfl

/-! ### Numbers -/

theorem isBlank_of_isDigit (h : c.isDigit = true) : isBlank c = false :=
  isBlank_eq_false_of (by decide) h

theorem isNameStart_of_isDigit (h : c.isDigit = true) : isNameStart c = false := by
  have hne : c ≠ '_' := by
    rintro rfl
    revert h
    decide
  obtain ⟨hlow, hhigh⟩ := Char.isDigit_iff_toNat.1 h
  have hupper : c.isUpper = decide (65 ≤ c.toNat ∧ c.toNat ≤ 90) := rfl
  have hlower : c.isLower = (decide (97 ≤ c.toNat) && decide (c.toNat ≤ 122)) := rfl
  have hstart : isNameStart c = (c.isUpper || c.isLower || c == '_') := rfl
  simp only [Char.reduceToNat] at hlow hhigh
  simp only [hstart, hupper, hlower, Bool.or_eq_false_iff, Bool.and_eq_false_iff,
    decide_eq_false_iff_not, beq_eq_false_iff_ne]
  exact ⟨⟨by omega, by omega⟩, hne⟩

/-- The digits of a number, and their value. -/
theorem exists_digits (n : Nat) : ∃ c r, (toString n).toList = c :: r ∧ c.isDigit = true ∧
    (∀ d ∈ r, d.isDigit = true) ∧ digitsValue (c :: r) = n := by
  have hl : (toString n).toList = Nat.toDigits 10 n := Nat.toList_repr
  have hd : ∀ d ∈ Nat.toDigits 10 n, d.isDigit = true := fun d hd =>
    Nat.isDigit_of_mem_toDigits (by decide) (by decide) hd
  have hv : digitsValue (Nat.toDigits 10 n) = n := Nat.ofDigitChars_ten_toDigits
  rw [hl]
  cases h : Nat.toDigits 10 n with
  | nil => exact absurd h Nat.toDigits_ne_nil
  | cons c r =>
    rw [h] at hd hv
    exact ⟨c, r, rfl, hd c (by simp), fun d hdr => hd d (by simp [hdr]), hv⟩

theorem munch_digit (hc : c.isDigit = true) (r : List Char) : munch c r = munchNumber c r := by
  simp [munch, isBlank_of_isDigit hc, isNameStart_of_isDigit hc, hc]

/-- The longest match at the front of an integer. -/
theorem munch_int (hc : c.isDigit = true) (hr : ∀ d ∈ r, d.isDigit = true) (hb : Boundary rest)
    (ht : intToken? (c :: r) = some t) : munch c (r ++ rest) = ⟨r.length, .token t⟩ := by
  rw [munch_digit hc]
  unfold munchNumber
  rw [takeWhile_append_of_head hr hb.head_isDigit, dropWhile_append_of_head hr hb.head_isDigit]
  split
  · next r' =>
    have hf : r'.takeWhile Char.isDigit = [] := by
      cases r' with
      | nil => rfl
      | cons d r' => simp [hb.2 rfl d rfl]
    simp [hf, ht, Munch.ofToken?]
  · simp [ht, Munch.ofToken?]

/-- The longest match at the front of a number with a fraction. -/
theorem munch_float {f : List Char} (hc : c.isDigit = true) (hr : ∀ d ∈ r, d.isDigit = true)
    (hf : ∀ d ∈ f, d.isDigit = true) (hne : f ≠ []) (hb : Boundary rest) :
    munch c (r ++ '.' :: f ++ rest) =
      .ofToken? (r ++ '.' :: f).length (floatToken? (c :: r) f 0) := by
  have he : exponentPart rest = (0, 0) := by
    cases rest with
    | nil => rfl
    | cons d rest =>
      have he : d ≠ 'e' := by rintro rfl; exact absurd hb.1 (by decide)
      have hE : d ≠ 'E' := by rintro rfl; exact absurd hb.1 (by decide)
      simp [exponentPart, he, hE]
  have hlen : (c :: r).length + f.length + 0 = (r ++ '.' :: f).length := by
    simp only [List.length_cons, List.length_append]
    omega
  rw [munch_digit hc, List.append_assoc, List.cons_append]
  unfold munchNumber
  rw [takeWhile_append_of_head hr (by simp), dropWhile_append_of_head hr (by simp)]
  simp only [takeWhile_append_of_head hf hb.head_isDigit,
    dropWhile_append_of_head hf hb.head_isDigit, he, hlen, List.isEmpty_iff, hne, if_false]

/-! ### Parameters -/

/-- The longest match at the front of a parameter. -/
theorem munch_param (hr : ∀ d ∈ r, d.isDigit = true) (hne : r ≠ []) (hb : Boundary rest)
    (ht : paramToken? r = some t) : munch '$' (r ++ rest) = ⟨r.length, .token t⟩ := by
  have h1 : isBlank '$' = false := by decide
  have h2 : isNameStart '$' = false := by decide
  have h3 : Char.isDigit '$' = false := by decide
  simp [munch, h1, h2, h3, takeWhile_append_of_head hr hb.head_isDigit, hne, ht, Munch.ofToken?]

/-! ### Strings -/

/-- The characters that have an escape in the expression language, or need none. -/
def Escapable (c : Char) : Prop := c.toNat < 0x20 → c = '\n' ∨ c = '\t'

instance (c : Char) : Decidable (Escapable c) := inferInstanceAs (Decidable (_ → _))

theorem stringBody_cons (h1 : c ≠ '"') (h2 : c ≠ '\\') (r : List Char) :
    stringBody (c :: r) = (c :: (stringBody r).1, (stringBody r).2) := by
  rw [stringBody.eq_def]
  split <;> simp_all

theorem stringBody_escape (h : c ≠ '\n') (r : List Char) :
    stringBody ('\\' :: c :: r) = ('\\' :: c :: (stringBody r).1, (stringBody r).2) := by
  rw [stringBody]
  exact h

theorem unescape?_cons (h : c ≠ '\\') (r : List Char) :
    unescape? (c :: r) = (unescape? r).map (c :: ·) := by
  rw [unescape?.eq_def]
  split <;> simp_all

theorem hexDigit_ne {n : Nat} (h : n < 16) :
    Script.hexDigit n ≠ '"' ∧ Script.hexDigit n ≠ '\\' := by
  revert n
  decide

/-- Reading the inside of a string literal passes over every character that was quoted. -/
theorem stringBody_quoteChar (c : Char) (r : List Char) :
    stringBody (Script.quoteChar c ++ r) =
      (Script.quoteChar c ++ (stringBody r).1, (stringBody r).2) := by
  unfold Script.quoteChar
  split
  · exact stringBody_escape (by decide) r
  · exact stringBody_escape (by decide) r
  · exact stringBody_escape (by decide) r
  · exact stringBody_escape (by decide) r
  · exact stringBody_escape (by decide) r
  · next h1 h2 _ _ _ =>
    split
    · next hlow =>
      obtain ⟨ha, ha'⟩ := hexDigit_ne (show c.toNat / 16 < 16 by omega)
      obtain ⟨hb, hb'⟩ := hexDigit_ne (show c.toNat % 16 < 16 by omega)
      simp only [List.cons_append, List.nil_append]
      rw [stringBody_escape (by decide), stringBody_cons (by decide) (by decide),
        stringBody_cons (by decide) (by decide), stringBody_cons ha ha', stringBody_cons hb hb']
    · exact stringBody_cons h1 h2 r

theorem stringBody_quote (cs rest : List Char) :
    stringBody (cs.flatMap Script.quoteChar ++ '"' :: rest) =
      (cs.flatMap Script.quoteChar, true) := by
  induction cs with
  | nil => rfl
  | cons c cs ih => rw [List.flatMap_cons, List.append_assoc, stringBody_quoteChar, ih]

theorem unescape?_quoteChar (h : Escapable c) (r : List Char) :
    unescape? (Script.quoteChar c ++ r) = (unescape? r).map (c :: ·) := by
  unfold Script.quoteChar
  split
  · cases hr : unescape? r <;> simp [unescape?, escapedChar?, hr]
  · cases hr : unescape? r <;> simp [unescape?, escapedChar?, hr]
  · cases hr : unescape? r <;> simp [unescape?, escapedChar?, hr]
  · -- a carriage return is quoted with an escape that the expression language lacks
    exact absurd (h (by decide)) (by decide)
  · cases hr : unescape? r <;> simp [unescape?, escapedChar?, hr]
  · next _ h2 h3 _ h5 =>
    split
    · next hlow => rcases h hlow with rfl | rfl <;> contradiction
    · exact unescape?_cons h2 r

theorem unescape?_quote {cs : List Char} (h : ∀ c ∈ cs, Escapable c) :
    unescape? (cs.flatMap Script.quoteChar) = some cs := by
  induction cs with
  | nil => rfl
  | cons c cs ih =>
    rw [List.flatMap_cons, unescape?_quoteChar (h c (by simp)), ih fun d hd => h d (by simp [hd])]
    rfl

/-- The longest match at the front of a quoted text, which is a token if all its escapes are known.
-/
theorem munch_quoted (cs rest : List Char) :
    munch '"' (cs.flatMap Script.quoteChar ++ ['"'] ++ rest) =
      .ofToken? (cs.flatMap Script.quoteChar ++ ['"']).length
        ((unescape? (cs.flatMap Script.quoteChar)).map (Token.str ∘ String.ofList)) := by
  have h1 : isBlank '"' = false := by decide
  have h2 : isNameStart '"' = false := by decide
  have h3 : Char.isDigit '"' = false := by decide
  simp [munch, h1, h2, h3, munchString, stringBody_quote]

theorem munch_quote {s : String} (h : ∀ c ∈ s.toList, Escapable c) :
    munch '"' (s.toList.flatMap Script.quoteChar ++ ['"'] ++ rest) =
      ⟨(s.toList.flatMap Script.quoteChar ++ ['"']).length, .token (.str s)⟩ := by
  rw [munch_quoted, unescape?_quote h, Option.map_some, Function.comp_apply, String.ofList_toList,
    Munch.ofToken?]

/-! ### Symbols -/

/-- A symbol that would be another one if an equals sign followed it. -/
def Symbol.Extends (s : Symbol) : Prop := s = .bang ∨ s = .less ∨ s = .greater

theorem munch_extends {s : Symbol} (h : s.Extends) (hrest : ∀ c ∈ rest.head?, c ≠ '=') :
    ∃ c, s.text.toList = [c] ∧ munch c rest = ⟨0, .token (.symbol s)⟩ := by
  cases rest with
  | nil => rcases h with rfl | rfl | rfl <;> exact ⟨_, rfl, rfl⟩
  | cons c rest =>
    have hc : c ≠ '=' := hrest c rfl
    rcases h with rfl | rfl | rfl
    · exact ⟨'!', rfl, by simp [munch, symbol?, isBlank, isNameStart, hc]; rfl⟩
    · exact ⟨'<', rfl, by simp [munch, symbol?, isBlank, isNameStart, hc]; rfl⟩
    · exact ⟨'>', rfl, by simp [munch, symbol?, isBlank, isNameStart, hc]; rfl⟩

/-- The longest match at the front of a symbol. -/
theorem munch_symbol (s : Symbol) (hrest : s.Extends → ∀ c ∈ rest.head?, c ≠ '=') :
    ∃ c r, s.text.toList = c :: r ∧ munch c (r ++ rest) = ⟨r.length, .token (.symbol s)⟩ := by
  by_cases hs : s.Extends
  · obtain ⟨c, hc, hm⟩ := munch_extends hs (hrest hs)
    exact ⟨c, [], hc, hm⟩
  · cases s with
    | bang | less | greater => exact absurd (by simp [Symbol.Extends]) hs
    | equal | notEqual | lessEqual | greaterEqual => exact ⟨_, ['='], rfl, rfl⟩
    | and => exact ⟨_, ['&'], rfl, rfl⟩
    | or => exact ⟨_, ['|'], rfl, rfl⟩
    | leftParen | rightParen | leftBracket | rightBracket | comma | dot | plus | minus | star
    | slash
    | percent => exact ⟨_, [], rfl, rfl⟩

/-- A symbol is taken off the front of a text. -/
theorem Lexes.symbol (h : Lexes rest ts) (s : Symbol)
    (hrest : s.Extends → ∀ c ∈ rest.head?, c ≠ '=') :
    Lexes (s.text.toList ++ rest) (.symbol s :: ts) := by
  obtain ⟨c, r, hcr, hm⟩ := munch_symbol s hrest
  rw [hcr]
  exact h.token_append hm

/-! ### Blanks -/

theorem munch_space (hrest : ∀ c ∈ rest.head?, isBlank c = false) :
    munch ' ' rest = ⟨0, .blank⟩ := by
  have ht : rest.takeWhile isBlank = [] := by
    simpa using takeWhile_append_of_head (r := []) (by simp) hrest
  rw [munch, ht]
  rfl

/-- A space before something that is no blank is passed over. -/
theorem Lexes.space (h : Lexes rest ts) (hrest : ∀ c ∈ rest.head?, isBlank c = false) :
    Lexes (' ' :: rest) ts :=
  .blank (munch_space hrest) h

end Dataflow
