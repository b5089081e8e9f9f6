import Dataflow.Proofs.Lexing
import Dataflow.Proofs.Spelling

/-!
# JSON texts are read back

Every text of a JSON value is read as this value (`IsText.read`), however deep its arrays and
objects nest up to the limit of the reader, and with every character that a string may hold. In the
texts of other values a fault is found.

* `Json.reading` is what a reader makes of a value: the numerals are replaced by what they are
  worth.
* `Json.Legible` says what a value must keep to: the limit for its depth, and numerals that are
  worth something.
* `Json.Settles` is the result of reading, which hangs on whether the value is legible.

Each lemma has a general text behind what is read. Only a numeral could run into that text, so
`Stops` says that it does not go on with one.
-/

namespace Dataflow

namespace Json

/-! ### What a value is read as -/

mutual

/-- What a reader makes of a value. -/
def reading : Json → Reading
  | null => .null
  | bool b => .bool b
  | number n => n.number?.elim (.broken .numberOutOfRange) .number
  | string s => .string s
  | array items => .array (readings items) .closed
  | object members => .object (memberReadings members) .closed

/-- What a reader makes of the items of an array. -/
def readings : List Json → List Reading
  | [] => []
  | v :: vs => v.reading :: readings vs

/-- What a reader makes of the members of an object. -/
def memberReadings : List (String × Json) → List (String × Reading)
  | [] => []
  | (k, v) :: ms => (k, v.reading) :: memberReadings ms

end

/-- `Legible depth v`: the arrays and objects of a value nest at most `depth` deep, and its numerals
are worth something. -/
def Legible : Nat → Json → Prop
  | _, null | _, bool _ | _, string _ => True
  | _, number n => n.number?.isSome = true
  | 0, array _ | 0, object _ => False
  | depth + 1, array items => ∀ v ∈ items, Legible depth v
  | depth + 1, object members => ∀ m ∈ members, Legible depth m.2

theorem readings_eq (vs : List Json) : readings vs = vs.map reading := by
  induction vs with
  | nil => rw [readings, List.map_nil]
  | cons v vs ih => rw [readings, ih, List.map_cons]

theorem memberReadings_eq (ms : List (String × Json)) :
    memberReadings ms = ms.map fun m => (m.1, m.2.reading) := by
  induction ms with
  | nil => rw [memberReadings, List.map_nil]
  | cons m ms ih => rw [memberReadings, ih, List.map_cons]

/-- A text that does not go on with a numeral. -/
def Stops (rest : List Char) : Prop :=
  ∀ c ∈ rest.head?, c.isDigit = false ∧ c ≠ '.' ∧ c ≠ 'e' ∧ c ≠ 'E'

theorem stops_nil : Stops [] := by simp [Stops]

theorem stops_cons {c : Char} (hc : c ∈ [' ', '\n', '\t', '\r', ',', ']', '\x7d'])
    (rest : List Char) :
    Stops (c :: rest) := by
  intro d hd
  cases hd
  simp only [List.mem_cons, List.not_mem_nil, or_false] at hc
  rcases hc with rfl | rfl | rfl | rfl | rfl | rfl | rfl <;> decide

theorem isBlank_iff {c : Char} : isBlank c = true ↔ c ∈ [' ', '\n', '\t', '\r'] := by
  simp [isBlank, or_assoc]

/-- A numeral ends at a blank. -/
theorem Blank.stops {b rest : List Char} (hb : Blank b) (h : Stops rest) : Stops (b ++ rest) := by
  cases b with
  | nil => exact h
  | cons c b =>
    have hc := isBlank_iff.1 (hb c List.mem_cons_self)
    exact stops_cons (List.mem_append_left [',', ']', '\x7d'] hc) (b ++ rest)

/-! ### Numerals -/

variable {rest : List Char}

theorem readDigits_append {ds : List Char} (hds : ∀ c ∈ ds, c.isDigit = true) (hne : ds ≠ [])
    (hrest : ∀ c ∈ rest.head?, c.isDigit = false) : readDigits (ds ++ rest) = .ok (ds, rest) := by
  cases ds with
  | nil => exact absurd rfl hne
  | cons d ds =>
    have hd : d.isDigit = true := hds d List.mem_cons_self
    rw [List.cons_append, readDigits, if_pos hd, ← List.cons_append,
      takeWhile_append_of_head hds hrest, dropWhile_append_of_head hds hrest]

theorem readWhole_append {n : Nat} {ds : List Char} (h : WholeText n ds)
    (hrest : ∀ c ∈ rest.head?, c.isDigit = false) : readWhole (ds ++ rest) = .ok (n, rest) := by
  have hread := readDigits_append h.digits.isDigit h.digits.ne_nil hrest
  simp only [readWhole, hread, bind, Except.bind]
  split
  · exact absurd rfl (h.no_zero _ _)
  · rw [h.value]

theorem digit_digitChar (d : Fin 10) :
    (Nat.digitChar d.val).isDigit = true ∧
    Fin.ofNat 10 ((Nat.digitChar d.val).toNat - '0'.toNat) = d := by
  revert d
  decide

theorem readFraction_append (ds : List (Fin 10))
    (hrest : ∀ c ∈ rest.head?, c.isDigit = false ∧ c ≠ '.') :
    readFraction (fractionText ds ++ rest) = .ok (ds, rest) := by
  unfold fractionText
  split
  · next hempty =>
    obtain rfl : ds = [] := List.isEmpty_iff.1 hempty
    unfold readFraction
    split
    · next cs h =>
      obtain rfl : rest = '.' :: cs := h
      exact absurd rfl (hrest '.' rfl).2
    · rfl
  · next hne =>
    have hdigits : ∀ c ∈ ds.map fun d => Nat.digitChar d.val, c.isDigit = true := by
      intro c hc
      obtain ⟨d, -, rfl⟩ := List.mem_map.1 hc
      exact (digit_digitChar d).1
    have hread := readDigits_append hdigits (by simpa using hne) fun c hc => (hrest c hc).1
    simp only [List.cons_append, readFraction, hread, bind, Except.bind, List.map_map,
      Function.comp_def, (digit_digitChar _).2, List.map_id']

/-- A digit is no sign. -/
theorem ne_sign_of_isDigit {c : Char} (h : c.isDigit = true) : c ≠ '-' ∧ c ≠ '+' := by
  constructor
  · rintro rfl
    revert h
    decide
  · rintro rfl
    revert h
    decide

theorem readExponent_append {e : Option Int} {es : List Char} (h : ExponentText e es)
    (hrest : Stops rest) :
    readExponent (es ++ rest) = .ok (e, rest) := by
  have hread {ds : List Char} (hds : Digits ds) : readDigits (ds ++ rest) = .ok (ds, rest) :=
    readDigits_append hds.isDigit hds.ne_nil fun c hc => (hrest c hc).1
  have hmark {c : Char} (hc : c = 'e' ∨ c = 'E') : (c == 'e' || c == 'E') = true := by
    simpa using hc
  cases h with
  | none =>
    cases rest with
    | nil => rfl
    | cons c cs =>
      obtain ⟨-, -, he, hE⟩ := hrest c rfl
      simp [readExponent, he, hE]
  | plain he hds =>
    rename_i ds
    -- no sign: the first character is a digit
    cases ds with
    | nil => exact absurd rfl hds.ne_nil
    | cons d ds =>
      obtain ⟨hminus, hplus⟩ := ne_sign_of_isDigit (hds.isDigit d List.mem_cons_self)
      have hdigits := hread hds
      rw [List.cons_append] at hdigits
      simp only [List.cons_append, readExponent, hmark he, if_true]
      split
      · next r h => exact absurd (List.cons.inj h).1 hminus
      · next r h => exact absurd (List.cons.inj h).1 hplus
      · simp only [hdigits, bind, Except.bind]
  | plus he hds =>
    simp only [List.cons_append, readExponent, hmark he, if_true, hread hds, bind, Except.bind]
  | minus he hds =>
    simp only [List.cons_append, readExponent, hmark he, if_true, hread hds, bind, Except.bind]

/-- A numeral is read back from behind its sign. -/
theorem readNumeral_append {n : Numeral} {cs : List Char} (h : UnsignedText n cs)
    (hrest : Stops rest) :
    readNumeral n.negative (cs ++ rest) = .ok (n, rest) := by
  cases h with
  | @mk ws es hws hes =>
    have hexponent : ∀ c ∈ (es ++ rest).head?, c.isDigit = false ∧ c ≠ '.' := by
      have hmark {c : Char} (hc : c = 'e' ∨ c = 'E') : c.isDigit = false ∧ c ≠ '.' := by
        rcases hc with rfl | rfl <;> decide
      intro c hc
      generalize n.exponent = e at hes
      cases hes with
      | none => exact ⟨(hrest c hc).1, (hrest c hc).2.1⟩
      | plain he | plus he | minus he =>
        cases hc
        exact hmark he
    have hfraction : ∀ c ∈ (fractionText n.fraction ++ (es ++ rest)).head?, c.isDigit = false := by
      intro c hc
      unfold fractionText at hc
      split at hc
      · exact (hexponent c hc).1
      · cases hc
        decide
    simp only [readNumeral, List.append_assoc, readWhole_append hws hfraction,
      readFraction_append n.fraction hexponent, readExponent_append hes hrest, bind, Except.bind]

/-! ### Strings -/

theorem hexQuad_append {n : Nat} {ds : List Char} (h : HexText n ds) (r : List Char) :
    hexQuad (ds ++ r) = .ok n := by
  cases h with
  | @digits a b c d w x y z ha hb hc hd =>
    have hlong : ¬byteLength [a, b, c, d] < 4 := Nat.not_lt.2 (length_le_byteLength [a, b, c, d])
    simp only [hexQuad, List.cons_append, List.nil_append, List.take_succ_cons, List.take_zero,
      hlong, if_false, ha, hb, hc, hd]

theorem HexText.drop_append {n : Nat} {ds : List Char} (h : HexText n ds) (r : List Char) :
    (ds ++ r).drop 4 = r := by
  cases h
  rfl

theorem HexText.drop_pair {n m : Nat} {ds es : List Char} (hds : HexText n ds) (hes : HexText m es)
    (r : List Char) :
    ('u' :: (ds ++ '\\' :: 'u' :: (es ++ r))).drop 11 = r := by
  cases hds
  cases hes
  rfl

/-- The number of a character is no surrogate. -/
theorem isSurrogate_toNat (c : Char) :
    isLowSurrogate c.toNat = false ∧ isHighSurrogate c.toNat = false := by
  have hvalid : c.toNat < 0xD800 ∨ 0xDFFF < c.toNat ∧ c.toNat < 0x110000 := c.valid
  simp only [isLowSurrogate, isHighSurrogate, Bool.and_eq_false_iff, decide_eq_false_iff_not]
  omega

theorem unicodePiece_append {c : Char} {ds : List Char} (h : HexText c.toNat ds) (r : List Char) :
    unicodePiece (ds ++ r) = .char c 5 := by
  obtain ⟨hlow, hhigh⟩ := isSurrogate_toNat c
  simp only [unicodePiece, hexQuad_append h, hlow, hhigh, Bool.false_eq_true, if_false,
    Char.ofNat_toNat]

theorem unicodePiece_pair {c : Char} {ds es : List Char} (hc : 0x10000 ≤ c.toNat)
    (hds : HexText (0xD800 + (c.toNat - 0x10000) / 0x400) ds)
    (hes : HexText (0xDC00 + (c.toNat - 0x10000) % 0x400) es) (r : List Char) :
    unicodePiece (ds ++ '\\' :: 'u' :: (es ++ r)) = .char c 11 := by
  have hbound : c.toNat < 0x110000 := by
    have hvalid : c.toNat < 0xD800 ∨ 0xDFFF < c.toNat ∧ c.toNat < 0x110000 := c.valid
    omega
  generalize hhigh : 0xD800 + (c.toNat - 0x10000) / 0x400 = n at hds
  generalize hlow : 0xDC00 + (c.toNat - 0x10000) % 0x400 = m at hes
  have hn : isLowSurrogate n = false ∧ isHighSurrogate n = true := by
    simp only [isLowSurrogate, isHighSurrogate, Bool.and_eq_false_iff, Bool.and_eq_true,
      decide_eq_false_iff_not, decide_eq_true_eq]
    omega
  have hm : isLowSurrogate m = true := by
    simp only [isLowSurrogate, Bool.and_eq_true, decide_eq_true_eq]
    omega
  have hvalue : 0x10000 + (n - 0xD800) * 0x400 + (m - 0xDC00) = c.toNat := by omega
  simp only [unicodePiece, hexQuad_append hds, hn.1, hn.2, Bool.false_eq_true, if_false, if_true,
    hds.drop_append, hexQuad_append hes, hm, hvalue, Char.ofNat_toNat]

theorem CharText.readStringChars_append {c : Char} {ts : List Char} (h : CharText c ts)
    (r : List Char) :
    readStringChars (ts ++ r) = (readStringChars r).map fun p => (c :: p.1, p.2) := by
  cases h with
  | plain hquote hslash hlow => exact readStringChars_plain hquote hslash hlow r
  | @escape e _ he =>
    simp only [escapes, List.mem_cons, Prod.mk.injEq, List.not_mem_nil, or_false] at he
    rcases he with ⟨rfl, rfl⟩ | ⟨rfl, rfl⟩ | ⟨rfl, rfl⟩ | ⟨rfl, rfl⟩ | ⟨rfl, rfl⟩ | ⟨rfl, rfl⟩ |
      ⟨rfl, rfl⟩ | ⟨rfl, rfl⟩
    all_goals exact readStringChars_escape rfl
  | @unicode _ ds hds =>
    have hpiece : stringPiece '\\' ('u' :: (ds ++ r)) = .char c 5 := unicodePiece_append hds r
    rw [List.cons_append, List.cons_append, readStringChars_cons hpiece, List.drop_succ_cons,
      hds.drop_append]
  | @pair _ ds es hc hds hes =>
    have hpiece : stringPiece '\\' ('u' :: (ds ++ '\\' :: 'u' :: (es ++ r))) = .char c 11 :=
      unicodePiece_pair hc hds hes r
    have happend : '\\' :: 'u' :: (ds ++ '\\' :: 'u' :: es) ++ r =
        '\\' :: 'u' :: (ds ++ '\\' :: 'u' :: (es ++ r)) := by simp
    rw [happend, readStringChars_cons hpiece, hds.drop_pair hes]

/-- A string is read back from behind its opening quote, and the reader stops after its closing
quote. -/
theorem StringText.readString_append {s : String} {ts : List Char} (h : StringText s.toList ts)
    (rest : List Char) :
    readString (ts ++ '"' :: rest) = .ok (s, rest) := by
  have hchars {cs ts : List Char} (h : StringText cs ts) :
      readStringChars (ts ++ '"' :: rest) = .ok (cs, rest) := by
    induction h with
    | nil => simp [readStringChars, stringPiece]
    | cons hc _ ih =>
      rw [List.append_assoc, hc.readStringChars_append, ih]
      rfl
  rw [readString, hchars h]
  simp only [String.ofList_toList]

/-! ### Results of reading -/

/-- `Settles p out a rest`: if `p` holds, a reader has got `a` and goes on with `rest`; if not, it
has met a fault. -/
structure Settles {α : Type} (p : Prop) (out : α × Rest) (a : α) (rest : List Char) : Prop where
  ok : p → out = (a, .ok rest)
  fault : ¬p → ∃ b f, out = (b, .error f)

theorem Settles.of_eq {α : Type} {p : Prop} {out : α × Rest} {a : α} (hp : p)
    (h : out = (a, .ok rest)) :
    Settles p out a rest :=
  ⟨fun _ => h, fun hnot => absurd hp hnot⟩

/-- `Reads value P`: the reader `value` takes the texts of values with `P` off the front of a text,
finds faults in the texts of other values, and passes over blanks. -/
structure Reads (value : List Char → Reading × Rest) (P : Json → Prop) : Prop where
  settles : ∀ {v : Json} {cs rest : List Char}, Spells v cs → Stops rest →
    Settles (P v) (value (cs ++ rest)) v.reading rest
  blanks : ∀ {b : List Char} (cs : List Char), Blank b → value (b ++ cs) = value cs

/-! ### Scalars -/

theorem skipBlanks_cons {c : Char} (h : isBlank c = false) (cs : List Char) :
    skipBlanks (c :: cs) = c :: cs := by
  simp [skipBlanks, h]

theorem Blank.skipBlanks_append {b : List Char} (hb : Blank b) (cs : List Char) :
    skipBlanks (b ++ cs) = skipBlanks cs :=
  List.dropWhile_append_of_pos hb

/-- A digit starts nothing but a numeral. -/
theorem not_mem_of_isDigit {c : Char} {ds : List Char} (h : c.isDigit = true)
    (hds : ds.all (!·.isDigit) = true) :
    c ∉ ds := by
  intro hc
  have hd := List.all_eq_true.1 hds c hc
  rw [h] at hd
  cases hd

theorem isBlank_of_not_mem {c : Char} (h : c ∉ [' ', '\n', '\t', '\r']) : isBlank c = false := by
  rw [← Bool.not_eq_true, isBlank_iff]
  exact h

theorem UnsignedText.exists_cons {n : Numeral} {cs : List Char} (h : UnsignedText n cs) :
    ∃ c r, cs = c :: r ∧ c.isDigit = true := by
  cases h with
  | mk hws _ =>
    obtain ⟨c, r, rfl⟩ := List.exists_cons_of_ne_nil hws.digits.ne_nil
    exact ⟨c, _, rfl, hws.digits.isDigit c List.mem_cons_self⟩

/-- A value starts with no blank and no bracket that closes an array. -/
theorem Spells.exists_cons {v : Json} {cs : List Char} (h : Spells v cs) :
    ∃ c r, cs = c :: r ∧ c ∉ [' ', '\n', '\t', '\r'] ∧ c ≠ ']' := by
  cases h with
  | null | falseWord | trueWord | string | array | object => exact ⟨_, _, rfl, by decide, by decide⟩
  | @number n cs h =>
    cases hneg : n.negative with
    | true => exact ⟨'-', _, rfl, by decide, by decide⟩
    | false =>
      obtain ⟨c, r, hcr, hc⟩ := h.exists_cons
      have hdigit : c ∉ [' ', '\n', '\t', '\r', ']'] := not_mem_of_isDigit hc (by decide)
      simp only [List.mem_cons, not_or] at hdigit
      exact ⟨c, r, hcr, by simp [hdigit], hdigit.2.2.2.2.1⟩

theorem readValue_scalar {c : Char} (hb : c ∉ [' ', '\n', '\t', '\r']) (harray : c ≠ '[')
    (hobject : c ≠ '\x7b') (depth : Nat) (cs : List Char) :
    readValue depth (c :: cs) = readScalar c cs := by
  unfold readValue
  rw [skipBlanks_cons (isBlank_of_not_mem hb)]
  cases depth <;> simp_all

theorem readScalar_digit {c : Char} (hc : c.isDigit = true) (cs : List Char) :
    readScalar c cs = scalar .number (readNumber false (c :: cs)) := by
  have hne : c ∉ ['n', 't', 'f', '"', '-'] := not_mem_of_isDigit hc (by decide)
  unfold readScalar
  split <;> simp_all

/-- The reader of a numeral behind its sign is chosen by its first character. -/
theorem readValue_number (depth : Nat) {n : Numeral} {cs : List Char} (h : UnsignedText n cs) :
    readValue depth (signText n.negative ++ cs ++ rest) =
      scalar .number (readNumber n.negative (cs ++ rest)) := by
  cases n.negative with
  | true => exact readValue_scalar (by decide) (by decide) (by decide) depth _
  | false =>
    obtain ⟨c, r, rfl, hc⟩ := h.exists_cons
    have hne : c ∉ [' ', '\n', '\t', '\r', '[', '\x7b'] := not_mem_of_isDigit hc (by decide)
    simp only [List.mem_cons, not_or] at hne
    exact (readValue_scalar (by simp [hne]) hne.2.2.2.2.1 hne.2.2.2.2.2.1 depth _).trans
      (readScalar_digit hc _)

theorem settles_number (depth : Nat) {n : Numeral} {cs : List Char} (h : UnsignedText n cs)
    (hrest : Stops rest) :
    Settles (n.number?.isSome = true) (readValue depth (signText n.negative ++ cs ++ rest))
    (number n).reading
      rest := by
  rw [readValue_number depth h, reading]
  simp only [readNumber, readNumeral_append h hrest, bind, Except.bind]
  cases n.number? with
  | some x => exact .of_eq rfl rfl
  | none => exact ⟨fun hsome => (Bool.noConfusion hsome), fun _ => ⟨_, _, rfl⟩⟩

theorem settles_string (depth : Nat) {s : String} {cs : List Char} (h : StringText s.toList cs) :
    Settles True (readValue depth ('"' :: (cs ++ ['"']) ++ rest)) (string s).reading rest := by
  have htext : '"' :: (cs ++ ['"']) ++ rest = '"' :: (cs ++ '"' :: rest) := by simp
  rw [htext, readValue_scalar (by decide) (by decide) (by decide), reading]
  refine .of_eq trivial ?_
  simp only [readScalar, h.readString_append, scalar]

/-! ### Arrays -/

variable {value : List Char → Reading × Rest} {P : Json → Prop}

/-- An item is read where it starts. -/
theorem settles_item {first : Bool} {cs ws tail : List Char} {r : Reading} {rs : List Reading}
    {p q : Prop} (hnext : nextItem first cs = .item (ws ++ tail))
    (hlength : tail.length < cs.length) (hitem : Settles p (value (ws ++ tail)) r tail)
    (hmore : Settles q (readItems value false tail) rs rest) :
    Settles (p ∧ q) (readItems value first cs) (r :: rs) rest := by
  rw [readItems, hnext]
  by_cases hp : p
  · simp only [hitem.ok hp, if_pos hlength]
    refine ⟨fun hpq => by simp only [hmore.ok hpq.2], fun hpq => ?_⟩
    obtain ⟨bs, f, hf⟩ := hmore.fault fun hq => hpq ⟨hp, hq⟩
    exact ⟨r :: bs, f, by simp only [hf]⟩
  · obtain ⟨b, f, hf⟩ := hitem.fault hp
    exact ⟨fun hpq => absurd hpq.1 hp, fun _ => ⟨[b], f, by simp only [hf]⟩⟩

theorem Spells.nextItem_append {v : Json} {cs : List Char} (h : Spells v cs) {b : List Char}
    (hb : Blank b) (tail : List Char) :
    nextItem true (b ++ (cs ++ tail)) = .item (cs ++ tail) ∧
      ∀ {b'}, Blank b' →
      nextItem false (b' ++ ',' :: (b ++ (cs ++ tail))) = .item (cs ++ tail) := by
  obtain ⟨c, r, rfl, hc, hbracket⟩ := h.exists_cons
  have hskip : skipBlanks (b ++ c :: (r ++ tail)) = c :: (r ++ tail) := by
    rw [hb.skipBlanks_append, skipBlanks_cons (isBlank_of_not_mem hc)]
  rw [List.cons_append]
  constructor
  · simp [nextItem, hskip]
  · intro b' hb'
    have hcomma :
        skipBlanks (b' ++ ',' :: (b ++ c :: (r ++ tail))) = ',' :: (b ++ c :: (r ++ tail)) := by
      rw [hb'.skipBlanks_append, skipBlanks_cons (by decide)]
    simp [nextItem, hcomma, hskip, hbracket]

theorem nextItem_close {b : List Char} (hb : Blank b) (first : Bool) (rest : List Char) :
    nextItem first (b ++ ']' :: rest) = .close rest := by
  rw [nextItem, hb.skipBlanks_append, skipBlanks_cons (by decide)]
  rfl

/-- Items are followed by a blank, a comma or the bracket. -/
theorem MoreText.stops {α : Type} {Q : α → List Char → Prop} {as : List α} {ds : List Char}
    (h : MoreText Q as ds) {c : Char} (hc : c ∈ [' ', '\n', '\t', '\r', ',', ']', '\x7d'])
    (rest : List Char) : Stops (ds ++ c :: rest) := by
  cases h with
  | nil hb => exact hb.stops (stops_cons hc rest)
  | cons hb =>
    rw [List.append_assoc]
    exact hb.stops (stops_cons (by decide) _)

theorem settles_closed {b : List Char} (hb : Blank b) (first : Bool) :
    Settles (∀ v ∈ [], P v) (readItems value first (b ++ ']' :: rest)) [] rest := by
  refine .of_eq (List.forall_mem_nil P) ?_
  rw [readItems, nextItem_close hb]

theorem Reads.settles_more (hvalue : Reads value P) {vs : List Json} {ds : List Char}
    (h : MoreText Spells vs ds) (rest : List Char) :
    Settles (∀ v ∈ vs, P v) (readItems value false (ds ++ ']' :: rest)) (vs.map reading) rest := by
  induction h with
  | nil hb => exact settles_closed hb false
  | @cons v vs b b' cs ds hb hb' hv hvs ih =>
    have htext :
        b ++ ',' :: (b' ++ (cs ++ ds)) ++ ']' :: rest =
          b ++ ',' :: (b' ++ (cs ++ (ds ++ ']' :: rest))) := by
      simp
    rw [htext, List.forall_mem_cons]
    refine settles_item ((hv.nextItem_append hb' _).2 hb) ?_
      (hvalue.settles hv (hvs.stops (by decide) rest)) ih
    simp only [List.length_append, List.length_cons]
    omega

/-- The items of an array are read up to its bracket. -/
theorem Reads.settles_items (hvalue : Reads value P) {vs : List Json} {cs : List Char}
    (h : ListText Spells vs cs) (rest : List Char) :
    Settles (∀ v ∈ vs, P v) (readItems value true (cs ++ ']' :: rest)) (vs.map reading) rest := by
  cases h with
  | nil hb => exact settles_closed hb true
  | @cons v vs b cs ds hb hv hvs =>
    have htext : b ++ (cs ++ ds) ++ ']' :: rest = b ++ (cs ++ (ds ++ ']' :: rest)) := by simp
    rw [htext, List.forall_mem_cons]
    refine settles_item (hv.nextItem_append hb _).1 ?_
      (hvalue.settles hv (hvs.stops (by decide) rest))
      (hvalue.settles_more hvs rest)
    obtain ⟨c, r, rfl, -⟩ := hv.exists_cons
    simp only [List.length_append, List.length_cons]
    omega

/-! ### Objects -/

/-- A member is read from behind the opening quote of its name. -/
theorem settles_member {first : Bool} {cs ks b ws tail : List Char} {k : String} {r : Reading}
    {ms : List (String × Reading)} {p q : Prop} (hb : Blank b)
    (hnext : nextMember first cs = .name (ks ++ '"' :: (b ++ ':' :: (ws ++ tail))))
    (hlength : tail.length < cs.length) (hk : StringText k.toList ks)
    (hmember : Settles p (value (ws ++ tail)) r tail)
    (hmore : Settles q (readMembers value false tail) ms rest) :
    Settles (p ∧ q) (readMembers value first cs) ((k, r) :: ms) rest := by
  have hvalue : readMemberValue value (b ++ ':' :: (ws ++ tail)) = value (ws ++ tail) := by
    rw [readMemberValue, hb.skipBlanks_append, skipBlanks_cons (by decide)]
    rfl
  rw [readMembers, hnext]
  simp only [hk.readString_append, hvalue]
  by_cases hp : p
  · simp only [hmember.ok hp, if_pos hlength]
    refine ⟨fun hpq => by simp only [hmore.ok hpq.2], fun hpq => ?_⟩
    obtain ⟨ms', f, hf⟩ := hmore.fault fun hq => hpq ⟨hp, hq⟩
    exact ⟨(k, r) :: ms', f, by simp only [hf]⟩
  · obtain ⟨r', f, hf⟩ := hmember.fault hp
    exact ⟨fun hpq => absurd hpq.1 hp, fun _ => ⟨[(k, r')], f, by simp only [hf]⟩⟩

theorem nextMember_append {b : List Char} (hb : Blank b) (tail : List Char) :
    nextMember true (b ++ '"' :: tail) = .name tail ∧
      ∀ {b'}, Blank b' → nextMember false (b' ++ ',' :: (b ++ '"' :: tail)) = .name tail := by
  have hskip : skipBlanks (b ++ '"' :: tail) = '"' :: tail := by
    rw [hb.skipBlanks_append, skipBlanks_cons (by decide)]
  constructor
  · simp [nextMember, hskip]
  · intro b' hb'
    have hcomma : skipBlanks (b' ++ ',' :: (b ++ '"' :: tail)) = ',' :: (b ++ '"' :: tail) := by
      rw [hb'.skipBlanks_append, skipBlanks_cons (by decide)]
    simp [nextMember, hcomma, hskip]

theorem settles_closed_members {b : List Char} (hb : Blank b) (first : Bool) :
    Settles (∀ m ∈ ([] : List (String × Json)), P m.2)
    (readMembers value first (b ++ '\x7d' :: rest)) [] rest := by
  refine .of_eq (List.forall_mem_nil _) ?_
  rw [readMembers, nextMember, hb.skipBlanks_append, skipBlanks_cons (by decide)]
  rfl

theorem Reads.settles_moreMembers (hvalue : Reads value P) {ms : List (String × Json)}
    {ds : List Char} (h : MoreText (MemberText Spells) ms ds) (rest : List Char) :
    Settles (∀ m ∈ ms, P m.2) (readMembers value false (ds ++ '\x7d' :: rest))
      (ms.map fun m => (m.1, m.2.reading)) rest := by
  induction h with
  | nil hb => exact settles_closed_members hb false
  | @cons m ms b b' cs ds hb hb' hm hms ih =>
    cases hm with
    | @mk k v ks c c' ws hk hc hc' hv =>
      have htext :
          b ++ ',' :: (b' ++ ('"' :: (ks ++ '"' :: (c ++ ':' :: (c' ++ ws))) ++ ds)) ++
            '\x7d' :: rest =
          b ++ ',' :: (b' ++
            '"' :: (ks ++ '"' :: (c ++ ':' :: ((c' ++ ws) ++ (ds ++ '\x7d' :: rest))))) := by
        simp
      have hread :
          Settles (P v) (value ((c' ++ ws) ++ (ds ++ '\x7d' :: rest))) v.reading
            (ds ++ '\x7d' :: rest) := by
        rw [List.append_assoc, hvalue.blanks _ hc']
        exact hvalue.settles hv (hms.stops (by decide) rest)
      rw [htext, List.forall_mem_cons]
      refine settles_member hc ((nextMember_append hb' _).2 hb) ?_ hk hread ih
      simp only [List.length_append, List.length_cons]
      omega

/-- The members of an object are read up to its brace. -/
theorem Reads.settles_members (hvalue : Reads value P) {ms : List (String × Json)} {cs : List Char}
    (h : ListText (MemberText Spells) ms cs) (rest : List Char) :
    Settles (∀ m ∈ ms, P m.2) (readMembers value true (cs ++ '\x7d' :: rest))
      (ms.map fun m => (m.1, m.2.reading)) rest := by
  cases h with
  | nil hb => exact settles_closed_members hb true
  | @cons m ms b cs ds hb hm hms =>
    cases hm with
    | @mk k v ks c c' ws hk hc hc' hv =>
      have htext : b ++ ('"' :: (ks ++ '"' :: (c ++ ':' :: (c' ++ ws))) ++ ds) ++ '\x7d' :: rest =
          b ++ '"' :: (ks ++ '"' :: (c ++ ':' :: ((c' ++ ws) ++ (ds ++ '\x7d' :: rest)))) := by simp
      have hread :
          Settles (P v) (value ((c' ++ ws) ++ (ds ++ '\x7d' :: rest))) v.reading
            (ds ++ '\x7d' :: rest) := by
        rw [List.append_assoc, hvalue.blanks _ hc']
        exact hvalue.settles hv (hms.stops (by decide) rest)
      rw [htext, List.forall_mem_cons]
      refine settles_member hc (nextMember_append hb _).1 ?_ hk hread
        (hvalue.settles_moreMembers hms rest)
      simp only [List.length_append, List.length_cons]
      omega

/-! ### Values -/

theorem settles_array {depth : Nat} {cs : List Char} {items : List Reading} {p : Prop}
    (h : Settles p (readItems (readValue depth) true cs) items rest) :
    Settles p (readValue (depth + 1) ('[' :: cs)) (.array items .closed) rest := by
  unfold readValue
  rw [skipBlanks_cons (by decide)]
  refine ⟨fun hp => by simp only [h.ok hp, Ending.ofRest], fun hp => ?_⟩
  obtain ⟨bs, f, hf⟩ := h.fault hp
  exact ⟨.array bs (.fault f), f, by simp only [hf, Ending.ofRest]⟩

theorem settles_object {depth : Nat} {cs : List Char} {members : List (String × Reading)} {p : Prop}
    (h : Settles p (readMembers (readValue depth) true cs) members rest) :
    Settles p (readValue (depth + 1) ('\x7b' :: cs)) (.object members .closed) rest := by
  unfold readValue
  rw [skipBlanks_cons (by decide)]
  refine ⟨fun hp => by simp only [h.ok hp, Ending.ofRest], fun hp => ?_⟩
  obtain ⟨bs, f, hf⟩ := h.fault hp
  exact ⟨.object bs (.fault f), f, by simp only [hf, Ending.ofRest]⟩

theorem readValue_blanks (depth : Nat) {b : List Char} (cs : List Char) (hb : Blank b) :
    readValue depth (b ++ cs) = readValue depth cs := by
  unfold readValue
  rw [hb.skipBlanks_append]

/-- A scalar is read at every depth. -/
theorem settles_scalar (depth : Nat) {v : Json} {cs : List Char} (h : Spells v cs)
    (harray : ∀ vs, v ≠ array vs) (hobject : ∀ ms, v ≠ object ms) (hrest : Stops rest) :
    Settles (v.Legible depth) (readValue depth (cs ++ rest)) v.reading rest := by
  cases h with
  | null | falseWord | trueWord =>
    rw [reading]
    refine .of_eq (by simp [Legible]) ?_
    exact readValue_scalar (by decide) (by decide) (by decide) depth _
  | number h => simpa only [Legible] using settles_number depth h hrest
  | string h => simpa only [Legible] using settles_string depth h
  | array => exact absurd rfl (harray _)
  | object => exact absurd rfl (hobject _)

/-- The texts of legible values are read back, whatever follows that does not go on with a numeral.
-/
theorem reads_readValue (depth : Nat) : Reads (readValue depth) (Legible depth) := by
  -- on the depth, as the reader recurs: what an array or object holds is legible one level deeper
  induction depth with
  | zero =>
    refine ⟨fun {v cs rest} h hrest => ?_, readValue_blanks 0⟩
    cases v with
    | null | bool | number | string => exact settles_scalar 0 h (by simp) (by simp) hrest
    | array | object =>
      cases h
      refine ⟨fun hlegible => (by cases hlegible), fun _ => ⟨.broken .tooDeep, .tooDeep, ?_⟩⟩
      unfold readValue
      rw [List.cons_append, skipBlanks_cons (by decide)]
      rfl
  | succ depth ih =>
    refine ⟨fun {v cs rest} h hrest => ?_, readValue_blanks _⟩
    cases v with
    | null | bool | number | string => exact settles_scalar _ h (by simp) (by simp) hrest
    | array vs =>
      cases h with
      | array h =>
        rw [reading, readings_eq, List.cons_append, List.append_assoc]
        exact settles_array (ih.settles_items h rest)
    | object ms =>
      cases h with
      | object h =>
        rw [reading, memberReadings_eq, List.cons_append, List.append_assoc]
        exact settles_object (ih.settles_members h rest)

/-- A text of a legible value is read as this value, up to the blanks at its end. In the text of
another value a fault is found. -/
theorem IsText.read {v : Json} {s : String} (h : v.IsText s) :
    ∃ b, Blank b ∧ Settles (v.Legible depthLimit) (read s) v.reading b := by
  obtain ⟨b, cs, b', hb, hv, hb', hs⟩ := h
  refine ⟨b', hb', ?_⟩
  have hstops : Stops b' := by
    rw [← List.append_nil b']
    exact hb'.stops stops_nil
  rw [Json.read, hs, readValue_blanks _ _ hb]
  exact (reads_readValue depthLimit).settles hv hstops

end Json

end Dataflow
