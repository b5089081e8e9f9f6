import Dataflow.Proofs.Quoting

/-!
# The texts of a JSON value

A JSON value can be written in many ways: with blanks between its parts, with one escape or another
for a character of a string, with a power of ten that has a sign, leading zeros or a capital mark.
`Spells v cs` says that `cs` is one of the texts of `v`, and `IsText v s` allows for blanks around
it. The compact text of a value is one of its texts (`isText_compact`).

The grammar has no say in how deep a value nests or how large its numbers are: these are limits of
the reader.
-/

namespace Dataflow

namespace Json

/-! ### Strings -/

/-- Nothing but blanks. -/
def Blank (cs : List Char) : Prop := ∀ c ∈ cs, isBlank c = true

/-- The letters that may follow a backslash, and the characters for which they stand. -/
def escapes : List (Char × Char) :=
  [('"', '"'), ('\\', '\\'), ('/', '/'), ('b', '\x08'), ('f', '\x0c'), ('n', '\n'), ('r', '\r'),
    ('t', '\t')]

/-- Four hexadecimal digits and the number that they make. -/
inductive HexText : Nat → List Char → Prop
  | digits {a b c d : Char} {w x y z : Nat} (ha : hexDigit? a = some w) (hb : hexDigit? b = some x)
      (hc : hexDigit? c = some y) (hd : hexDigit? d = some z) :
      HexText (((w * 16 + x) * 16 + y) * 16 + z) [a, b, c, d]

/-- The ways to write a character inside a string: as it is, with a letter that stands for it, by
its number, or as a pair of surrogates. -/
inductive CharText : Char → List Char → Prop
  | plain {c : Char} (hquote : c ≠ '"') (hslash : c ≠ '\\') (hlow : ¬c.toNat < 0x20) :
      CharText c [c]
  | escape {e c : Char} (h : (e, c) ∈ escapes) : CharText c ['\\', e]
  | unicode {c : Char} {ds : List Char} (h : HexText c.toNat ds) : CharText c ('\\' :: 'u' :: ds)
  | pair {c : Char} {ds es : List Char} (hc : 0x10000 ≤ c.toNat)
      (hds : HexText (0xD800 + (c.toNat - 0x10000) / 0x400) ds)
      (hes : HexText (0xDC00 + (c.toNat - 0x10000) % 0x400) es) :
      CharText c ('\\' :: 'u' :: (ds ++ '\\' :: 'u' :: es))

/-- The ways to write the characters of a string. -/
inductive StringText : List Char → List Char → Prop
  | nil : StringText [] []
  | cons {c : Char} {cs ts us : List Char} (hc : CharText c ts) (hcs : StringText cs us) :
      StringText (c :: cs) (ts ++ us)

/-! ### Numerals -/

/-- Digits, and at least one. -/
structure Digits (ds : List Char) : Prop where
  ne_nil : ds ≠ []
  isDigit : ∀ c ∈ ds, c.isDigit = true

/-- The digits before the point: no zero stands in front of another digit. -/
structure WholeText (n : Nat) (ds : List Char) : Prop where
  digits : Digits ds
  no_zero : ∀ d r, ds ≠ '0' :: d :: r
  value : Nat.ofDigitChars 10 ds 0 = n

/-- The digits after the point, with the point. -/
def fractionText (ds : List (Fin 10)) : List Char :=
  if ds.isEmpty then [] else '.' :: ds.map fun d => Nat.digitChar d.val

/-- The ways to write the power of ten. -/
inductive ExponentText : Option Int → List Char → Prop
  | none : ExponentText none []
  | plain {e : Char} {ds : List Char} (he : e = 'e' ∨ e = 'E') (hds : Digits ds) :
      ExponentText (some (Nat.ofDigitChars 10 ds 0)) (e :: ds)
  | plus {e : Char} {ds : List Char} (he : e = 'e' ∨ e = 'E') (hds : Digits ds) :
      ExponentText (some (Nat.ofDigitChars 10 ds 0)) (e :: '+' :: ds)
  | minus {e : Char} {ds : List Char} (he : e = 'e' ∨ e = 'E') (hds : Digits ds) :
      ExponentText (some (-(Nat.ofDigitChars 10 ds 0 : Int))) (e :: '-' :: ds)

/-- A numeral after its sign. -/
inductive UnsignedText (n : Numeral) : List Char → Prop
  | mk {ws es : List Char} (hws : WholeText n.whole ws) (hes : ExponentText n.exponent es) :
      UnsignedText n (ws ++ (fractionText n.fraction ++ es))

/-- The sign of a numeral. -/
def signText (negative : Bool) : List Char := if negative then ['-'] else []

/-! ### Values -/

section Lists

variable {α : Type}

/-- What may follow an item, up to the closing bracket: further items, each with a comma before it.
-/
inductive MoreText (P : α → List Char → Prop) : List α → List Char → Prop
  | nil {b : List Char} (hb : Blank b) : MoreText P [] b
  | cons {a : α} {as : List α} {b b' cs ds : List Char} (hb : Blank b) (hb' : Blank b')
      (ha : P a cs)
      (has : MoreText P as ds) : MoreText P (a :: as) (b ++ ',' :: (b' ++ (cs ++ ds)))

/-- What may stand between brackets. -/
inductive ListText (P : α → List Char → Prop) : List α → List Char → Prop
  | nil {b : List Char} (hb : Blank b) : ListText P [] b
  | cons {a : α} {as : List α} {b cs ds : List Char} (hb : Blank b) (ha : P a cs)
      (has : MoreText P as ds) :
      ListText P (a :: as) (b ++ (cs ++ ds))

end Lists

/-- A name, a colon and a value. -/
inductive MemberText (P : Json → List Char → Prop) : String × Json → List Char → Prop
  | mk {k : String} {v : Json} {ks b b' cs : List Char} (hk : StringText k.toList ks) (hb : Blank b)
      (hb' : Blank b')
      (hv : P v cs) : MemberText P (k, v) ('"' :: (ks ++ '"' :: (b ++ ':' :: (b' ++ cs))))

/-- `Spells v cs`: `cs` is a text of the value `v`, with no blanks around it. -/
inductive Spells : Json → List Char → Prop
  | null : Spells null ['n', 'u', 'l', 'l']
  | falseWord : Spells (bool false) ['f', 'a', 'l', 's', 'e']
  | trueWord : Spells (bool true) ['t', 'r', 'u', 'e']
  | number {n : Numeral} {cs : List Char} (h : UnsignedText n cs) :
      Spells (number n) (signText n.negative ++ cs)
  | string {s : String} {cs : List Char} (h : StringText s.toList cs) :
      Spells (string s) ('"' :: (cs ++ ['"']))
  | array {vs : List Json} {cs : List Char} (h : ListText Spells vs cs) :
      Spells (array vs) ('[' :: (cs ++ [']']))
  | object {ms : List (String × Json)} {cs : List Char} (h : ListText (MemberText Spells) ms cs) :
      Spells (object ms) ('\x7b' :: (cs ++ ['\x7d']))

/-- `IsText v s`: `s` is a text of the value `v`, with any blanks around it. -/
def IsText (v : Json) (s : String) : Prop :=
  ∃ b cs b', Blank b ∧ Spells v cs ∧ Blank b' ∧ s.toList = b ++ (cs ++ b')

/-! ### The compact text -/

theorem blank_nil : Blank [] := List.forall_mem_nil _

/-- A control character is written by its number. -/
theorem charText_control {c : Char} (h : c.toNat < 0x20) :
    CharText c
      ['\\', 'u', '0', '0', Script.hexDigit (c.toNat / 16), Script.hexDigit (c.toNat % 16)] := by
  have hvalue : ((0 * 16 + 0) * 16 + c.toNat / 16) * 16 + c.toNat % 16 = c.toNat := by omega
  have hzero : hexDigit? '0' = some 0 := by decide
  have hhex := HexText.digits hzero hzero (hexDigit?_hexDigit (show c.toNat / 16 < 16 by omega))
    (hexDigit?_hexDigit (show c.toNat % 16 < 16 by omega))
  rw [hvalue] at hhex
  exact .unicode hhex

theorem charText_stringChar (c : Char) : CharText c (stringChar c) := by
  unfold stringChar
  split
  · exact .escape (by decide)
  · exact .escape (by decide)
  · exact .escape (by decide)
  · exact .escape (by decide)
  · exact .escape (by decide)
  · exact .escape (by decide)
  · exact .escape (by decide)
  · next hquote hslash _ _ _ _ _ =>
    split
    · next hlow => exact charText_control hlow
    · next hlow => exact .plain hquote hslash hlow

/-- A string is written by writing its characters. -/
theorem stringText_flatMap {write : Char → List Char} (h : ∀ c, CharText c (write c))
    (cs : List Char) :
    StringText cs (cs.flatMap write) := by
  induction cs with
  | nil => exact .nil
  | cons c cs ih => exact .cons (h c) ih

theorem digits_toDigits (n : Nat) : Digits (Nat.toDigits 10 n) :=
  ⟨Nat.toDigits_ne_nil, fun _ hc => Nat.isDigit_of_mem_toDigits (by decide) (by decide) hc⟩

/-- No zero stands in front of the other digits of a number. -/
theorem toDigits_ne_zero_cons (n : Nat) (d : Char) (ds : List Char) :
    Nat.toDigits 10 n ≠ '0' :: d :: ds := by
  induction n using Nat.strongRecOn generalizing d ds with
  | ind n ih =>
    rw [Nat.toDigits_eq_if (by decide)]
    split
    · simp
    · next hn =>
      intro h
      have hlt : n / 10 < n := by omega
      have hpos : 0 < n / 10 := by omega
      cases hq : Nat.toDigits 10 (n / 10) with
      | nil => exact Nat.toDigits_ne_nil hq
      | cons c cs =>
        rw [hq, List.cons_append, List.cons.injEq] at h
        obtain ⟨rfl, -⟩ := h
        cases cs with
        | cons c cs => exact ih _ hlt c cs hq
        | nil =>
          have hvalue : Nat.ofDigitChars 10 (Nat.toDigits 10 (n / 10)) 0 = n / 10 :=
            Nat.ofDigitChars_ten_toDigits
          rw [hq] at hvalue
          have hzero : Nat.ofDigitChars 10 ['0'] 0 = 0 := by decide
          omega

theorem exponentText_natAbs (e : Int) :
    ExponentText (some e) ('e' :: ((if e < 0 then ['-'] else []) ++ Nat.toDigits 10 e.natAbs)) := by
  split
  · next hneg =>
    have hvalue : -(Nat.ofDigitChars 10 (Nat.toDigits 10 e.natAbs) 0 : Int) = e := by
      rw [Nat.ofDigitChars_ten_toDigits]
      omega
    have htext := ExponentText.minus (.inl rfl) (digits_toDigits e.natAbs)
    rwa [hvalue] at htext
  · next hpos =>
    have hvalue : (Nat.ofDigitChars 10 (Nat.toDigits 10 e.natAbs) 0 : Int) = e := by
      rw [Nat.ofDigitChars_ten_toDigits]
      omega
    have htext := ExponentText.plain (.inl rfl) (digits_toDigits e.natAbs)
    rwa [hvalue] at htext

theorem spells_text (n : Numeral) : Spells (number n) n.text := by
  have hwhole : WholeText n.whole (Nat.toDigits 10 n.whole) :=
    ⟨digits_toDigits _, toDigits_ne_zero_cons _, Nat.ofDigitChars_ten_toDigits⟩
  obtain ⟨es, hes, htext⟩ : ∃ es, ExponentText n.exponent es ∧
      n.text =
        signText n.negative ++ (Nat.toDigits 10 n.whole ++ (fractionText n.fraction ++ es)) := by
    cases he : n.exponent with
    | none => exact ⟨[], .none, by simp [Numeral.text, he, signText, fractionText]⟩
    | some e => exact ⟨_, exponentText_natAbs e, by simp [Numeral.text, he, signText, fractionText]⟩
  rw [htext]
  exact .number (.mk hwhole hes)

/-- Items that are written without blanks, with commas between them. -/
theorem moreText_flatMap {α : Type} {P : α → List Char → Prop} {write : α → List Char} {as : List α}
    (h : ∀ a ∈ as, P a (write a)) : MoreText P as (as.flatMap fun a => ',' :: write a) := by
  induction as with
  | nil => exact .nil blank_nil
  | cons a as ih =>
    rw [List.forall_mem_cons] at h
    exact .cons blank_nil blank_nil h.1 (ih h.2)

/-- A member without blanks. -/
def memberChars (m : String × Json) : List Char := stringText m.1 ++ ':' :: m.2.compactChars

theorem compactItems_cons (v : Json) (vs : List Json) :
    compactItems (v :: vs) = v.compactChars ++ vs.flatMap fun w => ',' :: w.compactChars := by
  induction vs generalizing v with
  | nil => simp [compactItems]
  | cons w vs ih => simp [compactItems, ih]

theorem compactMembers_cons (m : String × Json) (ms : List (String × Json)) :
    compactMembers (m :: ms) = memberChars m ++ ms.flatMap fun m => ',' :: memberChars m := by
  induction ms generalizing m with
  | nil => simp [compactMembers, memberChars]
  | cons m ms ih => simp [compactMembers, ih, memberChars]

theorem listText_compactItems {vs : List Json} (h : ∀ v ∈ vs, Spells v v.compactChars) :
    ListText Spells vs (compactItems vs) := by
  cases vs with
  | nil =>
    rw [compactItems]
    exact .nil blank_nil
  | cons v vs =>
    rw [List.forall_mem_cons] at h
    rw [compactItems_cons]
    exact .cons blank_nil h.1 (moreText_flatMap h.2)

theorem memberText_memberChars {m : String × Json} (h : Spells m.2 m.2.compactChars) :
    MemberText Spells m (memberChars m) := by
  have htext : memberChars m =
      '"' :: (m.1.toList.flatMap stringChar ++ '"' :: ([] ++ ':' :: ([] ++ m.2.compactChars))) := by
    simp [memberChars, stringText]
  rw [htext]
  exact .mk (stringText_flatMap charText_stringChar _) blank_nil blank_nil h

theorem listText_compactMembers {ms : List (String × Json)}
    (h : ∀ m ∈ ms, Spells m.2 m.2.compactChars) :
    ListText (MemberText Spells) ms (compactMembers ms) := by
  cases ms with
  | nil =>
    rw [compactMembers]
    exact .nil blank_nil
  | cons m ms =>
    rw [List.forall_mem_cons] at h
    rw [compactMembers_cons]
    exact .cons blank_nil (memberText_memberChars h.1)
      (moreText_flatMap fun m hm => memberText_memberChars (h.2 m hm))

theorem spells_compactChars (v : Json) : Spells v v.compactChars := by
  cases v with
  | null =>
    rw [compactChars]
    exact .null
  | bool b =>
    cases b with
    | false =>
      rw [compactChars]
      exact .falseWord
    | true =>
      rw [compactChars]
      exact .trueWord
  | number n =>
    rw [compactChars]
    exact spells_text n
  | string s =>
    rw [compactChars, stringText]
    exact .string (stringText_flatMap charText_stringChar _)
  | array vs =>
    rw [compactChars]
    exact .array (listText_compactItems fun v _ => spells_compactChars v)
  | object ms =>
    rw [compactChars]
    exact .object (listText_compactMembers fun m _ => spells_compactChars m.2)
termination_by sizeOf v
decreasing_by
  · have hlt : sizeOf v < sizeOf vs := List.sizeOf_lt_of_mem ‹_›
    simp only [array.sizeOf_spec]
    omega
  · have hlt : sizeOf m < sizeOf ms := List.sizeOf_lt_of_mem ‹_›
    have hvalue : sizeOf m.2 < sizeOf m := by
      obtain ⟨k, v⟩ := m
      simp only [Prod.mk.sizeOf_spec]
      omega
    simp only [object.sizeOf_spec]
    omega

/-- The compact text of a value is one of its texts. -/
theorem isText_compact (v : Json) : IsText v v.compact :=
  ⟨[], v.compactChars, [], blank_nil, spells_compactChars v, blank_nil, by simp [compact]⟩

end Json

end Dataflow
