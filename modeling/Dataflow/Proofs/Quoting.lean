import Dataflow.Json.Reading
import Dataflow.Script.Quote

/-!
# Quoted texts are read back

A string literal of the target language is a JSON string too. Reading one gives back the text that
was quoted and stops after the closing quote, whatever follows (`readStringChars_quote`). So
different texts are quoted differently.
-/

namespace Dataflow

open Script (quote quoteChar)

namespace Json

variable {c d : Char} {cs : List Char} {extra : Nat}

theorem readStringChars_cons (h : stringPiece c cs = .char d extra) :
    readStringChars (c :: cs) = (readStringChars (cs.drop extra)).map fun p => (d :: p.1, p.2) := by
  rw [readStringChars]
  simp only [h]
  cases readStringChars (cs.drop extra) <;> rfl

theorem hexDigit?_hexDigit {n : Nat} (h : n < 16) : hexDigit? (Script.hexDigit n) = some n := by
  revert n
  decide

theorem length_le_byteLength (cs : List Char) : cs.length ≤ byteLength cs := by
  induction cs with
  | nil => exact Nat.le_refl 0
  | cons c cs ih =>
    have hc : 0 < c.utf8Size := Char.utf8Size_pos c
    rw [byteLength_cons, List.length_cons]
    omega

/-- The escape of a control character stands for it. -/
theorem unicodePiece_hexDigit (hc : c.toNat < 0x20) (r : List Char) :
    unicodePiece
        ('0' :: '0' :: Script.hexDigit (c.toNat / 16) :: Script.hexDigit (c.toNat % 16) :: r) =
      .char c 5 := by
  have hlength :=
    length_le_byteLength ['0', '0', Script.hexDigit (c.toNat / 16), Script.hexDigit (c.toNat % 16)]
  have hlong :
      ¬byteLength ['0', '0', Script.hexDigit (c.toNat / 16), Script.hexDigit (c.toNat % 16)] < 4 :=
    Nat.not_lt.2 hlength
  have hzero : hexDigit? '0' = some 0 := by decide
  have hvalue : ((0 * 16 + 0) * 16 + c.toNat / 16) * 16 + c.toNat % 16 = c.toNat := by omega
  have hlow : isLowSurrogate c.toNat = false := by
    simp only [isLowSurrogate, Bool.and_eq_false_iff, decide_eq_false_iff_not]
    omega
  have hhigh : isHighSurrogate c.toNat = false := by
    simp only [isHighSurrogate, Bool.and_eq_false_iff, decide_eq_false_iff_not]
    omega
  have hquad :
      hexQuad
          ('0' :: '0' :: Script.hexDigit (c.toNat / 16) :: Script.hexDigit (c.toNat % 16) :: r) =
        .ok c.toNat := by
    simp only [hexQuad, List.take_succ_cons, List.take_zero, hlong, if_false, hzero,
      hexDigit?_hexDigit (show c.toNat / 16 < 16 by omega),
      hexDigit?_hexDigit (show c.toNat % 16 < 16 by omega), hvalue]
  simp only [unicodePiece, hquad, hlow, hhigh, Bool.false_eq_true, if_false, Char.ofNat_toNat]

theorem readStringChars_escape {r : List Char} (h : escapePiece (d :: r) = .char c 1) :
    readStringChars ('\\' :: d :: r) = (readStringChars r).map fun p => (c :: p.1, p.2) :=
  readStringChars_cons (show stringPiece '\\' (d :: r) = .char c 1 from h)

theorem readStringChars_control (hc : c.toNat < 0x20) (r : List Char) :
    readStringChars
      (['\\', 'u', '0', '0', Script.hexDigit (c.toNat / 16), Script.hexDigit (c.toNat % 16)] ++ r) =
      (readStringChars r).map fun p => (c :: p.1, p.2) := by
  have hpiece : stringPiece '\\' ('u' :: '0' :: '0' :: Script.hexDigit (c.toNat / 16) ::
      Script.hexDigit (c.toNat % 16) :: r) = .char c 5 := unicodePiece_hexDigit hc r
  exact readStringChars_cons hpiece

theorem readStringChars_plain (hquote : c ≠ '"') (hslash : c ≠ '\\') (hlow : ¬c.toNat < 0x20)
    (r : List Char) :
    readStringChars ([c] ++ r) = (readStringChars r).map fun p => (c :: p.1, p.2) := by
  have hpiece : stringPiece c r = .char c 0 := by
    simp only [stringPiece, beq_iff_eq]
    rw [if_neg hquote, if_neg hslash, if_neg hlow]
  exact readStringChars_cons hpiece

/-- Reading gets one character back, whichever way it was quoted. -/
theorem readStringChars_quoteChar (c : Char) (r : List Char) :
    readStringChars (quoteChar c ++ r) = (readStringChars r).map fun p => (c :: p.1, p.2) := by
  unfold quoteChar
  split
  · exact readStringChars_escape rfl
  · exact readStringChars_escape rfl
  · exact readStringChars_escape rfl
  · exact readStringChars_escape rfl
  · exact readStringChars_escape rfl
  · next hquote hslash _ _ _ =>
    split
    · next hlow => exact readStringChars_control hlow r
    · next hlow => exact readStringChars_plain hquote hslash hlow r

/-- A text that was written character by character is read back up to the quote that follows it. -/
theorem readStringChars_flatMap {write : Char → List Char}
    (h : ∀ c r, readStringChars (write c ++ r) = (readStringChars r).map fun p => (c :: p.1, p.2))
    (cs rest : List Char) : readStringChars (cs.flatMap write ++ '"' :: rest) = .ok (cs, rest) := by
  induction cs with
  | nil => simp [readStringChars, stringPiece]
  | cons c cs ih =>
    rw [List.flatMap_cons, List.append_assoc, h, ih]
    rfl

/-- Reading a quoted text from behind its opening quote gives it back, and stops after its closing
quote. -/
theorem readStringChars_quote (cs rest : List Char) :
    readStringChars (cs.flatMap quoteChar ++ '"' :: rest) = .ok (cs, rest) :=
  readStringChars_flatMap readStringChars_quoteChar cs rest

end Json

/-- Different texts are quoted differently. -/
theorem Script.quote_injective {s t : String} (h : quote s = quote t) : s = t := by
  have hchars := congrArg String.toList h
  simp only [quote, String.toList_ofList, List.cons_append, List.cons.injEq, true_and] at hchars
  have hread := congrArg Json.readStringChars hchars
  rw [Json.readStringChars_quote, Json.readStringChars_quote] at hread
  exact String.toList_inj.1 (congrArg Prod.fst (Except.ok.inj hread))

end Dataflow
