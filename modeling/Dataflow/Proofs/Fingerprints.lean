import Dataflow.Proofs.Quoting
import Dataflow.Provenance

/-!
# Fingerprints tell options apart

The options are hashed as one line in which nothing is escaped, so that a factory name may look like
the rest of the line. It can still be read in one way only, from its end: the line ends with two
fields, each of which is one of two texts, and neither of them is the end of the other
(`SuffixFree`). So different options have different lines (`Options.canonical_inj`).

Two options then have the same fingerprint only if SHA-256 has the same digest for two lines
(`Provenance.options_eq_iff`).
-/

namespace Dataflow

/-! ### Lines of options -/

/-- None of some texts is the end of another. -/
def SuffixFree {α : Type} (text : α → String) : Prop :=
  ∀ a b, (text a).toList <:+ (text b).toList → a = b

/-- What stands at the end of a line can be told from what is before it. -/
theorem SuffixFree.append_inj {α : Type} {text : α → String} (h : SuffixFree text) {s s' : String}
    {a a' : α} (heq : s ++ text a = s' ++ text a') : s = s' ∧ a = a' := by
  have hchars : s.toList ++ (text a).toList = s'.toList ++ (text a').toList := by
    rw [← String.toList_append, heq, String.toList_append]
  have hsuffix : (text a).toList <:+ s'.toList ++ (text a').toList := ⟨s.toList, hchars⟩
  obtain rfl : a = a' := by
    rcases List.suffix_or_suffix_of_suffix hsuffix (List.suffix_append _ _) with hend | hend
    · exact h a a' hend
    · exact (h a' a hend).symm
  exact ⟨String.toList_inj.1 (List.append_cancel_right hchars), rfl⟩

namespace Options

/-- The field for the format. -/
def formatField (format : ModuleFormat) : String := ";module=" ++ format.name

/-- The field for the comments. -/
def commentsField (comments : Bool) : String :=
  ";comments=" ++ (if comments then "true" else "false")

theorem suffixFree_formatField : SuffixFree formatField := by
  intro f f'
  cases f <;> cases f' <;> decide +kernel

theorem suffixFree_commentsField : SuffixFree commentsField := by
  intro c c'
  cases c <;> cases c' <;> decide +kernel

theorem canonical_eq (o : Options) :
    o.canonical = "factory=" ++ o.factory ++ formatField o.format ++ commentsField o.comments := by
  unfold canonical formatField commentsField
  simp only [String.append_assoc]

theorem canonical_inj {o o' : Options} : o.canonical = o'.canonical ↔ o = o' := by
  refine ⟨fun h => ?_, congrArg canonical⟩
  obtain ⟨factory, format, comments⟩ := o
  obtain ⟨factory', format', comments'⟩ := o'
  rw [canonical_eq, canonical_eq] at h
  obtain ⟨hline, rfl⟩ := suffixFree_commentsField.append_inj h
  obtain ⟨hname, rfl⟩ := suffixFree_formatField.append_inj hline
  have hchars := congrArg String.toList hname
  rw [String.toList_append, String.toList_append] at hchars
  obtain rfl : factory = factory' := String.toList_inj.1 (List.append_cancel_left hchars)
  rfl

end Options

/-! ### Digests -/

theorem toList_loop_eq_append (bytes : ByteArray) (i : Nat) (r : List UInt8) :
    ByteArray.toList.loop bytes i r = r.reverse ++ bytes.data.toList.drop i := by
  fun_induction ByteArray.toList.loop bytes i r with
  | case1 i r hlt ih =>
    have hsize : i < bytes.data.size := hlt
    rw [ih, List.drop_eq_getElem_cons (l := bytes.data.toList) hsize]
    simp [ByteArray.get!, getElem!_pos bytes.data i hsize]
  | case2 i r hge =>
    have hsize : bytes.data.toList.length ≤ i := Nat.le_of_not_lt hge
    rw [List.drop_eq_nil_of_le hsize, List.append_nil]

/-- Different texts have different bytes. -/
theorem toUTF8_toList_inj {s t : String} : s.toUTF8.toList = t.toUTF8.toList ↔ s = t := by
  refine ⟨fun h => ?_, congrArg fun text : String => text.toUTF8.toList⟩
  rw [ByteArray.toList, ByteArray.toList, toList_loop_eq_append, toList_loop_eq_append] at h
  exact String.toByteArray_inj.1 (ByteArray.ext (Array.toList_inj.1 h))

namespace Digest

/-- A digit stands for four bits. -/
theorem toNat_shiftRight_and (w shift : UInt32) :
    ((w >>> shift) &&& 15).toNat = (w.toNat >>> (shift.toNat % 32)) % 16 := by
  rw [UInt32.toNat_and, UInt32.toNat_shiftRight]
  exact Nat.and_two_pow_sub_one_eq_mod _ 4

theorem shiftRight_eq_of_digit {m n k : Nat} (hdigit : (m >>> k) % 16 = (n >>> k) % 16)
    (hrest : m >>> (k + 4) = n >>> (k + 4)) : m >>> k = n >>> k := by
  rw [Nat.shiftRight_add, Nat.shiftRight_add] at hrest
  omega

theorem wordHex_inj {w w' : UInt32} (h : wordHex w = wordHex w') : w = w' := by
  have hdigit : ∀ shift ∈ ([28, 24, 20, 16, 12, 8, 4, 0] : List UInt32),
      (w.toNat >>> (shift.toNat % 32)) % 16 = (w'.toNat >>> (shift.toNat % 32)) % 16 := by
    intro shift hshift
    have hread (v : UInt32) : Json.hexDigit? (Nat.digitChar ((v >>> shift) &&& 15).toNat) =
        some ((v.toNat >>> (shift.toNat % 32)) % 16) := by
      rw [toNat_shiftRight_and]
      exact Json.hexDigit?_hexDigit (Nat.mod_lt _ (by decide))
    have hchar := congrArg Json.hexDigit? (List.map_inj_left.1 h shift hshift)
    rwa [hread, hread, Option.some.injEq] at hchar
  simp only [List.forall_mem_cons, UInt32.reduceToNat, Nat.reduceMod] at hdigit
  obtain ⟨h28, h24, h20, h16, h12, h8, h4, h0, -⟩ := hdigit
  have hnone (v : UInt32) : v.toNat >>> 32 = 0 := Nat.shiftRight_eq_zero _ _ v.toNat_lt
  -- from the highest digit to the lowest
  have hhigh := shiftRight_eq_of_digit h16 (shiftRight_eq_of_digit h20 (shiftRight_eq_of_digit h24
    (shiftRight_eq_of_digit h28 ((hnone w).trans (hnone w').symm))))
  exact UInt32.toNat.inj
    (shiftRight_eq_of_digit h0 (shiftRight_eq_of_digit h4 (shiftRight_eq_of_digit h8
      (shiftRight_eq_of_digit h12 hhigh))))

theorem length_wordHex (w : UInt32) : (wordHex w).length = 8 := rfl

theorem flatMap_wordHex_inj {ws ws' : List UInt32} (h : ws.flatMap wordHex = ws'.flatMap wordHex) :
    ws = ws' := by
  induction ws generalizing ws' with
  | nil =>
    cases ws' with
    | nil => rfl
    | cons w' ws' => cases congrArg List.length h
  | cons w ws ih =>
    cases ws' with
    | nil => cases congrArg List.length h
    | cons w' ws' =>
      rw [List.flatMap_cons, List.flatMap_cons] at h
      obtain ⟨hword, hrest⟩ := List.append_inj h ((length_wordHex w).trans (length_wordHex w').symm)
      rw [wordHex_inj hword, ih hrest]

/-- Different digests are written differently. -/
theorem hex_inj {x y : Digest} : x.hex = y.hex ↔ x = y := by
  refine ⟨fun h => ?_, congrArg hex⟩
  have hwords : x.words = y.words := flatMap_wordHex_inj (String.ofList_injective h)
  cases x
  cases y
  simpa [words] using hwords

end Digest

/-- Two lists of bytes with the same digest. -/
def Sha256.Collision (m n : List UInt8) : Prop := m ≠ n ∧ digest m = digest n

/-- The bytes of which the fingerprint of some options is the digest. -/
def Options.bytes (o : Options) : List UInt8 := o.canonical.toUTF8.toList

theorem Options.bytes_inj {o o' : Options} : o.bytes = o'.bytes ↔ o = o' :=
  toUTF8_toList_inj.trans canonical_inj

/-- **Fingerprints tell options apart.** Whatever the factory names are, different options have
different lines. So the fingerprints of two options agree, as digests and as they are written, only
if the options are the same or their lines are a collision of SHA-256; the texts of the documents do
not matter. -/
theorem Provenance.options_eq_iff (source source' : String) (o o' : Options) :
    (o.canonical = o'.canonical ↔ o = o') ∧
    ((of source o).options = (of source' o').options ↔ o = o' ∨ Sha256.Collision o.bytes o'.bytes) ∧
    ((of source o).options.hex = (of source' o').options.hex ↔
      (of source o).options = (of source' o').options) := by
  refine ⟨Options.canonical_inj, ⟨fun h => ?_, ?_⟩, Digest.hex_inj⟩
  · by_cases ho : o = o'
    · exact .inl ho
    · exact .inr ⟨fun hbytes => ho (Options.bytes_inj.1 hbytes), h⟩
  · rintro (rfl | hcollision)
    · rfl
    · exact hcollision.2

end Dataflow
