import Mathlib.Data.List.TakeWhile
import Dataflow.Proofs.Decoding
import Dataflow.Proofs.Generation

/-!
# What the JSON reader accepts

Only texts of JSON values are read to their end (`exists_isText_of_read`), so a text that is decoded
to a document is the text of some value. Each part of the reader gives back the piece of text that
it took, in front of the rest that it left, and the piece is one that the grammar has.
-/

namespace Dataflow

namespace Json

variable {c d : Char} {cs ds rest : List Char} {n extra : Nat}

theorem exists_blank (cs : List Char) : ∃ b, Blank b ∧ cs = b ++ skipBlanks cs :=
  ⟨cs.takeWhile isBlank, fun _ hc => List.mem_takeWhile_imp hc,
    List.takeWhile_append_dropWhile.symm⟩

/-- What follows some blanks. -/
theorem exists_blank_cons {r : List Char} (h : skipBlanks cs = c :: r) :
    ∃ b, Blank b ∧ cs = b ++ c :: r := by
  obtain ⟨b, hb, hcs⟩ := exists_blank cs
  exact ⟨b, hb, by rw [← h]; exact hcs⟩

theorem Blank.append {b b' : List Char} (hb : Blank b) (hb' : Blank b') : Blank (b ++ b') :=
  List.forall_mem_append.2 ⟨hb, hb'⟩

/-! ### Strings -/

theorem hexDigit?_lt {x : Nat} (h : hexDigit? c = some x) : x < 16 := by
  unfold hexDigit? at h
  simp only [Char.isDigit, Char.le_def, UInt32.le_iff_toNat_le, Bool.and_eq_true, decide_eq_true_eq,
    ge_iff_le] at h
  have hvalue : c.toNat = c.val.toNat := rfl
  split at h
  · next hc =>
    obtain rfl := Option.some.inj h
    have hupper : c.val.toNat ≤ 57 := hc.2
    have hzero : '0'.toNat = 48 := rfl
    omega
  · split at h
    · next hc =>
      obtain rfl := Option.some.inj h
      have hupper : c.val.toNat ≤ 102 := hc.2
      have ha : 'a'.toNat = 97 := rfl
      omega
    · split at h
      · next hc =>
        obtain rfl := Option.some.inj h
        have hupper : c.val.toNat ≤ 70 := hc.2
        have hA : 'A'.toNat = 65 := rfl
        omega
      · cases h

theorem HexText.lt (h : HexText n ds) : n < 0x10000 := by
  cases h with
  | digits ha hb hc hd =>
    have hw := hexDigit?_lt ha
    have hx := hexDigit?_lt hb
    have hy := hexDigit?_lt hc
    have hz := hexDigit?_lt hd
    omega

theorem exists_hexText (h : hexQuad cs = .ok n) : ∃ ds r, HexText n ds ∧ cs = ds ++ r := by
  unfold hexQuad at h
  split at h
  · cases h
  · split at h
    · next a b c d r _ =>
      split at h
      · next ha hb hc hd =>
        obtain rfl := Except.ok.inj h
        exact ⟨[a, b, c, d], r, .digits ha hb hc hd, rfl⟩
      · cases h
    · cases h

theorem toNat_ofNat (h : n < 0xD800 ∨ 0xDFFF < n ∧ n < 0x110000) : (Char.ofNat n).toNat = n := by
  have hvalid : n.isValidChar := h
  rw [Char.ofNat, dif_pos hvalid]
  rfl

theorem isLowSurrogate_iff : isLowSurrogate n = true ↔ 0xDC00 ≤ n ∧ n ≤ 0xDFFF := by
  simp [isLowSurrogate]

theorem isHighSurrogate_iff : isHighSurrogate n = true ↔ 0xD800 ≤ n ∧ n ≤ 0xDBFF := by
  simp [isHighSurrogate]

/-- Two surrogates stand for the character that they are taken for. -/
theorem HexText.pair {m : Nat} {es : List Char} (hds : HexText n ds) (hes : HexText m es)
    (hn : isHighSurrogate n = true) (hm : isLowSurrogate m = true) :
    CharText (Char.ofNat (0x10000 + (n - 0xD800) * 0x400 + (m - 0xDC00)))
      ('\\' :: 'u' :: (ds ++ '\\' :: 'u' :: es)) := by
  rw [isHighSurrogate_iff] at hn
  rw [isLowSurrogate_iff] at hm
  generalize hx : 0x10000 + (n - 0xD800) * 0x400 + (m - 0xDC00) = x
  have hvalue : (Char.ofNat x).toNat = x := toNat_ofNat (by omega)
  have hhigh : 0xD800 + (x - 0x10000) / 0x400 = n := by omega
  have hlow : 0xDC00 + (x - 0x10000) % 0x400 = m := by omega
  refine .pair ?_ ?_ ?_
  · omega
  · rwa [hvalue, hhigh]
  · rwa [hvalue, hlow]

/-- The rest of an escape after `\u` is the number of a character or a pair of surrogates. -/
theorem exists_unicodeText (h : unicodePiece cs = .char c extra) :
    ∃ ts r, CharText c ('\\' :: 'u' :: ts) ∧ cs = ts ++ r ∧ ('u' :: cs).drop extra = r := by
  unfold unicodePiece at h
  split at h
  · cases h
  · next n hn =>
    obtain ⟨ds, r, hds, rfl⟩ := exists_hexText hn
    rw [hds.drop_append] at h
    split at h
    · cases h
    · next hlow =>
      split at h
      · next hhigh =>
        split at h
        · cases h
        · cases h
        · split at h
          · cases h
          · next m hm =>
            obtain ⟨es, r, hes, rfl⟩ := exists_hexText hm
            split at h
            · next hlow =>
              obtain ⟨rfl, rfl⟩ := StringPiece.char.inj h
              exact ⟨ds ++ '\\' :: 'u' :: es, r, hds.pair hes hhigh hlow, by simp,
                hds.drop_pair hes r⟩
            · cases h
        · cases h
      · next hhigh =>
        cases h
        rw [isLowSurrogate_iff] at hlow
        rw [isHighSurrogate_iff] at hhigh
        have hlt := hds.lt
        have hvalue : (Char.ofNat n).toNat = n := toNat_ofNat (by omega)
        exact ⟨ds, r, .unicode (by rwa [hvalue]), rfl, by rw [List.drop_succ_cons, hds.drop_append]⟩

theorem exists_escape (h : escaped? d = some c) : (d, c) ∈ escapes := by
  unfold escaped? at h
  split at h
  all_goals cases h
  all_goals decide

/-- One step inside a string takes one character in one of its texts. -/
theorem exists_charText (h : stringPiece c cs = .char d extra) :
    ∃ ts, CharText d ts ∧ c :: cs = ts ++ cs.drop extra := by
  unfold stringPiece at h
  simp only [beq_iff_eq] at h
  split at h
  · cases h
  · next hquote =>
    split at h
    · next hslash =>
      obtain rfl := hslash
      unfold escapePiece at h
      split at h
      · cases h
      · next cs =>
        obtain ⟨ts, r, hts, rfl, hdrop⟩ := exists_unicodeText h
        exact ⟨'\\' :: 'u' :: ts, hts, by rw [hdrop]; rfl⟩
      · next e r _ =>
        split at h
        · next he =>
          obtain ⟨rfl, rfl⟩ := StringPiece.char.inj h
          exact ⟨['\\', e], .escape (exists_escape he), rfl⟩
        · cases h
    · next hslash =>
      split at h
      · cases h
      · next hlow =>
        obtain ⟨rfl, rfl⟩ := StringPiece.char.inj h
        exact ⟨[c], .plain hquote hslash hlow, rfl⟩

theorem eq_quote_of_close (h : stringPiece c cs = .close) : c = '"' := by
  unfold stringPiece escapePiece unicodePiece at h
  grind

theorem exists_stringText (h : readStringChars cs = .ok (ds, rest)) :
    ∃ ts, StringText ds ts ∧ cs = ts ++ '"' :: rest := by
  fun_induction readStringChars cs generalizing ds with
  | case1 => cases h
  | case2 c cs hclose =>
    cases h
    exact ⟨[], .nil, by rw [eq_quote_of_close hclose]; rfl⟩
  | case3 => cases h
  | case4 c cs d extra hpiece ds' rest' hread ih =>
    cases h
    obtain ⟨ts, hts, hcs⟩ := exists_charText hpiece
    obtain ⟨us, hus, hdrop⟩ := ih hread
    exact ⟨ts ++ us, .cons hts hus, by rw [hcs, hdrop, List.append_assoc]⟩
  | case5 => cases h

theorem exists_stringText_of_readString {s : String} (h : readString cs = .ok (s, rest)) :
    ∃ ts, StringText s.toList ts ∧ cs = ts ++ '"' :: rest := by
  unfold readString at h
  split at h
  · next ds rest' hread =>
    cases h
    rw [String.toList_ofList]
    exact exists_stringText hread
  · cases h

/-! ### Numerals -/

theorem digits_of_readDigits (h : readDigits cs = .ok (ds, rest)) :
    Digits ds ∧ cs = ds ++ rest := by
  unfold readDigits at h
  split at h
  · cases h
  · next c r =>
    split at h
    · next hc =>
      cases h
      refine ⟨⟨?_, fun _ hd => List.mem_takeWhile_imp hd⟩, List.takeWhile_append_dropWhile.symm⟩
      simp [hc]
    · cases h

theorem exists_wholeText (h : readWhole cs = .ok (n, rest)) :
    ∃ ds, WholeText n ds ∧ cs = ds ++ rest := by
  unfold readWhole at h
  obtain ⟨⟨ds, r⟩, hread, hds⟩ := bind_eq_ok.1 h
  obtain ⟨hdigits, rfl⟩ := digits_of_readDigits hread
  simp only at hds
  split at hds
  · cases hds
  · next hzero =>
    cases hds
    exact ⟨ds, ⟨hdigits, fun d r hds => hzero d r hds, rfl⟩, rfl⟩

theorem digitChar_ofNat (hc : c.isDigit = true) :
    Nat.digitChar (Fin.ofNat 10 (c.toNat - '0'.toNat)).val = c := by
  simp only [Char.isDigit, Bool.and_eq_true, decide_eq_true_eq, ge_iff_le,
    UInt32.le_iff_toNat_le] at hc
  have hlower : 48 ≤ c.toNat := hc.1
  have hupper : c.toNat ≤ 57 := hc.2
  have hzero : '0'.toNat = 48 := rfl
  have hvalue : (Fin.ofNat 10 (c.toNat - '0'.toNat)).val = c.toNat - 48 := by
    rw [hzero]
    exact Nat.mod_eq_of_lt (by omega)
  apply Char.toNat_inj.1
  rw [hvalue, Nat.toNat_digitChar_of_lt_ten (by omega)]
  omega

theorem eq_append_of_readFraction {fs : List (Fin 10)} (h : readFraction cs = .ok (fs, rest)) :
    cs = fractionText fs ++ rest := by
  unfold readFraction at h
  split at h
  · obtain ⟨⟨ds, r⟩, hread, hds⟩ := bind_eq_ok.1 h
    obtain ⟨hdigits, rfl⟩ := digits_of_readDigits hread
    cases hds
    have hmap : (ds.map fun c => Nat.digitChar (Fin.ofNat 10 (c.toNat - '0'.toNat)).val) = ds :=
      (List.map_congr_left fun c hc => digitChar_ofNat (hdigits.isDigit c hc)).trans
        (List.map_id' ds)
    have hne : (ds.map fun c => Fin.ofNat 10 (c.toNat - '0'.toNat)).isEmpty = false := by
      simpa using hdigits.ne_nil
    simp only [fractionText, hne, Bool.false_eq_true, if_false, List.map_map, Function.comp_def,
      hmap, List.cons_append]
  · cases h
    rfl

theorem exists_exponentText {e : Option Int} (h : readExponent cs = .ok (e, rest)) :
    ∃ es, ExponentText e es ∧ cs = es ++ rest := by
  unfold readExponent at h
  split at h
  · cases h
    exact ⟨[], .none, rfl⟩
  · next c r =>
    split at h
    · next hmark =>
      have hc : c = 'e' ∨ c = 'E' := by simpa using hmark
      split at h
      all_goals
        obtain ⟨⟨ds, r⟩, hread, hds⟩ := bind_eq_ok.1 h
        obtain ⟨hdigits, rfl⟩ := digits_of_readDigits hread
        cases hds
      · exact ⟨c :: '-' :: ds, .minus hc hdigits, rfl⟩
      · exact ⟨c :: '+' :: ds, .plus hc hdigits, rfl⟩
      · exact ⟨c :: ds, .plain hc hdigits, rfl⟩
    · cases h
      exact ⟨[], .none, rfl⟩

theorem exists_unsignedText {negative : Bool} {x : Number}
    (h : readNumber negative cs = .ok (x, rest)) :
    ∃ n ts, n.negative = negative ∧ UnsignedText n ts ∧ cs = ts ++ rest := by
  unfold readNumber at h
  obtain ⟨⟨n, r⟩, hread, h⟩ := bind_eq_ok.1 h
  obtain rfl : r = rest := by
    simp only at h
    split at h
    · cases h
      rfl
    · cases h
  unfold readNumeral at hread
  obtain ⟨⟨whole, r₁⟩, hwhole, hread⟩ := bind_eq_ok.1 hread
  obtain ⟨⟨fraction, r₂⟩, hfraction, hread⟩ := bind_eq_ok.1 hread
  obtain ⟨⟨exponent, r₃⟩, hexponent, hread⟩ := bind_eq_ok.1 hread
  cases hread
  obtain ⟨ws, hws, rfl⟩ := exists_wholeText hwhole
  obtain rfl := eq_append_of_readFraction hfraction
  obtain ⟨es, hes, rfl⟩ := exists_exponentText hexponent
  exact ⟨⟨negative, whole, fraction, exponent⟩, _, rfl, .mk hws hes, by simp⟩

/-! ### Scalars -/

theorem eq_append_of_afterWord {ws : List Char} (h : afterWord ws cs = .ok rest) :
    cs = ws ++ rest := by
  fun_induction afterWord ws cs with
  | case1 => cases h; rfl
  | case2 => cases h
  | case3 w ws c cs hc ih => rw [ih h, eq_of_beq hc]; rfl
  | case4 => cases h

theorem exists_spells_of_readScalar {r : Reading} (h : readScalar c cs = (r, .ok rest)) :
    ∃ v ts, Spells v ts ∧ c :: cs = ts ++ rest := by
  have hword {v : Reading} {o : Rest} (h : word v o = (r, .ok rest)) : o = .ok rest := by
    cases o with
    | error => cases h
    | ok => exact (Prod.mk.inj h).2
  have hscalar {α : Type} {f : α → Reading} {o : Except Fault (α × List Char)}
      (h : scalar f o = (r, .ok rest)) :
      ∃ a, o = .ok (a, rest) := by
    cases o with
    | error => cases h
    | ok p =>
      obtain rfl : p.2 = rest := Except.ok.inj (Prod.mk.inj h).2
      exact ⟨p.1, rfl⟩
  unfold readScalar at h
  split at h
  · exact ⟨.null, _, .null, by rw [eq_append_of_afterWord (hword h)]; rfl⟩
  · exact ⟨.bool true, _, .trueWord, by rw [eq_append_of_afterWord (hword h)]; rfl⟩
  · exact ⟨.bool false, _, .falseWord, by rw [eq_append_of_afterWord (hword h)]; rfl⟩
  · obtain ⟨s, hs⟩ := hscalar h
    obtain ⟨ts, hts, rfl⟩ := exists_stringText_of_readString hs
    exact ⟨.string s, _, .string hts, by simp⟩
  · obtain ⟨x, hx⟩ := hscalar h
    obtain ⟨n, ts, hneg, hts, rfl⟩ := exists_unsignedText hx
    exact ⟨.number n, _, .number hts, by rw [hneg]; rfl⟩
  · split at h
    · obtain ⟨x, hx⟩ := hscalar h
      obtain ⟨n, ts, hneg, hts, heq⟩ := exists_unsignedText hx
      exact ⟨.number n, _, .number hts, by rw [hneg]; exact heq⟩
    · cases h

/-! ### Arrays and objects -/

/-- Whatever the reader `value` takes off the front of a text is a text of some value. -/
structure Accepts (value : List Char → Reading × Rest) : Prop where
  exists_spells : ∀ {cs rest : List Char} {r : Reading}, value cs = (r, .ok rest) →
    ∃ b v ts, Blank b ∧ Spells v ts ∧ cs = b ++ (ts ++ rest)

variable {value : List Char → Reading × Rest} {first : Bool}

theorem nextItem_eq_close (h : nextItem first cs = .close rest) :
    ∃ b, Blank b ∧ cs = b ++ ']' :: rest := by
  unfold nextItem at h
  split at h
  · cases h
  · next hskip =>
    cases h
    exact exists_blank_cons hskip
  · split at h
    · cases h
    · split at h
      · split at h <;> cases h
      · cases h

/-- An item stands behind blanks, and if it is not the first one behind a comma as well. -/
theorem nextItem_eq_item (h : nextItem first cs = .item ds) :
    ∃ b b', Blank b ∧ Blank b' ∧ cs = b ++ (if first then [] else [',']) ++ (b' ++ ds) := by
  unfold nextItem at h
  split at h
  · cases h
  · cases h
  · next c r _ hskip =>
    obtain ⟨b, hb, rfl⟩ := exists_blank_cons hskip
    split at h
    · next hfirst =>
      cases h
      exact ⟨b, [], hb, blank_nil, by simp [hfirst]⟩
    · next hfirst =>
      split at h
      · next hc =>
        obtain ⟨b', hb', hr⟩ := exists_blank r
        obtain rfl : skipBlanks r = ds := by
          split at h
          · cases h
          · cases h
          · exact NextItem.item.inj h
        refine ⟨b, b', hb, hb', ?_⟩
        rw [← hr, eq_of_beq hc]
        simp [hfirst]
      · cases h

/-- What the reader of items did, if it got to the closing bracket. -/
theorem readItems_eq_ok {rs : List Reading} (h : readItems value first cs = (rs, .ok rest)) :
    nextItem first cs = .close rest ∨ ∃ ds r rest' rs', nextItem first cs = .item ds ∧
    value ds = (r, .ok rest') ∧
      rest'.length < cs.length ∧ readItems value false rest' = (rs', .ok rest) := by
  rw [readItems] at h
  split at h
  · next hclose =>
    cases h
    exact .inl hclose
  · cases h
  · next ds hitem =>
    split at h
    · cases h
    · next r rest' hread =>
      split at h
      · next hlt =>
        refine .inr ⟨ds, r, rest', (readItems value false rest').1, hitem, hread, hlt, ?_⟩
        exact Prod.ext rfl (Prod.mk.inj h).2
      · cases h

theorem Accepts.exists_moreText (hvalue : Accepts value) {rs : List Reading}
    (h : readItems value false cs = (rs, .ok rest)) :
    ∃ vs ts, MoreText Spells vs ts ∧ cs = ts ++ ']' :: rest := by
  -- on the length of the text, as the reader recurs
  induction hlength : cs.length using Nat.strongRecOn generalizing cs rs with
  | ind k ih =>
    subst hlength
    obtain hclose | ⟨ds, r, rest', rs', hitem, hread, hlt, hmore⟩ := readItems_eq_ok h
    · obtain ⟨b, hb, rfl⟩ := nextItem_eq_close hclose
      exact ⟨[], b, .nil hb, rfl⟩
    · obtain ⟨b, b', hb, hb', hcs⟩ := nextItem_eq_item hitem
      obtain ⟨b'', v, ts, hb'', hv, rfl⟩ := hvalue.exists_spells hread
      obtain ⟨vs, us, hus, rfl⟩ := ih _ hlt hmore rfl
      exact ⟨v :: vs, _, .cons hb (hb'.append hb'') hv hus, by rw [hcs]; simp⟩

theorem Accepts.exists_listText (hvalue : Accepts value) {rs : List Reading}
    (h : readItems value true cs = (rs, .ok rest)) :
    ∃ vs ts, ListText Spells vs ts ∧ cs = ts ++ ']' :: rest := by
  obtain hclose | ⟨ds, r, rest', rs', hitem, hread, -, hmore⟩ := readItems_eq_ok h
  · obtain ⟨b, hb, rfl⟩ := nextItem_eq_close hclose
    exact ⟨[], b, .nil hb, rfl⟩
  · obtain ⟨b, b', hb, hb', hcs⟩ := nextItem_eq_item hitem
    obtain ⟨b'', v, ts, hb'', hv, rfl⟩ := hvalue.exists_spells hread
    obtain ⟨vs, us, hus, rfl⟩ := hvalue.exists_moreText hmore
    exact ⟨v :: vs, _, .cons ((hb.append hb').append hb'') hv hus, by rw [hcs]; simp⟩

theorem nextMember_eq_close (h : nextMember first cs = .close rest) :
    ∃ b, Blank b ∧ cs = b ++ '\x7d' :: rest := by
  unfold nextMember at h
  split at h
  · cases h
  · next hskip =>
    cases h
    exact exists_blank_cons hskip
  · split at h
    · split at h <;> cases h
    · split at h
      · split at h <;> cases h
      · cases h

/-- A name stands behind blanks, and if it is not the first one behind a comma as well. -/
theorem nextMember_eq_name (h : nextMember first cs = .name ds) :
    ∃ b b', Blank b ∧ Blank b' ∧ cs = b ++ (if first then [] else [',']) ++ (b' ++ '"' :: ds) := by
  unfold nextMember at h
  split at h
  · cases h
  · cases h
  · next c r _ hskip =>
    obtain ⟨b, hb, rfl⟩ := exists_blank_cons hskip
    split at h
    · next hfirst =>
      split at h
      · next hc =>
        cases h
        exact ⟨b, [], hb, blank_nil, by simp [hfirst, eq_of_beq hc]⟩
      · cases h
    · next hfirst =>
      split at h
      · next hc =>
        split at h
        · cases h
        · next hquote =>
          cases h
          obtain ⟨b', hb', rfl⟩ := exists_blank_cons hquote
          exact ⟨b, b', hb, hb', by simp [hfirst, eq_of_beq hc]⟩
        · cases h
        · cases h
      · cases h

theorem Accepts.exists_memberText (hvalue : Accepts value) {k : String} {r : Reading}
    {ds' : List Char} (hname : readString ds = .ok (k, ds'))
    (hread : readMemberValue value ds' = (r, .ok rest)) :
    ∃ v ts, MemberText Spells (k, v) ts ∧ '"' :: ds = ts ++ rest := by
  obtain ⟨ks, hks, rfl⟩ := exists_stringText_of_readString hname
  unfold readMemberValue at hread
  split at hread
  · cases hread
  · next hcolon =>
    obtain ⟨b, hb, rfl⟩ := exists_blank_cons hcolon
    obtain ⟨b', v, ts, hb', hv, rfl⟩ := hvalue.exists_spells hread
    exact ⟨v, _, .mk hks hb hb' hv, by simp⟩
  · cases hread

/-- What the reader of members did, if it got to the closing brace. -/
theorem readMembers_eq_ok {ms : List (String × Reading)}
    (h : readMembers value first cs = (ms, .ok rest)) :
    nextMember first cs = .close rest ∨ ∃ ds k ds' r rest' ms', nextMember first cs = .name ds ∧
      readString ds = .ok (k, ds') ∧ readMemberValue value ds' = (r, .ok rest') ∧
      rest'.length < cs.length ∧
      readMembers value false rest' = (ms', .ok rest) := by
  rw [readMembers] at h
  split at h
  · next hclose =>
    cases h
    exact .inl hclose
  · cases h
  · next ds hnext =>
    split at h
    · cases h
    · next k ds' hname =>
      split at h
      · cases h
      · next r rest' hread =>
        split at h
        · next hlt =>
          refine .inr ⟨ds, k, ds', r, rest', (readMembers value false rest').1, hnext, hname, hread,
            hlt, ?_⟩
          exact Prod.ext rfl (Prod.mk.inj h).2
        · cases h

theorem Accepts.exists_moreMembers (hvalue : Accepts value) {rs : List (String × Reading)}
    (h : readMembers value false cs = (rs, .ok rest)) :
    ∃ ms ts, MoreText (MemberText Spells) ms ts ∧ cs = ts ++ '\x7d' :: rest := by
  induction hlength : cs.length using Nat.strongRecOn generalizing cs rs with
  | ind k ih =>
    subst hlength
    obtain hclose | ⟨ds, k, ds', r, rest', rs', hnext, hname, hread, hlt, hmore⟩ :=
      readMembers_eq_ok h
    · obtain ⟨b, hb, rfl⟩ := nextMember_eq_close hclose
      exact ⟨[], b, .nil hb, rfl⟩
    · obtain ⟨b, b', hb, hb', hcs⟩ := nextMember_eq_name hnext
      obtain ⟨v, ts, hm, hds⟩ := hvalue.exists_memberText hname hread
      obtain ⟨ms, us, hus, rfl⟩ := ih _ hlt hmore rfl
      exact ⟨(k, v) :: ms, _, .cons hb hb' hm hus, by rw [hcs, hds]; simp⟩

theorem Accepts.exists_members (hvalue : Accepts value) {rs : List (String × Reading)}
    (h : readMembers value true cs = (rs, .ok rest)) :
    ∃ ms ts, ListText (MemberText Spells) ms ts ∧ cs = ts ++ '\x7d' :: rest := by
  obtain hclose | ⟨ds, k, ds', r, rest', rs', hnext, hname, hread, -, hmore⟩ := readMembers_eq_ok h
  · obtain ⟨b, hb, rfl⟩ := nextMember_eq_close hclose
    exact ⟨[], b, .nil hb, rfl⟩
  · obtain ⟨b, b', hb, hb', hcs⟩ := nextMember_eq_name hnext
    obtain ⟨v, ts, hm, hds⟩ := hvalue.exists_memberText hname hread
    obtain ⟨ms, us, hus, rfl⟩ := hvalue.exists_moreMembers hmore
    exact ⟨(k, v) :: ms, _, .cons (hb.append hb') hm hus, by rw [hcs, hds]; simp⟩

/-- One level of the reader, by what stands at the front of the text. -/
theorem accepts_level {depth : Nat} (ih : ∀ k, depth = k + 1 → Accepts (readValue k)) :
    Accepts (readValue depth) := by
  refine ⟨fun {cs rest r} h => ?_⟩
  unfold readValue at h
  split at h
  · cases h
  · cases h
  · cases h
  · next cs depth hskip =>
    obtain ⟨b, hb, rfl⟩ := exists_blank_cons hskip
    have hitems :
        readItems (readValue depth) true cs = ((readItems (readValue depth) true cs).1, .ok rest) :=
      Prod.ext rfl (Prod.mk.inj h).2
    obtain ⟨vs, ts, hvs, rfl⟩ := (ih depth rfl).exists_listText hitems
    exact ⟨b, .array vs, _, hb, .array hvs, by simp⟩
  · next cs depth hskip =>
    obtain ⟨b, hb, rfl⟩ := exists_blank_cons hskip
    have hmembers :
        readMembers (readValue depth) true cs =
          ((readMembers (readValue depth) true cs).1, .ok rest) :=
      Prod.ext rfl (Prod.mk.inj h).2
    obtain ⟨ms, ts, hms, rfl⟩ := (ih depth rfl).exists_members hmembers
    exact ⟨b, .object ms, _, hb, .object hms, by simp⟩
  · next hskip _ _ _ _ =>
    obtain ⟨b, hb, rfl⟩ := exists_blank_cons hskip
    obtain ⟨v, ts, hv, hcs⟩ := exists_spells_of_readScalar h
    exact ⟨b, v, ts, hb, hv, by rw [hcs]⟩

theorem accepts_readValue (depth : Nat) : Accepts (readValue depth) := by
  induction depth with
  | zero =>
    refine accepts_level fun k hk => ?_
    cases hk
  | succ depth ih =>
    refine accepts_level fun k hk => ?_
    cases hk
    exact ih

/-- A text that is read to its end is the text of some value. -/
theorem exists_isText_of_read {s : String} {r : Reading} (h : read s = (r, .ok rest))
    (hrest : skipBlanks rest = []) :
    ∃ v, IsText v s := by
  obtain ⟨b, v, ts, hb, hv, hs⟩ := (accepts_readValue depthLimit).exists_spells h
  obtain ⟨b', hb', heq⟩ := exists_blank rest
  rw [hrest, List.append_nil] at heq
  exact ⟨v, b, ts, b', hb, hv, hb', by rw [hs, heq]⟩

end Json

/-- A text that is decoded to a document is the text of some value. -/
theorem Document.exists_isText_of_decode {s : String} {d : Document} (h : decode s = .ok d) :
    ∃ v : Json, v.IsText s := by
  cases hread : Json.read s with
  | mk r o =>
    simp only [decode, hread] at h
    obtain ⟨_, -, hrest⟩ := bind_eq_ok.1 h
    obtain ⟨⟨⟩, hend, -⟩ := bind_eq_ok.1 hrest
    cases o with
    | error f => cases hend
    | ok rest =>
      rw [Decode.endOfText] at hend
      split at hend
      · next hblank => exact Json.exists_isText_of_read hread (List.isEmpty_iff.1 hblank)
      · cases hend

end Dataflow
