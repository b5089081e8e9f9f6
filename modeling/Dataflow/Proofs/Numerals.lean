import Dataflow.Proofs.Matching

/-!
# Longest numbers and parameters

A parameter is a mark and digits. A number is digits, and a fraction if a point and a digit follow;
after the fraction comes an exponent if a mark, perhaps a sign, and a digit follow. Where a point or
a mark has no digit behind it, the number ends before it. So `exponentPart` and `munchNumber` reach
at least as far as any text of the pattern that stands at the same place, and what they take has the
pattern itself.
-/

namespace Dataflow

variable {c : Char} {r u : List Char}

/-! ### Parameters -/

theorem takeWhile_mem_digits (h : r.takeWhile Char.isDigit ≠ []) :
    r.takeWhile Char.isDigit ∈ Pattern.digits :=
  Pattern.mem_digits.2 ⟨h, List.all_eq_true.1 List.all_takeWhile⟩

theorem paramToken?_eq_some {ds : List Char} {t : Token} (h : paramToken? ds = some t) :
    ∃ i, t = .param i ∧ decimal ds < 2 ^ 32 ∧ i.toNat = decimal ds := by
  unfold paramToken? at h
  rw [digitsValue_eq_decimal] at h
  split_ifs at h with hlt
  cases h
  exact ⟨_, rfl, hlt, UInt32.toNat_ofNat_of_lt' hlt⟩

theorem paramToken?_eq_none {ds : List Char} (h : paramToken? ds = none) : 2 ^ 32 ≤ decimal ds := by
  unfold paramToken? at h
  rw [digitsValue_eq_decimal] at h
  split_ifs at h with hlt
  exact Nat.le_of_not_lt hlt

theorem Matches.param (h : Matches ('$' :: u)) : u ∈ Pattern.digits := h.shape

/-- A parameter reaches as far as digits do. -/
theorem fits_param (h : r.takeWhile Char.isDigit ≠ []) :
    (Munch.ofToken? (r.takeWhile Char.isDigit).length (paramToken? (r.takeWhile Char.isDigit))).Fits
      '$' r := by
  have htake : r.take (r.takeWhile Char.isDigit).length = r.takeWhile Char.isDigit :=
    take_length_takeWhile _ r
  have hds := takeWhile_mem_digits h
  have hmem : '$' :: r.takeWhile Char.isDigit ∈ Pattern.param := Pattern.mem_param.2 ⟨_, hds, rfl⟩
  apply fits_ofToken? (by decide)
  · apply longest_take
    · rw [htake]
      exact ⟨.param 0, hmem⟩
    · rintro u rest rfl hmatch
      exact length_le_takeWhile (Pattern.mem_digits.1 hmatch.param).2 rest
  · intro t ht
    obtain ⟨i, rfl, hlt, hi⟩ := paramToken?_eq_some ht
    rw [htake]
    exact ⟨hmem, _, rfl, hlt, hi⟩
  · intro hnone
    rw [htake]
    exact .param hds (paramToken?_eq_none hnone)

theorem fits_lone_dollar (h : r.takeWhile Char.isDigit = []) :
    (Munch.mk 0 .refused).Fits '$' r := by
  apply fits_refused
  rintro u rest rfl hmatch
  obtain ⟨hne, hdigits⟩ := Pattern.mem_digits.1 hmatch.param
  have hle := length_le_takeWhile hdigits rest
  rw [h, List.length_nil, Nat.le_zero, List.length_eq_zero_iff] at hle
  exact hne hle

/-! ### Exponents -/

theorem exponentPart_of_not_mem {e : Char} (he : e ∉ ['e', 'E']) (r : List Char) :
    exponentPart (e :: r) = (0, 0) := by
  simp only [List.mem_cons, List.not_mem_nil, or_false, not_or] at he
  simp [exponentPart, he]

/-- The exponent part after a mark, with its sign set apart. -/
theorem exponentPart_signed {e : Char} {sign : List Char} (he : e ∈ ['e', 'E'])
    (hsign : sign ∈ [[], ['+'], ['-']]) (hr : sign = [] → ∀ d ∈ r.head?, d ≠ '+' ∧ d ≠ '-') :
    exponentPart (e :: (sign ++ r)) =
      if r.takeWhile Char.isDigit = [] then (0, 0)
      else
        (1 + sign.length + (r.takeWhile Char.isDigit).length,
          signed sign (decimal (r.takeWhile Char.isDigit))) := by
  have hmark : (e == 'e' || e == 'E') = true := by simpa using he
  simp only [exponentPart, signed, hmark, digitsValue_eq_decimal, List.isEmpty_iff, if_true]
  rcases List.mem_cons.1 hsign with rfl | hsign
  · cases r with
    | nil => rfl
    | cons d r =>
      obtain ⟨hplus, hminus⟩ := hr rfl d rfl
      simp [hplus, hminus]
  · rcases List.mem_cons.1 hsign with rfl | hsign
    · rfl
    · obtain rfl := List.mem_singleton.1 hsign
      rfl

/-- A text is a sign, which may be absent, and what follows it. -/
theorem exists_sign (r : List Char) : ∃ sign r', r = sign ++ r' ∧ sign ∈ [[], ['+'], ['-']] ∧
    (sign = [] → ∀ d ∈ r'.head?, d ≠ '+' ∧ d ≠ '-') := by
  cases r with
  | nil => exact ⟨[], [], rfl, by simp, by simp⟩
  | cons d r =>
    by_cases hplus : d = '+'
    · exact ⟨['+'], r, by rw [hplus]; rfl, by simp, by simp⟩
    by_cases hminus : d = '-'
    · exact ⟨['-'], r, by rw [hminus]; rfl, by simp, by simp⟩
    exact ⟨[], d :: r, rfl, by simp, by simp [hplus, hminus]⟩

/-- What is taken as an exponent is one, or nothing. -/
theorem exponent_exponentPart (cs : List Char) :
    Exponent (cs.take (exponentPart cs).1) (exponentPart cs).2 := by
  cases cs with
  | nil => exact .absent
  | cons e r =>
    by_cases he : e ∈ ['e', 'E']
    · obtain ⟨sign, r, rfl, hsign, hr⟩ := exists_sign r
      rw [exponentPart_signed he hsign hr]
      split_ifs with hne
      · exact .absent
      · have htake : (e :: (sign ++ r)).take (1 + sign.length + (r.takeWhile Char.isDigit).length) =
            e :: (sign ++ r.takeWhile Char.isDigit) := by
          rw [Nat.add_assoc, Nat.add_comm 1, List.take_succ_cons, List.take_length_add_append,
            take_length_takeWhile]
        rw [htake]
        exact .present he hsign (takeWhile_mem_digits hne)
    · rw [exponentPart_of_not_mem he]
      exact .absent

/-- No exponent at the front of a text is longer than the one that is taken. -/
theorem Exponent.length_le {ex : List Char} {k : Int} (h : Exponent ex k) (rest : List Char) :
    ex.length ≤ (exponentPart (ex ++ rest)).1 := by
  cases h with
  | absent => exact Nat.zero_le _
  | @present e sign ds he hsign hds =>
    obtain ⟨d, v, rfl, hd, hv⟩ := exists_cons_of_mem_digits hds
    have hhead : sign = [] → ∀ x ∈ (d :: v ++ rest).head?, x ≠ '+' ∧ x ≠ '-' := by
      rintro - x hx
      obtain rfl : d = x := by simpa using hx
      constructor
      · rintro rfl
        exact absurd hd (by decide)
      · rintro rfl
        exact absurd hd (by decide)
    have hle := length_le_takeWhile (List.forall_mem_cons.2 ⟨hd, hv⟩) rest
    have hne : (d :: v ++ rest).takeWhile Char.isDigit ≠ [] := by
      rintro hnil
      rw [hnil] at hle
      simp at hle
    rw [List.cons_append, List.append_assoc, exponentPart_signed he hsign hhead, if_neg hne]
    simp only [List.length_cons, List.length_append] at hle ⊢
    omega

/-! ### Numbers -/

theorem intToken?_eq_some {ds : List Char} {t : Token} (h : intToken? ds = some t) :
    ∃ n, t = .int n ∧ decimal ds < 2 ^ 63 ∧ n.toInt = decimal ds := by
  unfold intToken? at h
  rw [digitsValue_eq_decimal] at h
  split_ifs at h with hlt
  cases h
  exact ⟨_, rfl, hlt, Int64.toInt_ofNat_of_lt hlt⟩

theorem intToken?_eq_none {ds : List Char} (h : intToken? ds = none) : 2 ^ 63 ≤ decimal ds := by
  unfold intToken? at h
  rw [digitsValue_eq_decimal] at h
  split_ifs at h with hlt
  exact Nat.le_of_not_lt hlt

theorem floatToken?_eq_some {whole fraction : List Char} {k : Int} {t : Token}
    (h : floatToken? whole fraction k = some t) :
    ∃ x, t = .float x ∧
    x = Binary64.ofDecimal false (decimal (whole ++ fraction)) (k - fraction.length) ∧
      x.isFinite = true := by
  unfold floatToken? at h
  rw [digitsValue_eq_decimal] at h
  dsimp only at h
  split_ifs at h with hfinite
  cases h
  exact ⟨_, rfl, rfl, hfinite⟩

theorem floatToken?_eq_none {whole fraction : List Char} {k : Int}
    (h : floatToken? whole fraction k = none) :
    (Binary64.ofDecimal false (decimal (whole ++ fraction)) (k - fraction.length)).isFinite =
      false := by
  unfold floatToken? at h
  rw [digitsValue_eq_decimal] at h
  dsimp only at h
  split_ifs at h with hfinite
  exact Bool.eq_false_of_not_eq_true hfinite

/-- A number with a fraction. -/
theorem munchNumber_fraction {r' : List Char} (hr : r.dropWhile Char.isDigit = '.' :: r')
    (hf : r'.takeWhile Char.isDigit ≠ []) :
    munchNumber c r =
      .ofToken? ((r.takeWhile Char.isDigit).length + 1 + (r'.takeWhile Char.isDigit).length +
          (exponentPart (r'.dropWhile Char.isDigit)).1)
        (floatToken? (c :: r.takeWhile Char.isDigit) (r'.takeWhile Char.isDigit)
          (exponentPart (r'.dropWhile Char.isDigit)).2) := by
  unfold munchNumber
  rw [hr]
  simp only [List.isEmpty_iff, hf, if_false, List.length_cons]

/-- A number without a fraction. -/
theorem munchNumber_whole
    (h : ∀ r', r.dropWhile Char.isDigit = '.' :: r' → r'.takeWhile Char.isDigit = []) :
    munchNumber c r =
      .ofToken? (r.takeWhile Char.isDigit).length (intToken? (c :: r.takeWhile Char.isDigit)) := by
  unfold munchNumber
  split
  · next r' hr => simp [h r' hr]
  · simp

/-- Behind the digits of a number there is a fraction, or there is none. -/
theorem fraction_cases (r : List Char) :
    (∃ r', r.dropWhile Char.isDigit = '.' :: r' ∧ r'.takeWhile Char.isDigit ≠ []) ∨
      ∀ r', r.dropWhile Char.isDigit = '.' :: r' → r'.takeWhile Char.isDigit = [] := by
  by_cases h : ∃ r', r.dropWhile Char.isDigit = '.' :: r' ∧ r'.takeWhile Char.isDigit ≠ []
  · exact .inl h
  · refine .inr fun r' hr => ?_
    by_contra hf
    exact h ⟨r', hr, hf⟩

theorem extra_ofToken? (n : Nat) (t? : Option Token) : (Munch.ofToken? n t?).extra = n := by
  cases t? <;> rfl

theorem length_takeWhile_le_munchNumber (c : Char) (r : List Char) :
    (r.takeWhile Char.isDigit).length ≤ (munchNumber c r).extra := by
  rcases fraction_cases r with ⟨r', hr, hf⟩ | h
  · rw [munchNumber_fraction hr hf, extra_ofToken?]
    omega
  · rw [munchNumber_whole h, extra_ofToken?]

/-- Digits and an exponent after the point: what is taken as the fraction and the exponent reaches
at least as far. -/
theorem Exponent.length_add_le {f ex : List Char} {k : Int} (h : Exponent ex k)
    (hf : ∀ d ∈ f, d.isDigit = true) (rest : List Char) :
    f.length + ex.length ≤ ((f ++ (ex ++ rest)).takeWhile Char.isDigit).length +
      (exponentPart ((f ++ (ex ++ rest)).dropWhile Char.isDigit)).1 := by
  by_cases hex : ex = []
  · -- more digits may follow, and an exponent behind them
    have hle := length_le_takeWhile hf (ex ++ rest)
    rw [hex] at hle ⊢
    simp only [List.length_nil]
    omega
  · -- the mark of the exponent ends the fraction
    have hhead : ∀ d ∈ (ex ++ rest).head?, d.isDigit = false := by
      cases h with
      | absent => exact absurd rfl hex
      | @present e sign ds he hsign hds =>
        intro d hd
        obtain rfl : e = d := by simpa using hd
        rcases List.mem_cons.1 he with rfl | he
        · decide
        · rw [List.mem_singleton.1 he]
          decide
    have hle := h.length_le rest
    rw [takeWhile_append_of_head hf hhead, dropWhile_append_of_head hf hhead]
    omega

theorem length_le_munchNumber_fraction {w f ex : List Char} {k : Int}
    (hw : ∀ d ∈ w, d.isDigit = true) (hf : f ∈ Pattern.digits) (hex : Exponent ex k) (c : Char)
    (rest : List Char) :
    (w ++ '.' :: f ++ ex).length ≤ (munchNumber c (w ++ '.' :: f ++ ex ++ rest)).extra := by
  obtain ⟨hne, hdigits⟩ := Pattern.mem_digits.1 hf
  have hassoc : w ++ '.' :: f ++ ex ++ rest = w ++ '.' :: (f ++ (ex ++ rest)) := by
    simp only [List.append_assoc, List.cons_append]
  have htake : (w ++ '.' :: (f ++ (ex ++ rest))).takeWhile Char.isDigit = w :=
    takeWhile_append_of_head hw (by simp)
  have hdrop :
      (w ++ '.' :: (f ++ (ex ++ rest))).dropWhile Char.isDigit = '.' :: (f ++ (ex ++ rest)) :=
    dropWhile_append_of_head hw (by simp)
  have hfraction : (f ++ (ex ++ rest)).takeWhile Char.isDigit ≠ [] := by
    rw [List.takeWhile_append_of_pos hdigits]
    exact List.append_ne_nil_of_left_ne_nil hne _
  have hle := hex.length_add_le hdigits rest
  rw [hassoc, munchNumber_fraction hdrop hfraction, extra_ofToken?, htake]
  simp only [List.length_append, List.length_cons]
  omega

/-- No number at the front of a text is longer than the one that is taken. -/
theorem length_le_munchNumber (hc : c.isDigit = true) (h : Matches (c :: u)) (rest : List Char) :
    u.length ≤ (munchNumber c (u ++ rest)).extra := by
  have hs := h.shape
  rw [Shape, if_neg (by simp [isNameStart_of_isDigit hc]), if_pos hc] at hs
  rcases hs with hdigits | hfloat
  · exact (length_le_takeWhile hdigits rest).trans (length_takeWhile_le_munchNumber c _)
  · obtain ⟨x, hx⟩ := Pattern.mem_float.1 hfloat
    generalize htext : c :: u = text at hx
    cases hx with
    | @mk whole f ex k hwhole hf hex =>
      obtain ⟨d, w, rfl, -, hw⟩ := exists_cons_of_mem_digits hwhole
      have hu : u = w ++ '.' :: f ++ ex := (List.cons.inj htext).2
      rw [hu]
      exact length_le_munchNumber_fraction hw hf hex c rest

theorem longest_munchNumber (hc : c.isDigit = true)
    (h : Matches (c :: r.take (munchNumber c r).extra)) :
    Longest (c :: r) (c :: r.take (munchNumber c r).extra) := by
  apply longest_take h
  rintro u rest rfl hmatch
  exact length_le_munchNumber hc hmatch rest

theorem cons_takeWhile_mem_digits (hc : c.isDigit = true) (r : List Char) :
    c :: r.takeWhile Char.isDigit ∈ Pattern.digits :=
  Pattern.mem_digits.2 ⟨List.cons_ne_nil _ _,
    List.forall_mem_cons.2 ⟨hc, List.all_eq_true.1 List.all_takeWhile⟩⟩

theorem take_fraction (w f rest : List Char) (n : Nat) :
    (w ++ '.' :: (f ++ rest)).take (w.length + 1 + f.length + n) =
      w ++ '.' :: f ++ rest.take n := by
  have hlen : w.length + 1 + f.length + n = w.length + (f.length + n + 1) := by omega
  rw [hlen, List.take_length_add_append, List.take_succ_cons, List.take_length_add_append,
    List.append_assoc, List.cons_append]

theorem fits_fraction {r' : List Char} (hc : c.isDigit = true)
    (hr : r.dropWhile Char.isDigit = '.' :: r') (hf : r'.takeWhile Char.isDigit ≠ []) :
    (munchNumber c r).Fits c r := by
  have hl := longest_munchNumber (r := r) hc
  have htext :=
    take_fraction (r.takeWhile Char.isDigit) (r'.takeWhile Char.isDigit) (r'.dropWhile Char.isDigit)
    (exponentPart (r'.dropWhile Char.isDigit)).1
  rw [List.takeWhile_append_dropWhile, ← hr, List.takeWhile_append_dropWhile] at htext
  have hnear := Nearest.mk (cons_takeWhile_mem_digits hc r) (takeWhile_mem_digits hf)
    (exponent_exponentPart (r'.dropWhile Char.isDigit))
  rw [List.cons_append, List.cons_append, ← htext] at hnear
  have hmem := Pattern.mem_float.2 ⟨_, hnear⟩
  rw [munchNumber_fraction hr hf] at hl ⊢
  rw [extra_ofToken?] at hl
  apply fits_ofToken? (isNameStart_of_isDigit hc) (hl ⟨.float default, hmem⟩)
  · intro t ht
    obtain ⟨x, rfl, rfl, hfinite⟩ := floatToken?_eq_some ht
    exact ⟨hmem, hnear, hfinite⟩
  · intro hnone
    exact .float hnear (floatToken?_eq_none hnone)

theorem fits_whole (hc : c.isDigit = true)
    (h : ∀ r', r.dropWhile Char.isDigit = '.' :: r' → r'.takeWhile Char.isDigit = []) :
    (munchNumber c r).Fits c r := by
  have hl := longest_munchNumber (r := r) hc
  have hwhole := cons_takeWhile_mem_digits hc r
  rw [munchNumber_whole h] at hl ⊢
  rw [extra_ofToken?, take_length_takeWhile] at hl
  apply fits_ofToken? (isNameStart_of_isDigit hc)
  all_goals rw [take_length_takeWhile]
  · exact hl ⟨.int 0, hwhole⟩
  · intro t ht
    obtain ⟨n, rfl, hlt, hn⟩ := intToken?_eq_some ht
    exact ⟨hwhole, hlt, hn⟩
  · intro hnone
    exact .int hwhole (intToken?_eq_none hnone)

theorem fits_number (hc : c.isDigit = true) (r : List Char) : (munchNumber c r).Fits c r := by
  rcases fraction_cases r with ⟨r', hr, hf⟩ | h
  · exact fits_fraction hc hr hf
  · exact fits_whole hc h

end Dataflow
