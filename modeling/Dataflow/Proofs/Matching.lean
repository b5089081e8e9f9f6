import Dataflow.Proofs.Covering
import Dataflow.Proofs.Lexing
import Dataflow.Proofs.Patterns

/-!
# Matches of patterns

What stands at the front of a text `c :: r` is decided by its first character: `Shape` says which
patterns a text with this first character can have, in the order in which `munch` looks at them.
`Munch.Fits` is what a match has to be by the patterns of the language. It is shown for one family
of tokens at a time, always in the same way: what the lexer takes has the pattern, and every text
with a pattern that stands there too is no longer.
-/

namespace Dataflow

variable {c : Char} {r u : List Char}

/-! ### Texts that have a pattern -/

theorem mem_name_of_mem_keywords (h : u ∈ keywords) : u ∈ Pattern.name := by
  rw [Pattern.mem_name]
  rcases List.mem_cons.1 h with rfl | h
  · exact ⟨'t', ['r', 'u', 'e'], by decide, by decide, List.all_eq_true.1 (by decide)⟩
  rcases List.mem_cons.1 h with rfl | h
  · exact ⟨'f', ['a', 'l', 's', 'e'], by decide, by decide, List.all_eq_true.1 (by decide)⟩
  rcases List.mem_singleton.1 h with rfl
  exact ⟨'n', ['u', 'l', 'l'], by decide, by decide, List.all_eq_true.1 (by decide)⟩

theorem mem_keywords_of_isKeyword {t : Token} (ht : t.IsKeyword) (h : u ∈ t.pattern) :
    u ∈ keywords := by
  rcases ht with rfl | rfl | rfl <;> rw [Pattern.mem_singleton.1 h] <;> simp [keywords]

/-- The texts `c :: u` that have a pattern, by their first character. -/
def Shape (c : Char) (u : List Char) : Prop :=
  if isNameStart c then ∀ d ∈ u, isNameChar d = true
  else if c.isDigit then (∀ d ∈ u, d.isDigit = true) ∨ c :: u ∈ Pattern.float
  else if c = '$' then u ∈ Pattern.digits
  else if c = '"' then c :: u ∈ Pattern.string
  else ∃ s : Symbol, s.text.toList = c :: u

theorem exists_shape_name (h : u ∈ Pattern.name) : ∃ c v, u = c :: v ∧ Shape c v := by
  obtain ⟨c, v, rfl, hc, hv⟩ := Pattern.mem_name.1 h
  refine ⟨c, v, rfl, ?_⟩
  rw [Shape, if_pos hc]
  exact hv

/-- The first character of a symbol starts nothing else. -/
theorem exists_shape_symbol (s : Symbol) : ∃ c v, s.text.toList = c :: v ∧ Shape c v := by
  cases hs : s.text.toList with
  | nil => cases s <;> cases hs
  | cons c v =>
    have hc : (isNameStart c || c.isDigit || c == '$' || c == '"') = false := by
      have hhead : s.text.toList.head? = some c := by rw [hs, List.head?_cons]
      cases s <;> cases hhead <;> decide
    simp only [Bool.or_eq_false_iff, beq_eq_false_iff_ne] at hc
    obtain ⟨⟨⟨hn, hd⟩, hp⟩, hq⟩ := hc
    refine ⟨c, v, rfl, ?_⟩
    rw [Shape, if_neg (by simp [hn]), if_neg (by simp [hd]), if_neg hp, if_neg hq]
    exact ⟨s, hs⟩

theorem shape_number (hc : c.isDigit = true)
    (h : (∀ d ∈ u, d.isDigit = true) ∨ c :: u ∈ Pattern.float) :
    Shape c u := by
  have hn : isNameStart c ≠ true := by simp [isNameStart_of_isDigit hc]
  rw [Shape, if_neg hn, if_pos hc]
  exact h

theorem exists_cons_of_mem_digits (h : u ∈ Pattern.digits) :
    ∃ c v, u = c :: v ∧ c.isDigit = true ∧ ∀ d ∈ v, d.isDigit = true := by
  obtain ⟨hne, hdigits⟩ := Pattern.mem_digits.1 h
  cases u with
  | nil => exact absurd rfl hne
  | cons c v => exact ⟨c, v, rfl, List.forall_mem_cons.1 hdigits⟩

/-- Whatever has the pattern of a token has the shape that goes with its first character. -/
theorem Matches.exists_shape (h : Matches u) : ∃ c v, u = c :: v ∧ Shape c v := by
  obtain ⟨t, ht⟩ := h
  -- a keyword is written as a name
  by_cases hk : t.IsKeyword
  · exact exists_shape_name (mem_name_of_mem_keywords (mem_keywords_of_isKeyword hk ht))
  cases t with
  | bool b => cases b <;> simp [Token.IsKeyword] at hk
  | null => simp [Token.IsKeyword] at hk
  | symbol s =>
    rw [Pattern.mem_singleton.1 ht]
    exact exists_shape_symbol s
  | ident n => exact exists_shape_name ht
  | int n =>
    obtain ⟨c, v, rfl, hc, hv⟩ := exists_cons_of_mem_digits ht
    exact ⟨c, v, rfl, shape_number hc (.inl hv)⟩
  | float x =>
    obtain ⟨y, @⟨whole, fraction, ex, k, hwhole, hfraction, hex⟩⟩ := Pattern.mem_float.1 ht
    obtain ⟨c, v, rfl, hc, hv⟩ := exists_cons_of_mem_digits hwhole
    exact ⟨c, _, rfl, shape_number hc (.inr ht)⟩
  | param i =>
    obtain ⟨ds, hds, rfl⟩ := Pattern.mem_param.1 ht
    exact ⟨'$', ds, rfl, hds⟩
  | str s =>
    obtain ⟨ps, hps, rfl⟩ := Pattern.mem_string.1 ht
    exact ⟨'"', _, rfl, ht⟩

theorem Matches.ne_nil (h : Matches u) : u ≠ [] := by
  obtain ⟨c, v, rfl, -⟩ := h.exists_shape
  exact List.cons_ne_nil c v

theorem Matches.shape (h : Matches (c :: u)) : Shape c u := by
  obtain ⟨_, _, heq, hs⟩ := h.exists_shape
  obtain ⟨rfl, rfl⟩ := List.cons.inj heq
  exact hs

/-! ### What a match has to be -/

/-- A lexeme with the given text, at the front of the text `cs`, is what the patterns of the
language say. -/
def LexemeKind.Fits (cs text : List Char) : LexemeKind → Prop
  | .blank => True
  | .token t => text ∈ t.pattern ∧ Longest cs text ∧ (t.IsKeyword ↔ text ∈ keywords) ∧ t.Means text
  | .refused => (∀ v, v <+: cs → ¬ Matches v) ∨ Longest cs text ∧ Refused text

/-- A match at the front of the text `c :: r` is what the patterns of the language say. -/
def Munch.Fits (m : Munch) (c : Char) (r : List Char) : Prop :=
  m.kind.Fits (c :: r) (c :: r.take m.extra)

/-- A match is the longest if no other has more characters after the first one. -/
theorem longest_take {n : Nat} (hm : Matches (c :: r.take n))
    (h : ∀ u rest, r = u ++ rest → Matches (c :: u) → u.length ≤ n) :
    Longest (c :: r) (c :: r.take n) where
  isPrefix := (List.prefix_cons_inj c).2 (List.take_prefix n r)
  isMatch := hm
  length_le := by
    intro v hv hmatch
    cases v with
    | nil => exact Nat.zero_le _
    | cons d u =>
      obtain ⟨rest, heq⟩ := hv
      obtain ⟨rfl, hr⟩ := List.cons.inj heq
      have hle : u.length ≤ n := h u rest hr.symm hmatch
      have hlen : r.length = u.length + rest.length := by rw [← hr]; exact List.length_append
      simp only [List.length_cons, List.length_take]
      omega

/-- A refusal is right where nothing has a pattern. -/
theorem fits_refused {n : Nat} (h : ∀ u rest, r = u ++ rest → ¬ Matches (c :: u)) :
    (Munch.mk n .refused).Fits c r := by
  refine .inl fun v hv hmatch => ?_
  cases v with
  | nil => exact hmatch.ne_nil rfl
  | cons d u =>
    obtain ⟨rest, heq⟩ := hv
    obtain ⟨rfl, rfl⟩ := List.cons.inj heq
    exact h u rest rfl hmatch

theorem not_mem_keywords (hc : isNameStart c = false) : c :: u ∉ keywords := by
  intro h
  obtain ⟨_, _, heq, hstart, -⟩ := Pattern.mem_name.1 (mem_name_of_mem_keywords h)
  obtain ⟨rfl, -⟩ := List.cons.inj heq
  rw [hc] at hstart
  cases hstart

/-- A token that does not start like a name is no keyword, so that the rest is left to show. -/
theorem fits_token {n : Nat} {t : Token} (hc : isNameStart c = false)
    (hl : Longest (c :: r) (c :: r.take n)) (ht : c :: r.take n ∈ t.pattern)
    (hmeans : t.Means (c :: r.take n)) : (Munch.mk n (.token t)).Fits c r := by
  refine ⟨ht, hl, ?_, hmeans⟩
  constructor
  · exact fun hk => mem_keywords_of_isKeyword hk ht
  · exact fun hk => absurd hk (not_mem_keywords hc)

theorem fits_ofToken? {n : Nat} {t? : Option Token} (hc : isNameStart c = false)
    (hl : Longest (c :: r) (c :: r.take n))
    (hsome : ∀ t, t? = some t → c :: r.take n ∈ t.pattern ∧ t.Means (c :: r.take n))
    (hnone : t? = none → Refused (c :: r.take n)) : (Munch.ofToken? n t?).Fits c r := by
  cases t? with
  | none => exact .inr ⟨hl, hnone rfl⟩
  | some t =>
    obtain ⟨ht, hmeans⟩ := hsome t rfl
    exact fits_token hc hl ht hmeans

/-- The part of a text that lies in a class reaches at least as far as any beginning that does. -/
theorem length_le_takeWhile {p : Char → Bool} (hu : ∀ d ∈ u, p d = true) (rest : List Char) :
    u.length ≤ ((u ++ rest).takeWhile p).length := by
  rw [List.takeWhile_append_of_pos hu, List.length_append]
  omega

/-! ### Words -/

theorem mem_pattern_wordToken (h : u ∈ Pattern.name) : u ∈ (wordToken u).pattern := by
  unfold wordToken
  split_ifs with h1 h2 h3
  · exact h1
  · exact h2
  · exact h3
  · exact h

theorem isKeyword_wordToken : (wordToken u).IsKeyword ↔ u ∈ keywords := by
  unfold wordToken
  split_ifs with h1 h2 h3
  · simp [Token.IsKeyword, keywords, h1]
  · simp [Token.IsKeyword, keywords, h2]
  · simp [Token.IsKeyword, keywords, h3]
  · simp only [Token.IsKeyword, keywords, List.mem_cons, List.not_mem_nil, h1, h2, h3]
    simp

theorem means_wordToken : (wordToken u).Means u := by
  unfold wordToken
  split_ifs with h1 h2 h3
  · exact h1
  · exact h2
  · exact h3
  · exact String.toList_ofList.symm

/-- A word reaches as far as the characters of names do. -/
theorem fits_word (hc : isNameStart c = true) (r : List Char) :
    (Munch.mk (r.takeWhile isNameChar).length
      (.token (wordToken (c :: r.takeWhile isNameChar)))).Fits c r := by
  have htake : r.take (r.takeWhile isNameChar).length = r.takeWhile isNameChar :=
    take_length_takeWhile isNameChar r
  have hname : c :: r.takeWhile isNameChar ∈ Pattern.name :=
    Pattern.mem_name.2 ⟨c, _, rfl, hc, List.all_eq_true.1 List.all_takeWhile⟩
  have hl : Longest (c :: r) (c :: r.take (r.takeWhile isNameChar).length) := by
    apply longest_take
    · rw [htake]
      exact ⟨_, mem_pattern_wordToken hname⟩
    · rintro u rest rfl hmatch
      have hu := hmatch.shape
      rw [Shape, if_pos hc] at hu
      exact length_le_takeWhile hu rest
  unfold Munch.Fits
  rw [htake] at hl ⊢
  exact ⟨mem_pattern_wordToken hname, hl, isKeyword_wordToken, means_wordToken⟩

end Dataflow
