import Mathlib.Data.List.Pairwise
import Dataflow.Token.Lexer

/-!
# The lexer covers its source

The lexemes of a source are its text, cut into pieces one behind another (`Tiles`), and each of them
is what `munch` finds at its place (`exists_munch_of_mem_lexemes`). From this follows where the
spans of tokens and errors lie:

* they are not empty, start and end between characters, and have no byte in common;
* each character of the source is in one of them, or is a blank and in none.

Of `munch` nothing is needed but that a match which is neither a token nor refused consists of
blanks.
-/

namespace Dataflow

/-! ### Spans -/

namespace Span

/-- One span ends where another starts, or before. -/
def Precedes (a b : Span) : Prop := a.stop ≤ b.start

/-- Two spans have no byte in common. -/
def Apart (a b : Span) : Prop := a.Precedes b ∨ b.Precedes a

/-- One span lies inside another. -/
def Within (a b : Span) : Prop := b.start ≤ a.start ∧ a.stop ≤ b.stop

/-- The place of a character behind a text. -/
def ofChar (before : List Char) (c : Char) : Span :=
  ⟨byteLength before, byteLength before + c.utf8Size⟩

variable {a b s : Span}

theorem Apart.symm (h : a.Apart b) : b.Apart a := Or.symm h

theorem Within.apart (h : a.Within b) (hb : b.Apart s) : a.Apart s := by
  unfold Within Apart Precedes at *
  omega

theorem Within.not_apart (h : a.Within b) (ha : a.start < a.stop) : ¬a.Apart b := by
  unfold Within Apart Precedes at *
  omega

theorem start_lt_stop_ofChar (before : List Char) (c : Char) :
    (ofChar before c).start < (ofChar before c).stop := by
  have := c.utf8Size_pos
  simp only [ofChar]
  omega

end Span

theorem byteLength_pos {cs : List Char} (h : cs ≠ []) : 0 < byteLength cs := by
  cases cs with
  | nil => exact absurd rfl h
  | cons c cs =>
    have := c.utf8Size_pos
    simp only [byteLength_cons]
    omega

theorem utf8ByteSize_ofList (cs : List Char) : (String.ofList cs).utf8ByteSize = byteLength cs := by
  induction cs with
  | nil => rfl
  | cons c cs ih => simp [ih]

/-- The offset behind a part of a text is between two of its characters. -/
theorem isValid_byteLength {source : String} {before after : List Char}
    (h : source.toList = before ++ after) :
    String.Pos.Raw.IsValid source ⟨byteLength before⟩ := by
  refine String.Pos.Raw.isValid_iff_exists_append.2 ⟨String.ofList before, String.ofList after, ?_,
    ?_⟩
  · rw [← String.ofList_append, ← h, String.ofList_toList]
  · rw [String.rawEndPos, utf8ByteSize_ofList]

/-! ### Matches that are blanks -/

theorem take_length_takeWhile {α : Type} (p : α → Bool) (l : List α) :
    l.take (l.takeWhile p).length = l.takeWhile p :=
  (List.prefix_iff_eq_take.1 (List.takeWhile_prefix p)).symm

theorem kind_ofToken?_ne_blank (extra : Nat) (t? : Option Token) :
    (Munch.ofToken? extra t?).kind ≠ .blank := by
  cases t? <;> simp [Munch.ofToken?]

/-- What does not start with a blank is no blank. -/
theorem kind_munch_ne_blank {c : Char} (h : isBlank c = false) (r : List Char) :
    (munch c r).kind ≠ .blank := by
  have hnumber : (munchNumber c r).kind ≠ .blank := by
    unfold munchNumber
    dsimp only
    split
    · split <;> exact kind_ofToken?_ne_blank _ _
    · exact kind_ofToken?_ne_blank _ _
  have hstring : (munchString r).kind ≠ .blank := by
    unfold munchString
    split
    · exact kind_ofToken?_ne_blank _ _
    · simp
  unfold munch
  rw [if_neg (by simp [h])]
  split
  · simp
  · split
    · exact hnumber
    · split
      · dsimp only
        split
        · simp
        · exact kind_ofToken?_ne_blank _ _
      · split
        · exact hstring
        · split <;> simp

/-- A match that is a run of blanks has nothing else in it. -/
theorem isBlank_of_munch {c : Char} {r : List Char} (h : (munch c r).kind = .blank) :
    ∀ d ∈ c :: r.take (munch c r).extra, isBlank d = true := by
  cases hc : isBlank c with
  | false => exact absurd h (kind_munch_ne_blank hc r)
  | true =>
    have hm : munch c r = ⟨(r.takeWhile isBlank).length, .blank⟩ := by
      unfold munch
      rw [if_pos hc]
    rw [hm, take_length_takeWhile, List.forall_mem_cons]
    exact ⟨hc, List.all_eq_true.1 List.all_takeWhile⟩

/-! ### Texts cut into pieces -/

/-- A lexeme is what `munch` finds at its place in the text. -/
theorem exists_munch_of_mem_lexemesFrom {l : Lexeme} {offset : Nat} {cs : List Char}
    (h : l ∈ lexemesFrom offset cs) :
    ∃ before c r, cs = before ++ c :: r ∧
      l = ⟨(munch c r).kind, c :: r.take (munch c r).extra, offset + byteLength before⟩ := by
  fun_induction lexemesFrom offset cs with
  | case1 => cases h
  | case2 offset c r m text ih =>
    rcases List.mem_cons.1 h with rfl | h
    · exact ⟨[], c, r, rfl, rfl⟩
    · obtain ⟨before, d, r', hdrop, rfl⟩ := ih h
      refine ⟨text ++ before, d, r', ?_, ?_⟩
      · rw [List.append_assoc, ← hdrop, List.cons_append, List.take_append_drop]
      · rw [byteLength_append, Nat.add_assoc]

theorem exists_munch_of_mem_lexemes {l : Lexeme} {source : String} (h : l ∈ lexemes source) :
    ∃ before c r, source.toList = before ++ c :: r ∧
      l = ⟨(munch c r).kind, c :: r.take (munch c r).extra, byteLength before⟩ := by
  simpa only [Nat.zero_add] using exists_munch_of_mem_lexemesFrom h

/-- `Tiles offset cs ls`: the lexemes `ls` are the text `cs`, which stands at `offset`, cut into
pieces. -/
inductive Tiles : Nat → List Char → List Lexeme → Prop
  | nil (offset : Nat) : Tiles offset [] []
  | cons {offset : Nat} {l : Lexeme} {rest : List Char} {ls : List Lexeme}
      (hstart : l.start = offset)
      (hrest : Tiles l.span.stop rest ls) : Tiles offset (l.text ++ rest) (l :: ls)

theorem tiles_lexemesFrom (offset : Nat) (cs : List Char) :
    Tiles offset cs (lexemesFrom offset cs) := by
  fun_induction lexemesFrom offset cs with
  | case1 offset => exact .nil offset
  | case2 offset c r m text ih =>
    have htiles := Tiles.cons (l := ⟨m.kind, text, offset⟩) rfl ih
    rwa [List.cons_append, List.take_append_drop] at htiles

theorem tiles_lexemes (source : String) : Tiles 0 source.toList (lexemes source) :=
  tiles_lexemesFrom 0 source.toList

namespace Tiles

variable {offset : Nat} {cs : List Char} {ls : List Lexeme} {l : Lexeme}

theorem offset_le_start (h : Tiles offset cs ls) (hl : l ∈ ls) : offset ≤ l.span.start := by
  induction h with
  | nil => cases hl
  | @cons offset l' _ _ hstart _ ih =>
    rcases List.mem_cons.1 hl with rfl | hl
    · exact Nat.le_of_eq hstart.symm
    · have hle := ih hl
      simp only [Lexeme.span] at hle ⊢
      omega

/-- The pieces come one behind another. -/
theorem pairwise (h : Tiles offset cs ls) : ls.Pairwise fun a b => a.span.Precedes b.span := by
  induction h with
  | nil => exact .nil
  | cons _ hrest ih => exact .cons (fun b hb => hrest.offset_le_start hb) ih

/-- Different pieces have no byte in common. -/
theorem apart (h : Tiles offset cs ls) {a b : Lexeme} (ha : a ∈ ls) (hb : b ∈ ls) (hne : a ≠ b) :
    a.span.Apart b.span := by
  have hspans : ls.Pairwise fun a b => a.span.Apart b.span := h.pairwise.imp .inl
  have : Std.Symm fun a b : Lexeme => a.span.Apart b.span := ⟨fun _ _ => Span.Apart.symm⟩
  exact hspans.forall ha hb hne

/-- Every character of the text is in a piece. -/
theorem exists_within (h : Tiles offset cs ls) {before after : List Char} {c : Char}
    (hcs : cs = before ++ c :: after) :
    ∃ l ∈ ls, c ∈ l.text ∧
      Span.Within ⟨offset + byteLength before, offset + byteLength before + c.utf8Size⟩ l.span := by
  induction h generalizing before with
  | nil => exact absurd hcs (by simp)
  | @cons offset l rest ls hstart hrest ih =>
    rcases List.append_eq_append_iff.1 hcs with ⟨more, hbefore, hmore⟩ | ⟨more, htext, hmore⟩
    · -- the character stands behind the first piece
      obtain ⟨l', hl', hc, hwithin⟩ := ih hmore
      refine ⟨l', List.mem_cons_of_mem _ hl', hc, ?_⟩
      subst hbefore
      simpa only [Lexeme.span, hstart, byteLength_append, Nat.add_assoc] using hwithin
    · cases more with
      | nil =>
        -- the first piece ends right before the character
        rw [List.append_nil] at htext
        obtain ⟨l', hl', hc, hwithin⟩ := @ih [] hmore.symm
        refine ⟨l', List.mem_cons_of_mem _ hl', hc, ?_⟩
        simpa only [Lexeme.span, hstart, ← htext, byteLength_nil, Nat.add_zero] using hwithin
      | cons d more =>
        obtain ⟨rfl, rfl⟩ := List.cons.inj hmore
        refine ⟨l, List.mem_cons_self, by simp [htext], ?_, ?_⟩
        · simp only [Lexeme.span]
          omega
        · simp only [Lexeme.span, htext, hstart, byteLength_append, byteLength_cons]
          omega

end Tiles

/-! ### Tokens and errors -/

/-- The places of all tokens and errors. -/
def Lexed.spans (l : Lexed) : List Span :=
  l.tokens.map PlacedToken.span ++ l.errors.map LexError.span

theorem Lexeme.token?_eq_some {l : Lexeme} {p : PlacedToken} :
    l.token? = some p ↔ l.kind = .token p.token ∧ l.span = p.span := by
  unfold Lexeme.token?
  cases hk : l.kind with
  | blank | refused => simp
  | token t =>
    rcases p with ⟨t', s⟩
    simp

theorem Lexeme.error?_eq_some {l : Lexeme} {e : LexError} :
    l.error? = some e ↔ l.kind = .refused ∧ String.ofList l.text = e.text ∧ l.span = e.span := by
  unfold Lexeme.error?
  cases hk : l.kind with
  | blank | token => simp
  | refused =>
    rcases e with ⟨text, s⟩
    simp

section Lex

variable {source : String} {s : Span}

theorem mem_tokens_lex {p : PlacedToken} :
    p ∈ (lex source).tokens ↔ ∃ l ∈ lexemes source, l.kind = .token p.token ∧ l.span = p.span := by
  simp only [lex, List.mem_filterMap, Lexeme.token?_eq_some]

theorem mem_errors_lex {e : LexError} :
    e ∈ (lex source).errors ↔
      ∃ l ∈ lexemes source, l.kind = .refused ∧ String.ofList l.text = e.text ∧
      l.span = e.span := by
  simp only [lex, List.mem_filterMap, Lexeme.error?_eq_some]

/-- The spans of tokens and errors are those of the lexemes that are no blanks. -/
theorem mem_spans_lex :
    s ∈ (lex source).spans ↔ ∃ l ∈ lexemes source, l.kind ≠ .blank ∧ l.span = s := by
  simp only [Lexed.spans, List.mem_append, List.mem_map, mem_tokens_lex, mem_errors_lex]
  constructor
  · rintro (⟨p, ⟨l, hl, hk, hs⟩, rfl⟩ | ⟨e, ⟨l, hl, hk, -, hs⟩, rfl⟩)
    · exact ⟨l, hl, by simp [hk], hs⟩
    · exact ⟨l, hl, by simp [hk], hs⟩
  · rintro ⟨l, hl, hk, rfl⟩
    cases hkind : l.kind with
    | blank => exact absurd hkind hk
    | token t => exact .inl ⟨⟨t, l.span⟩, ⟨l, hl, hkind, rfl⟩, rfl⟩
    | refused => exact .inr ⟨⟨String.ofList l.text, l.span⟩, ⟨l, hl, hkind, rfl, rfl⟩, rfl⟩

theorem pairwise_tokens_lex (source : String) :
    ((lex source).tokens.map PlacedToken.span).Pairwise Span.Precedes := by
  refine List.pairwise_map.2 (List.pairwise_filterMap.2 ((tiles_lexemes source).pairwise.imp ?_))
  intro a b hab p hp q hq
  rwa [← (Lexeme.token?_eq_some.1 hp).2, ← (Lexeme.token?_eq_some.1 hq).2]

theorem pairwise_errors_lex (source : String) :
    ((lex source).errors.map LexError.span).Pairwise Span.Precedes := by
  refine List.pairwise_map.2 (List.pairwise_filterMap.2 ((tiles_lexemes source).pairwise.imp ?_))
  intro a b hab p hp q hq
  rwa [← (Lexeme.error?_eq_some.1 hp).2.2, ← (Lexeme.error?_eq_some.1 hq).2.2]

theorem pairwise_spans_lex (source : String) : (lex source).spans.Pairwise Span.Apart := by
  refine List.pairwise_append.2 ⟨(pairwise_tokens_lex source).imp .inl,
    (pairwise_errors_lex source).imp .inl, ?_⟩
  intro a ha b hb
  obtain ⟨p, hp, rfl⟩ := List.mem_map.1 ha
  obtain ⟨e, he, rfl⟩ := List.mem_map.1 hb
  obtain ⟨l, hl, hk, hs⟩ := mem_tokens_lex.1 hp
  obtain ⟨l', hl', hk', -, hs'⟩ := mem_errors_lex.1 he
  rw [← hs, ← hs']
  refine (tiles_lexemes source).apart hl hl' ?_
  rintro rfl
  cases hk.symm.trans hk'

/-- The spans of tokens and errors account for a source. None is empty, all start and end between
characters, and no two have a byte in common; tokens and errors come in the order of the source. A
character is inside exactly one span, or it is a blank and no span reaches into it. -/
structure Lexed.Covers (l : Lexed) (source : String) : Prop where
  start_lt_stop : ∀ s ∈ l.spans, s.start < s.stop
  isValid : ∀ s ∈ l.spans, String.Pos.Raw.IsValid source ⟨s.start⟩ ∧
    String.Pos.Raw.IsValid source ⟨s.stop⟩
  apart : l.spans.Pairwise Span.Apart
  tokens : (l.tokens.map PlacedToken.span).Pairwise Span.Precedes
  errors : (l.errors.map LexError.span).Pairwise Span.Precedes
  covered : ∀ before c after, source.toList = before ++ c :: after →
    (∃! s, s ∈ l.spans ∧ (Span.ofChar before c).Within s) ∨
      (c = ' ' ∨ c = '\t' ∨ c = '\r' ∨ c = '\n') ∧ ∀ s ∈ l.spans, (Span.ofChar before c).Apart s

/-- **The lexer covers its source.** -/
theorem covers_lex (source : String) : (lex source).Covers source where
  start_lt_stop s hs := by
    obtain ⟨l, hl, -, rfl⟩ := mem_spans_lex.1 hs
    obtain ⟨before, c, r, -, rfl⟩ := exists_munch_of_mem_lexemes hl
    exact Nat.lt_add_of_pos_right (byteLength_pos (List.cons_ne_nil c _))
  isValid s hs := by
    obtain ⟨l, hl, -, rfl⟩ := mem_spans_lex.1 hs
    obtain ⟨before, c, r, hsource, rfl⟩ := exists_munch_of_mem_lexemes hl
    have hcut :
        source.toList = (before ++ c :: r.take (munch c r).extra) ++ r.drop (munch c r).extra := by
      rw [hsource, List.append_assoc, List.cons_append, List.take_append_drop]
    have hthrough := isValid_byteLength hcut
    rw [byteLength_append] at hthrough
    exact ⟨isValid_byteLength hsource, hthrough⟩
  apart := pairwise_spans_lex source
  tokens := pairwise_tokens_lex source
  errors := pairwise_errors_lex source
  covered before c after hsource := by
    obtain ⟨l, hl, hc, hwithin⟩ := (tiles_lexemes source).exists_within hsource
    rw [Nat.zero_add] at hwithin
    by_cases hk : l.kind = .blank
    · refine .inr ⟨?_, fun s hs => ?_⟩
      · obtain ⟨_, d, r, -, rfl⟩ := exists_munch_of_mem_lexemes hl
        have hb := isBlank_of_munch hk c hc
        simpa [isBlank, or_assoc] using hb
      · obtain ⟨l', hl', hk', rfl⟩ := mem_spans_lex.1 hs
        refine Span.Within.apart hwithin ((tiles_lexemes source).apart hl hl' ?_)
        rintro rfl
        exact hk' hk
    · refine .inl ⟨l.span, ⟨mem_spans_lex.2 ⟨l, hl, hk, rfl⟩, hwithin⟩, ?_⟩
      rintro s ⟨hs, hwithin'⟩
      obtain ⟨l', hl', -, rfl⟩ := mem_spans_lex.1 hs
      by_cases heq : l' = l
      · rw [heq]
      · -- two pieces that both hold the character would have it in common
        have happart :=
          Span.Within.apart hwithin ((tiles_lexemes source).apart hl hl' (Ne.symm heq))
        exact absurd happart (hwithin'.not_apart (Span.start_lt_stop_ofChar before c))

end Lex

end Dataflow
