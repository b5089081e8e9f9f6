import Dataflow.Proofs.Numerals

/-!
# Longest matches

The lexer takes the longest text that has a pattern, and reads its value exactly. After numbers and
parameters come the strings, whose closing quote is the first one that is in no escape, and the
symbols, some of which are the beginning of others. With them each match fits the patterns of the
language, and so does each lexeme of a source.
-/

namespace Dataflow

variable {c : Char} {r u : List Char}

/-! ### Strings -/

/-- Reading the inside of a string literal passes over every piece of it, up to the closing quote.
-/
theorem stringBody_flatten {ps : List (List Char)} (hps : ∀ p ∈ ps, p ∈ Pattern.piece)
    (rest : List Char) :
    stringBody (ps.flatten ++ '"' :: rest) = (ps.flatten, true) := by
  induction ps with
  | nil => rfl
  | cons p ps ih =>
    obtain ⟨hp, hmore⟩ := List.forall_mem_cons.1 hps
    rw [List.flatten_cons, List.append_assoc]
    rcases Pattern.mem_piece.1 hp with ⟨c, rfl, hquote, hbackslash⟩ | ⟨c, rfl, hc⟩
    · rw [List.singleton_append, stringBody_cons hquote hbackslash, ih hmore]
      rfl
    · rw [List.cons_append, List.singleton_append, stringBody_escape hc, ih hmore]
      rfl

/-- The inside of a string literal that is closed is made of pieces. -/
theorem exists_pieces {cs : List Char} (h : (stringBody cs).2 = true) :
    ∃ (ps : List (List Char)) (rest : List Char),
      (∀ p ∈ ps, p ∈ Pattern.piece) ∧ cs = ps.flatten ++ '"' :: rest := by
  fun_induction stringBody cs with
  | case1 => cases h
  | case2 rest => exact ⟨[], rest, List.forall_mem_nil _, rfl⟩
  | case3 => cases h
  | case4 rest => cases h
  | case5 c r hc body closed heq ih =>
    obtain ⟨ps, rest, hps, rfl⟩ := ih (by rw [heq]; exact h)
    have hp : ['\\', c] ∈ Pattern.piece := Pattern.mem_piece.2 (.inr ⟨c, rfl, hc⟩)
    exact ⟨['\\', c] :: ps, rest, List.forall_mem_cons.2 ⟨hp, hps⟩, rfl⟩
  | case6 c r hquote hlast _ hescape body closed heq ih =>
    have hbackslash : c ≠ '\\' := by
      intro hc
      cases r with
      | nil => exact hlast hc rfl
      | cons d r => exact hescape d r hc rfl
    obtain ⟨ps, rest, hps, rfl⟩ := ih (by rw [heq]; exact h)
    have hp : [c] ∈ Pattern.piece := Pattern.mem_piece.2 (.inl ⟨c, rfl, hquote, hbackslash⟩)
    exact ⟨[c] :: ps, rest, List.forall_mem_cons.2 ⟨hp, hps⟩, rfl⟩

theorem escapedChar?_eq_some {e d : Char} (h : escapedChar? e = some d) : Stands ['\\', e] d := by
  unfold escapedChar? at h
  split at h
  · cases h
    exact .quote
  · cases h
    exact .backslash
  · cases h
    exact .newline
  · cases h
    exact .tab
  · cases h

theorem escapedChar?_eq_none {e : Char} (h : escapedChar? e = none) :
    e ∉ ['"', '\\', 'n', 't'] := by
  intro he
  simp only [List.mem_cons, List.not_mem_nil, or_false] at he
  rcases he with rfl | rfl | rfl | rfl <;> cases h

theorem unescape?_escape (e : Char) (r : List Char) :
    unescape? ('\\' :: e :: r) = (escapedChar? e).bind fun d => (unescape? r).map (d :: ·) := by
  rw [unescape?]
  cases escapedChar? e <;> cases unescape? r <;> rfl

/-- Undoing escapes gives the character that each piece stands for. -/
theorem stands_of_unescape? {ps : List (List Char)} {s : List Char}
    (hps : ∀ p ∈ ps, p ∈ Pattern.piece) (h : unescape? ps.flatten = some s) :
    List.Forall₂ Stands ps s := by
  induction ps generalizing s with
  | nil =>
    cases h
    exact .nil
  | cons p ps ih =>
    obtain ⟨hp, hmore⟩ := List.forall_mem_cons.1 hps
    rw [List.flatten_cons] at h
    rcases Pattern.mem_piece.1 hp with ⟨c, rfl, hquote, hbackslash⟩ | ⟨e, rfl, -⟩
    · rw [List.singleton_append, unescape?_cons hbackslash] at h
      obtain ⟨s, hs, rfl⟩ := Option.map_eq_some_iff.1 h
      exact .cons (.plain hquote hbackslash) (ih hmore hs)
    · rw [List.cons_append, List.singleton_append, unescape?_escape] at h
      obtain ⟨d, hd, h⟩ := Option.bind_eq_some_iff.1 h
      obtain ⟨s, hs, rfl⟩ := Option.map_eq_some_iff.1 h
      exact .cons (escapedChar?_eq_some hd) (ih hmore hs)

/-- Escapes cannot be undone if one of them is unknown. -/
theorem exists_escape_of_unescape? {ps : List (List Char)} (hps : ∀ p ∈ ps, p ∈ Pattern.piece)
    (h : unescape? ps.flatten = none) : ∃ e, ['\\', e] ∈ ps ∧ e ∉ ['"', '\\', 'n', 't'] := by
  induction ps with
  | nil => cases h
  | cons p ps ih =>
    obtain ⟨hp, hmore⟩ := List.forall_mem_cons.1 hps
    rw [List.flatten_cons] at h
    have hlater :
        unescape? ps.flatten = none → ∃ e, ['\\', e] ∈ p :: ps ∧ e ∉ ['"', '\\', 'n', 't'] := by
      intro hnone
      obtain ⟨e, he, hout⟩ := ih hmore hnone
      exact ⟨e, List.mem_cons_of_mem p he, hout⟩
    rcases Pattern.mem_piece.1 hp with ⟨c, rfl, -, hbackslash⟩ | ⟨e, rfl, -⟩
    · rw [List.singleton_append, unescape?_cons hbackslash] at h
      exact hlater (Option.map_eq_none_iff.1 h)
    · rw [List.cons_append, List.singleton_append, unescape?_escape] at h
      cases hd : escapedChar? e with
      | none => exact ⟨e, List.mem_cons_self, escapedChar?_eq_none hd⟩
      | some d =>
        rw [hd, Option.bind_some] at h
        exact hlater (Option.map_eq_none_iff.1 h)

theorem Matches.string (h : Matches ('"' :: u)) :
    ∃ ps : List (List Char), (∀ p ∈ ps, p ∈ Pattern.piece) ∧ u = ps.flatten ++ ['"'] := by
  obtain ⟨ps, hps, heq⟩ := Pattern.mem_string.1 (show '"' :: u ∈ Pattern.string from h.shape)
  exact ⟨ps, hps, (List.cons.inj heq).2⟩

/-- Where a string literal stands, it is the one that is read. -/
theorem Matches.stringBody (h : Matches ('"' :: u)) (rest : List Char) :
    ∃ body, stringBody (u ++ rest) = (body, true) ∧ u = body ++ ['"'] := by
  obtain ⟨ps, hps, rfl⟩ := h.string
  exact ⟨ps.flatten, by rw [List.append_assoc, List.singleton_append, stringBody_flatten hps], rfl⟩

theorem fits_closed {ps : List (List Char)} (hps : ∀ p ∈ ps, p ∈ Pattern.piece) (rest : List Char) :
    (Munch.ofToken? (ps.flatten.length + 1)
      ((unescape? ps.flatten).map (Token.str ∘ String.ofList))).Fits '"'
      (ps.flatten ++ '"' :: rest) := by
  have htake : (ps.flatten ++ '"' :: rest).take (ps.flatten.length + 1) = ps.flatten ++ ['"'] :=
    List.take_length_add_append 1
  have hmem : '"' :: (ps.flatten ++ ['"']) ∈ Pattern.string := Pattern.mem_string.2 ⟨ps, hps, rfl⟩
  apply fits_ofToken? (by decide)
  · apply longest_take
    · rw [htake]
      exact ⟨.str "", hmem⟩
    · intro u rest' heq hmatch
      obtain ⟨body, hbody, rfl⟩ := hmatch.stringBody rest'
      rw [← heq, stringBody_flatten hps] at hbody
      cases hbody
      rw [List.length_append, List.length_singleton]
  · intro t ht
    obtain ⟨s, hs, rfl⟩ := Option.map_eq_some_iff.1 ht
    rw [htake]
    refine ⟨hmem, ps, rfl, ?_⟩
    rw [String.toList_ofList]
    exact stands_of_unescape? hps hs
  · intro hnone
    obtain ⟨e, he, hout⟩ := exists_escape_of_unescape? hps (Option.map_eq_none_iff.1 hnone)
    rw [htake]
    exact .str hps he hout

theorem fits_string (r : List Char) : (munchString r).Fits '"' r := by
  unfold munchString
  split
  · next body hbody =>
    obtain ⟨ps, rest, hps, rfl⟩ := exists_pieces (by rw [hbody])
    obtain rfl : ps.flatten = body := by
      rw [stringBody_flatten hps] at hbody
      exact (Prod.mk.inj hbody).1
    exact fits_closed hps rest
  · next body hbody =>
    apply fits_refused
    rintro u rest rfl hmatch
    obtain ⟨_, hclosed, -⟩ := hmatch.stringBody rest
    rw [hbody] at hclosed
    cases hclosed

/-! ### Symbols -/

theorem symbol?_isPrefix {s : Symbol} (h : symbol? c r = some s) : s.text.toList <+: c :: r := by
  unfold symbol? at h
  split at h <;> cases h <;> exact ⟨_, rfl⟩

theorem one_le_length_text (s : Symbol) : 1 ≤ s.text.length := by
  cases s <;> decide

theorem cons_take_symbol {s : Symbol} (h : symbol? c r = some s) :
    c :: r.take (s.text.length - 1) = s.text.toList := by
  have hlen : s.text.toList.length = s.text.length - 1 + 1 := by
    have := one_le_length_text s
    rw [String.length_toList]
    omega
  rw [List.prefix_iff_eq_take.1 (symbol?_isPrefix h), hlen, List.take_succ_cons]

theorem exists_symbol?_of_mem (hc : c ∈ ['!', '<', '>']) (r : List Char) :
    ∃ s, symbol? c r = some s := by
  unfold symbol?
  split <;> first | exact ⟨_, rfl⟩ | simp_all

/-- At the front of a text that starts with a symbol, a symbol is found that is at least as long. -/
theorem exists_symbol? {s : Symbol} (h : s.text.toList = c :: u) (rest : List Char) :
    ∃ s', symbol? c (u ++ rest) = some s' ∧ s.text.length ≤ s'.text.length := by
  by_cases hs : s.Extends
  · have hhead : s.text.toList.head? = some c := by rw [h, List.head?_cons]
    have hc : c ∈ ['!', '<', '>'] := by rcases hs with rfl | rfl | rfl <;> cases hhead <;> decide
    have hlen : s.text.length = 1 := by rcases hs with rfl | rfl | rfl <;> rfl
    obtain ⟨s', hs'⟩ := exists_symbol?_of_mem hc (u ++ rest)
    refine ⟨s', hs', ?_⟩
    rw [hlen]
    exact one_le_length_text s'
  · refine ⟨s, ?_, Nat.le_refl _⟩
    cases s with
    | bang | less | greater => exact absurd (by simp [Symbol.Extends]) hs
    | _ => cases h; rfl

theorem fits_symbol (h : ∀ u, Matches (c :: u) → ∃ s : Symbol, s.text.toList = c :: u)
    (hc : isNameStart c = false) {s : Symbol} (hs : symbol? c r = some s) :
    (Munch.mk (s.text.length - 1) (.token (.symbol s))).Fits c r := by
  have htext := cons_take_symbol hs
  apply fits_token hc
  · apply longest_take
    · exact ⟨.symbol s, htext⟩
    · rintro u rest rfl hmatch
      obtain ⟨s', hs'⟩ := h u hmatch
      obtain ⟨s'', hsome, hle⟩ := exists_symbol? hs' rest
      obtain rfl : s = s'' := Option.some.inj (hs.symm.trans hsome)
      have hlen : s'.text.length = u.length + 1 := by
        rw [← String.length_toList, hs', List.length_cons]
      omega
  · exact htext
  · exact htext

theorem fits_unknown (h : ∀ u, Matches (c :: u) → ∃ s : Symbol, s.text.toList = c :: u)
    (hs : symbol? c r = none) : (Munch.mk 0 .refused).Fits c r := by
  apply fits_refused
  rintro u rest rfl hmatch
  obtain ⟨s, hsymbol⟩ := h u hmatch
  obtain ⟨s', hsome, -⟩ := exists_symbol? hsymbol rest
  rw [hs] at hsome
  cases hsome

/-! ### The lexer -/

/-- Every match fits the patterns of the language. -/
theorem fits_munch (c : Char) (r : List Char) : (munch c r).Fits c r := by
  unfold munch
  split_ifs with hblank hname hdigit hdollar hquote
  · trivial
  · exact fits_word hname r
  · exact fits_number hdigit r
  · obtain rfl := eq_of_beq hdollar
    dsimp only
    split_ifs with hempty
    · exact fits_lone_dollar (List.isEmpty_iff.1 hempty)
    · exact fits_param fun h => hempty (List.isEmpty_iff.2 h)
  · obtain rfl := eq_of_beq hquote
    exact fits_string r
  · have hsymbol : ∀ u, Matches (c :: u) → ∃ s : Symbol, s.text.toList = c :: u := by
      intro u hmatch
      have hshape := hmatch.shape
      rwa [Shape, if_neg hname, if_neg hdigit, if_neg (by simpa using hdollar),
        if_neg (by simpa using hquote)]
        at hshape
    split
    · next s hs => exact fits_symbol hsymbol (Bool.eq_false_of_not_eq_true hname) hs
    · next hs => exact fits_unknown hsymbol hs

/-- A span of the source takes up the text between two parts of it. -/
structure Span.Cuts (s : Span) (source : String) (before text after : List Char) : Prop where
  source_eq : source.toList = before ++ (text ++ after)
  start_eq : s.start = byteLength before
  stop_eq : s.stop = byteLength before + byteLength text

/-- A lexeme stands at its place in the source, and is the longest match there. -/
theorem fits_of_mem_lexemes {source : String} {l : Lexeme} (h : l ∈ lexemes source) :
    ∃ before after, l.span.Cuts source before l.text after ∧
    l.kind.Fits (l.text ++ after) l.text := by
  obtain ⟨before, c, r, hsource, rfl⟩ := exists_munch_of_mem_lexemes h
  have htext : c :: r.take (munch c r).extra ++ r.drop (munch c r).extra = c :: r := by
    rw [List.cons_append, List.take_append_drop]
  refine ⟨before, r.drop (munch c r).extra, ⟨?_, rfl, rfl⟩, ?_⟩
  · rw [hsource, htext]
  · rw [htext]
    exact fits_munch c r

theorem Span.Cuts.start_lt_stop {s : Span} {source : String} {before text after : List Char}
    (h : s.Cuts source before text after) (hne : text ≠ []) : s.start < s.stop := by
  rw [h.start_eq, h.stop_eq]
  exact Nat.lt_add_of_pos_right (byteLength_pos hne)

theorem Span.Cuts.stop_le {s : Span} {source : String} {before text after : List Char}
    (h : s.Cuts source before text after) : s.stop ≤ source.utf8ByteSize := by
  have hsize : source.utf8ByteSize = byteLength before + (byteLength text + byteLength after) := by
    rw [← byteLength_append, ← byteLength_append, ← h.source_eq, ← utf8ByteSize_ofList,
      String.ofList_toList]
  rw [h.stop_eq, hsize]
  omega

/-- A token stands at its place in the source, with a text that it means. -/
theorem cuts_of_mem_tokens {source : String} {p : PlacedToken} (h : p ∈ (lex source).tokens) :
    ∃ before text after, p.span.Cuts source before text after ∧ text ≠ [] ∧ p.token.Means text := by
  obtain ⟨l, hl, hkind, hspan⟩ := mem_tokens_lex.1 h
  obtain ⟨before, after, hcuts, hfits⟩ := fits_of_mem_lexemes hl
  have hne : l.text ≠ [] := by
    obtain ⟨_, c, r, -, rfl⟩ := exists_munch_of_mem_lexemes hl
    exact List.cons_ne_nil c _
  rw [hkind] at hfits
  rw [hspan] at hcuts
  exact ⟨before, l.text, after, hcuts, hne, hfits.2.2.2⟩

/-- A token that is a name stands in the source letter by letter. -/
theorem cuts_of_mem_idents {source : String} {n : String} {s : Span}
    (h : ⟨.ident n, s⟩ ∈ (lex source).tokens) :
    ∃ before after, s.Cuts source before n.toList after := by
  obtain ⟨before, text, after, hcuts, -, htext⟩ := cuts_of_mem_tokens h
  rw [show text = n.toList from htext] at hcuts
  exact ⟨before, after, hcuts⟩

/-- **The lexer takes longest matches and reads exact values.** Each token is the longest text at
its place that has a pattern, it has this pattern itself, it is a keyword exactly if the text is
one, and its value is that of the text. At each error no text has a pattern, or the longest one that
has is refused for its value and is the text of the error. -/
theorem longest_lex (source : String) :
    (∀ p ∈ (lex source).tokens, ∃ before text after, p.span.Cuts source before text after ∧
      text ∈ p.token.pattern ∧ Longest (text ++ after) text ∧
      (p.token.IsKeyword ↔ text ∈ keywords) ∧
      p.token.Means text) ∧
    ∀ e ∈ (lex source).errors, ∃ before text after, e.span.Cuts source before text after ∧
      ((∀ u, u <+: text ++ after → ¬ Matches u) ∨ Longest (text ++ after) text ∧ Refused text) := by
  constructor
  · intro p hp
    obtain ⟨l, hl, hkind, hspan⟩ := mem_tokens_lex.1 hp
    obtain ⟨before, after, hcuts, hfits⟩ := fits_of_mem_lexemes hl
    rw [hkind] at hfits
    rw [hspan] at hcuts
    exact ⟨before, l.text, after, hcuts, hfits⟩
  · intro e he
    obtain ⟨l, hl, hkind, -, hspan⟩ := mem_errors_lex.1 he
    obtain ⟨before, after, hcuts, hfits⟩ := fits_of_mem_lexemes hl
    rw [hkind] at hfits
    rw [hspan] at hcuts
    exact ⟨before, l.text, after, hcuts, hfits⟩

end Dataflow
