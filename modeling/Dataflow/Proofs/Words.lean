import Dataflow.Proofs.Hygiene
import Dataflow.Proofs.Quoting

/-!
# The words of a text

The lexer does not read all texts of the target language: it refuses strict equality, bound names
and most escapes. But it cuts every text in one way, and the text of a function is cut at its
tokens.

* `cut` is the list of the words of a text, and tokens at the front of a text are cut into their
  words (`Spaced.cut_eq`).
* The first word tells most tokens, and its first character tells the others apart
  (`eq_of_words_append`), so that tokens up to a lone equals sign are known from their words
  (`eq_of_flatMap_words`).
-/

namespace Dataflow

/-! ### Cutting a text -/

/-- The texts of lexemes, accepted or refused, that are no blanks. -/
def Lexeme.words (ls : List Lexeme) : List (List Char) :=
  (ls.filter fun l => l.kind ≠ .blank).map text

/-- The words of a text. -/
def cut (cs : List Char) : List (List Char) := Lexeme.words (lexemesFrom 0 cs)

section Cut

variable {c : Char} {r cs rest : List Char} {k : LexemeKind}

theorem Lexeme.words_cons (l : Lexeme) (ls : List Lexeme) :
    words (l :: ls) = (if l.kind = .blank then [] else [l.text]) ++ words ls := by
  by_cases hk : l.kind = .blank <;> simp [words, hk]

/-- The words do not depend on the place of the text. -/
theorem words_lexemesFrom (offset : Nat) (cs : List Char) :
    Lexeme.words (lexemesFrom offset cs) = cut cs := by
  -- the offset moves on both sides, so the second one has to be general too
  suffices h : ∀ offset',
      Lexeme.words (lexemesFrom offset cs) = Lexeme.words (lexemesFrom offset' cs) from h 0
  fun_induction lexemesFrom offset cs with
  | case1 offset => simp [lexemesFrom]
  | case2 offset c r m text ih =>
    intro offset'
    rw [lexemesFrom, Lexeme.words_cons, Lexeme.words_cons]
    exact congrArg _ (ih _)

theorem cut_nil : cut [] = [] := by
  simp [cut, lexemesFrom, Lexeme.words]

theorem cut_cons (c : Char) (r : List Char) :
    cut (c :: r) = (if (munch c r).kind = .blank then [] else [c :: r.take (munch c r).extra]) ++
      cut (r.drop (munch c r).extra) := by
  rw [cut, lexemesFrom, Lexeme.words_cons, words_lexemesFrom]

theorem cut_lexeme (hm : munch c (r ++ rest) = ⟨r.length, k⟩) (hk : k ≠ .blank) :
    cut (c :: (r ++ rest)) = (c :: r) :: cut rest := by
  rw [cut_cons, hm]
  simp [hk]

theorem cut_space (hrest : ∀ c ∈ rest.head?, isBlank c = false) : cut (' ' :: rest) = cut rest := by
  rw [cut_cons, munch_space hrest]
  simp

theorem Munched.cut (h : Munched cs k) (hk : k ≠ .blank) (hb : Boundary rest) :
    cut (cs ++ rest) = cs :: Dataflow.cut rest := by
  obtain ⟨c, r, rfl, -, -, hm⟩ := h
  exact cut_lexeme (hm rest hb) hk

end Cut

/-! ### The words of tokens -/

/-- A double is written as digits, a point and digits. -/
def Binary64.Pointed (x : Binary64) : Prop :=
  ∃ whole fraction : List Char, whole ≠ [] ∧ fraction ≠ [] ∧ (∀ c ∈ whole, c.isDigit = true) ∧
    (∀ c ∈ fraction, c.isDigit = true) ∧ x.literalText.toList = whole ++ '.' :: fraction

/-- Doubles that are written as digits, a point and digits, and no two of them alike. -/
structure Binary64.Distinct (F : Binary64 → Prop) : Prop where
  pointed : ∀ x, F x → x.Pointed
  eq_of_literalText_eq : ∀ x y, F x → F y → x.literalText = y.literalText → x = y

namespace Token

/-- The first word of a token. A bound name is cut behind the dollar sign, and strict equality
behind two characters. -/
def lead (names : List String) : Token → List Char
  | symbol s => s.text.toList
  | param _ => ['$']
  | t => (t.target names).toList

/-- The other words of a token. -/
def follow (names : List String) : Token → List (List Char)
  | symbol s => if s = .equal ∨ s = .notEqual then [['=']] else []
  | param i => [((param i).target names).toList.tail]
  | _ => []

/-- The words of a token. -/
def words (names : List String) (t : Token) : List (List Char) := t.lead names :: t.follow names

/-- The tokens of functions of `n` parameters; of the doubles only those in `F` are among them. -/
def Writable (n : Nat) (F : Binary64 → Prop) : Token → Prop
  | float x => F x
  | param i => i.toNat < (mapParams n).names.length
  | t => t.Lexical

/-- A token that the lexer reads from its first word. -/
def isPlain : Token → Bool
  | float _ | str _ | param _ => false
  | _ => true

end Token

section Words

variable {n : Nat} {F : Binary64 → Prop} {t : Token} {rest : List Char}

/-- What the first word of a token tells about it: plain tokens are read from it, and others are not
taken for them. -/
def Token.Leads (t : Token) (k : LexemeKind) : Prop :=
  if t.isPlain then k = .token t else k ≠ .blank ∧ ∀ u, k = .token u → u.isPlain = false

theorem Token.Leads.ne_blank {k : LexemeKind} (h : t.Leads k) : k ≠ .blank := by
  unfold Leads at h
  split at h
  · simp [h]
  · exact h.1

/-- The kind of a match that no plain token can be. -/
theorem exists_leads (ht : t.isPlain = false) {t? : Option Token}
    (h : ∀ u ∈ t?, u.isPlain = false) :
    ∃ k, t.Leads k ∧ ∀ extra, Munch.ofToken? extra t? = ⟨extra, k⟩ := by
  cases t? with
  | none => exact ⟨.refused, by simp [Token.Leads, ht], fun _ => rfl⟩
  | some u => exact ⟨.token u, by simp [Token.Leads, ht, h u rfl], fun _ => rfl⟩

theorem Munched.pointed {x : Binary64} (hx : x.Pointed) :
    ∃ k, (Token.float x).Leads k ∧ Munched x.literalText.toList k := by
  obtain ⟨whole, fraction, hne, hne', hw, hf, htext⟩ := hx
  cases whole with
  | nil => exact absurd rfl hne
  | cons c r =>
    obtain ⟨hc, hr⟩ := List.forall_mem_cons.1 hw
    have hfloat : ∀ u ∈ floatToken? (c :: r) fraction 0, u.isPlain = false := by
      intro u hu
      unfold floatToken? at hu
      dsimp only at hu
      split at hu <;> cases hu
      rfl
    obtain ⟨k, hk, hextra⟩ := exists_leads (t := .float x) rfl hfloat
    refine ⟨k, hk, c, r ++ '.' :: fraction, htext, isBlank_of_isDigit hc,
      ne_equals_of (by decide) hc, fun rest hb => ?_⟩
    rw [munch_float hc hr hf hne' hb, hextra]

theorem Munched.quote (s : String) :
    ∃ k, (Token.str s).Leads k ∧ Munched (Script.quote s).toList k := by
  have hstr : ∀ u ∈ (unescape? (s.toList.flatMap Script.quoteChar)).map (Token.str ∘ String.ofList),
      u.isPlain = false := by
    intro u hu
    obtain ⟨cs, -, rfl⟩ := Option.map_eq_some_iff.1 hu
    rfl
  obtain ⟨k, hk, hextra⟩ := exists_leads (t := .str s) rfl hstr
  refine ⟨k, hk, '"', s.toList.flatMap Script.quoteChar ++ ['"'], by simp [Script.quote], by decide,
    by decide, fun rest _ => ?_⟩
  rw [munch_quoted, hextra]

/-- The text of a token that is neither a symbol nor a parameter is one word. -/
theorem Token.Writable.munched (hF : Binary64.Distinct F) (h : t.Writable n F)
    (hs : ∀ s, t ≠ .symbol s) (hp : ∀ i, t ≠ .param i) (names : List String) :
    ∃ k, t.Leads k ∧ Munched (t.target names).toList k := by
  cases t with
  | symbol s => exact absurd rfl (hs s)
  | param i => exact absurd rfl (hp i)
  | float x => exact Munched.pointed (hF.pointed x h)
  | str s => exact Munched.quote s
  | int k => exact ⟨_, rfl, .int h⟩
  | ident s => exact ⟨_, rfl, .ident h⟩
  | bool b => exact ⟨_, rfl, .bool b⟩
  | null => exact ⟨_, rfl, .null⟩

/-- A bound name is cut behind the dollar sign. -/
theorem cut_name {name : String} (h : name ∈ (mapParams n).names) (hb : Boundary rest) :
    cut (name.toList ++ rest) = ['$'] :: name.toList.tail :: cut rest := by
  obtain ⟨c, r, hcr, hc, hr⟩ := exists_of_mem_names h
  have hdigit : c.isDigit = false := by
    cases hd : c.isDigit with
    | false => rfl
    | true => simp [isNameStart_of_isDigit hd] at hc
  -- a parameter would need a digit behind the dollar sign
  have hdollar : munch '$' (c :: (r ++ rest)) = ⟨0, .refused⟩ := by
    have h1 : isBlank '$' = false := by decide
    have h2 : isNameStart '$' = false := by decide
    have h3 : Char.isDigit '$' = false := by decide
    simp [munch, h1, h2, h3, hdigit]
  rw [hcr]
  exact (cut_lexeme (r := []) hdollar (by simp)).trans
    (congrArg _ ((Munched.word hc hr).cut (by simp) hb))

theorem cut_symbol (s : Symbol) (hrest : s.Extends → ∀ c ∈ rest.head?, c ≠ '=') :
    cut (s.text.toList ++ rest) = s.text.toList :: cut rest := by
  obtain ⟨c, r, hcr, hm⟩ := munch_symbol s hrest
  rw [hcr]
  exact cut_lexeme hm (by simp)

/-- An equals sign that belongs to no symbol. -/
theorem cut_equals (hrest : ∀ c ∈ rest.head?, c ≠ '=') : cut ('=' :: rest) = ['='] :: cut rest := by
  have hm : munch '=' rest = ⟨0, .refused⟩ := by
    cases rest with
    | nil => rfl
    | cons c rest =>
      have hc : c ≠ '=' := hrest c rfl
      simp [munch, symbol?, isBlank, isNameStart, hc]
  exact cut_lexeme (r := []) hm (by simp)

/-- Strict equality is written with one more equals sign. -/
theorem Token.target_strict {s : Symbol} (hs : s = .equal ∨ s = .notEqual) (names : List String) :
    (symbol s).target names = s.text ++ "=" := by
  rcases hs with rfl | rfl
  · have heq : "===" = "==" ++ "=" := by decide
    exact heq
  · have hne : "!==" = "!=" ++ "=" := by decide
    exact hne

/-- The words of a token are taken off the front of a text. -/
theorem Token.Writable.cut (hF : Binary64.Distinct F) (h : t.Writable n F)
    (hb : t.EndsBefore rest) :
    cut ((t.target (mapParams n).names).toList ++ rest) =
      t.words (mapParams n).names ++ Dataflow.cut rest := by
  cases t with
  | symbol s =>
    by_cases hs : s = .equal ∨ s = .notEqual
    · -- the last equals sign is a word of its own, as nothing behind it makes a symbol of it
      have hfirst :
          Dataflow.cut (s.text.toList ++ '=' :: rest) =
            s.text.toList :: Dataflow.cut ('=' :: rest) :=
        cut_symbol s (by rcases hs with rfl | rfl <;> simp [Symbol.Extends])
      rw [words, lead, follow, if_pos hs, target_strict hs, String.toList_append, List.append_assoc]
      exact hfirst.trans (congrArg _ (cut_equals (hb (.inr hs))))
    · obtain ⟨h1, h2⟩ := not_or.1 hs
      rw [words, lead, follow, if_neg hs, target_symbol h1 h2]
      exact cut_symbol s fun he => hb (.inl he)
  | param i =>
    have hname := List.getElem?_eq_getElem h
    have htarget :
        (Token.param i).target (mapParams n).names =
          (mapParams n).names[i.toNat]?.getD "undefined" := rfl
    rw [words, lead, follow, htarget, hname]
    exact cut_name (List.getElem_mem h) hb
  | float | str | int | ident | bool | null =>
    obtain ⟨k, hk, hm⟩ := h.munched hF (by simp) (by simp) (mapParams n).names
    exact hm.cut hk.ne_blank hb

/-- The tokens at the front of a text are cut into their words. -/
theorem Spaced.cut_eq (hF : Binary64.Distinct F) {tail cs : List Char} {ts : List Token}
    (h : Spaced (mapParams n).names tail cs ts) (hts : ∀ t ∈ ts, t.Writable n F) :
    cut cs = ts.flatMap (Token.words (mapParams n).names) ++ cut tail := by
  induction h with
  | nil => rfl
  | space hhead _ ih => rw [cut_space hhead, ih hts]
  | token t hb _ ih =>
    obtain ⟨ht, hts⟩ := List.forall_mem_cons.1 hts
    rw [ht.cut hF hb, ih hts, List.flatMap_cons, List.append_assoc]

end Words

/-! ### Telling tokens apart -/

section Apart

variable {n : Nat} {F : Binary64 → Prop} {t t' : Token}

/-- What the first character of a token that is not plain can be. -/
def Token.Begins : Token → Char → Prop
  | float _, c => c.isDigit = true
  | str _, c => c = '"'
  | param _, c => c = '$'
  | _, _ => True

theorem Token.Writable.begins (hF : Binary64.Distinct F) (h : t.Writable n F) {names : List String}
    {c : Char} {r : List Char} (hlead : t.lead names = c :: r) : t.Begins c := by
  cases t with
  | float x =>
    obtain ⟨whole, fraction, hne, -, hw, -, htext⟩ := hF.pointed x h
    have hcr : x.literalText.toList = c :: r := hlead
    rw [htext] at hcr
    cases whole with
    | nil => exact absurd rfl hne
    | cons d whole =>
      obtain ⟨rfl, -⟩ := List.cons.inj hcr
      exact hw d (List.mem_cons_self ..)
  | str s =>
    have hcr : (Script.quote s).toList = c :: r := hlead
    rw [Script.quote, String.toList_ofList] at hcr
    exact (List.cons.inj hcr).1.symm
  | param i => exact (List.cons.inj hlead).1.symm
  | symbol | int | ident | bool | null => trivial

/-- The first word of a token is a lexeme that leads it. -/
theorem Token.Writable.lead (hF : Binary64.Distinct F) (h : t.Writable n F) (names : List String) :
    ∃ c r, t.lead names = c :: r ∧ t.Begins c ∧ t.Leads (munch c r).kind := by
  suffices hword : ∃ c r, t.lead names = c :: r ∧ t.Leads (munch c r).kind by
    obtain ⟨c, r, hcr, hk⟩ := hword
    exact ⟨c, r, hcr, h.begins hF hcr, hk⟩
  cases t with
  | symbol s =>
    obtain ⟨c, r, hcr, hm⟩ := @munch_symbol [] s (by simp)
    rw [List.append_nil] at hm
    exact ⟨c, r, hcr, by rw [hm]; rfl⟩
  | param i =>
    have hm : munch '$' [] = ⟨0, .refused⟩ := by decide
    exact ⟨'$', [], rfl, by simp [hm, Leads, isPlain]⟩
  | float | str | int | ident | bool | null =>
    obtain ⟨k, hk, c, r, hcr, -, -, hm⟩ := h.munched hF (by simp) (by simp) names
    have hkind := hm [] boundary_nil
    rw [List.append_nil] at hkind
    exact ⟨c, r, hcr, by rwa [hkind]⟩

/-- No token starts with a lone equals sign. -/
theorem Token.Writable.lead_ne (hF : Binary64.Distinct F) (h : t.Writable n F)
    (names : List String) :
    t.lead names ≠ ['='] := by
  intro hlead
  obtain ⟨c, r, hcr, hbegins, hk⟩ := h.lead hF names
  obtain ⟨rfl, rfl⟩ := List.cons.inj (hlead.symm.trans hcr)
  cases t with
  | float | str | param => exact absurd hbegins (by simp [Begins])
  | symbol | int | ident | bool | null => cases hk

/-- Bound names differ behind the dollar sign. -/
theorem param_eq_of_tail_eq {i j : UInt32} (hi : i.toNat < (mapParams n).names.length)
    (hj : j.toNat < (mapParams n).names.length)
    (h : ((Token.param i).target (mapParams n).names).toList.tail =
      ((Token.param j).target (mapParams n).names).toList.tail) : i = j := by
  have hname {k : UInt32} (hk : k.toNat < (mapParams n).names.length) :
      ∃ name, (mapParams n).names[k.toNat]? = some name ∧
      (Token.param k).target (mapParams n).names = name ∧
        name.toList = '$' :: name.toList.tail := by
    obtain ⟨c, r, hcr, -⟩ := exists_of_mem_names (List.getElem_mem hk)
    exact ⟨_, List.getElem?_eq_getElem hk, by simp [Token.target, hk], by rw [hcr]; rfl⟩
  obtain ⟨x, hx, hxtarget, hxtail⟩ := hname hi
  obtain ⟨y, hy, hytarget, hytail⟩ := hname hj
  have hxy : x = y := by
    rw [hxtarget, hytarget] at h
    rw [← String.toList_inj, hxtail, hytail, h]
  exact UInt32.toNat_inj.1
    ((List.getElem?_inj hi (nodup_names_mapParams n)).1 (by rw [hx, hy, hxy]))

/-- A token is known from its words, whatever follows them. -/
theorem eq_of_words_append (hF : Binary64.Distinct F) (ht : t.Writable n F) (ht' : t'.Writable n F)
    {l l' : List (List Char)}
    (h : t.words (mapParams n).names ++ l = t'.words (mapParams n).names ++ l') : t = t' := by
  obtain ⟨hlead, hfollow⟩ := List.cons.inj h
  obtain ⟨c, r, hcr, hbegins, hk⟩ := ht.lead hF (mapParams n).names
  obtain ⟨c', r', hcr', hbegins', hk'⟩ := ht'.lead hF (mapParams n).names
  obtain ⟨rfl, rfl⟩ : c = c' ∧ r = r' := List.cons.inj (hcr.symm.trans (hlead.trans hcr'))
  -- so both tokens are led by a lexeme of the same kind
  unfold Token.Leads at hk hk'
  split at hk <;> split at hk'
  · exact LexemeKind.token.inj (hk.symm.trans hk')
  · next hplain _ => simp [hk'.2 t hk] at hplain
  · next hplain' => simp [hk.2 t' hk'] at hplain'
  · next hplain hplain' =>
    -- neither is plain, and the first character tells the three sorts apart
    cases t with
    | float x =>
      cases t' with
      | float y => exact congrArg _ (hF.eq_of_literalText_eq x y ht ht' (String.toList_inj.1 hlead))
      | str | param =>
        obtain rfl := hbegins'
        cases hbegins
      | symbol | int | ident | bool | null => exact absurd rfl hplain'
    | str s =>
      obtain rfl := hbegins
      cases t' with
      | str s' => exact congrArg _ (Script.quote_injective (String.toList_inj.1 hlead))
      | float | param => cases hbegins'
      | symbol | int | ident | bool | null => exact absurd rfl hplain'
    | param i =>
      obtain rfl := hbegins
      cases t' with
      | param j => exact congrArg _ (param_eq_of_tail_eq ht ht' (List.cons.inj hfollow).1)
      | float | str => cases hbegins'
      | symbol | int | ident | bool | null => exact absurd rfl hplain'
    | symbol | int | ident | bool | null => exact absurd rfl hplain

/-- Tokens up to a lone equals sign are known from their words. -/
theorem eq_of_flatMap_words (hF : Binary64.Distinct F) {ts ts' : List Token}
    (hts : ∀ t ∈ ts, t.Writable n F) (hts' : ∀ t ∈ ts', t.Writable n F) {l l' : List (List Char)}
    (h : ts.flatMap (Token.words (mapParams n).names) ++ ['='] :: l =
      ts'.flatMap (Token.words (mapParams n).names) ++ ['='] :: l') : ts = ts' ∧ l = l' := by
  induction ts generalizing ts' with
  | nil =>
    cases ts' with
    | nil => exact ⟨rfl, (List.cons.inj h).2⟩
    | cons t' ts' =>
      exact absurd (List.cons.inj h).1.symm ((List.forall_mem_cons.1 hts').1.lead_ne hF _)
  | cons t ts ih =>
    obtain ⟨ht, hts⟩ := List.forall_mem_cons.1 hts
    cases ts' with
    | nil => exact absurd (List.cons.inj h).1 (ht.lead_ne hF _)
    | cons t' ts' =>
      obtain ⟨ht', htail'⟩ := List.forall_mem_cons.1 hts'
      rw [List.flatMap_cons, List.flatMap_cons, List.append_assoc, List.append_assoc] at h
      obtain rfl := eq_of_words_append hF ht ht' h
      obtain ⟨rfl, hl⟩ := ih hts htail' (List.append_cancel_left h)
      exact ⟨rfl, hl⟩

end Apart

end Dataflow
