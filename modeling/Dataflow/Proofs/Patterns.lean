import Mathlib.Computability.Language
import Mathlib.Data.List.Forall2
import Mathlib.Data.Nat.Digits.Defs
import Dataflow.Token.Lexer

/-!
# Patterns of tokens

What the tokens of the expression language look like, said without the lexer: each token has a
pattern, which is a regular language over characters, and a text of this pattern stands for one
value.

* `Token.pattern` is the pattern of a token, and `Matches` says that a text has the pattern of some
  token.
* `Token.Means` is the value of a text: decimal digits for numbers, the text with its escapes undone
  for strings.
* `Refused` says that a text has a pattern, but no value.
* `Longest` is the longest beginning of a text that has a pattern.

Each pattern comes with a lemma that says what its texts are.
-/

namespace Dataflow

open scoped Computability

/-! ### Languages -/

namespace Pattern

/-- One character of a class. -/
def one (p : Char → Prop) : Language Char := {cs | ∃ c, p c ∧ cs = [c]}

/-- One repetition or more. -/
def plus (l : Language Char) : Language Char := l * l∗

/-- The pattern `[0-9]+`. -/
def digits : Language Char := plus (one fun c => c.isDigit = true)

/-- The pattern `[eE][+-]?[0-9]+`. -/
def exponent : Language Char := one (· ∈ ['e', 'E']) * (1 + one (· ∈ ['+', '-'])) * digits

/-- The pattern `\$[0-9]+`. -/
def param : Language Char := {['$']} * digits

/-- The pattern `[0-9]+\.[0-9]+([eE][+-]?[0-9]+)?`. -/
def float : Language Char := digits * {['.']} * digits * (1 + exponent)

/-- The pattern `[^"\\]|\\.`, where the dot is not a line break. -/
def piece : Language Char := one (fun c => c ≠ '"' ∧ c ≠ '\\') + {['\\']} * one (· ≠ '\n')

/-- The pattern `"([^"\\]|\\.)*"`. -/
def string : Language Char := {['"']} * piece∗ * {['"']}

/-- The pattern `[a-zA-Z_][a-zA-Z0-9_]*`. -/
def name : Language Char :=
  one (fun c => c.isAlpha = true ∨ c = '_') * (one fun c => c.isAlphanum = true ∨ c = '_')∗

end Pattern

/-- The pattern of a token; the value of the token does not matter but for keywords. -/
def Token.pattern : Token → Language Char
  | bool true => {"true".toList}
  | bool false => {"false".toList}
  | null => {"null".toList}
  | symbol s => {s.text.toList}
  | param _ => Pattern.param
  | float _ => Pattern.float
  | int _ => Pattern.digits
  | str _ => Pattern.string
  | ident _ => Pattern.name

/-- A text has the pattern of some token. -/
def Matches (cs : List Char) : Prop := ∃ t : Token, cs ∈ t.pattern

/-- `Longest cs text`: of the beginnings of `cs` that have the pattern of some token, `text` is the
longest. -/
structure Longest (cs text : List Char) : Prop where
  isPrefix : text <+: cs
  isMatch : Matches text
  length_le : ∀ u, u <+: cs → Matches u → u.length ≤ text.length

/-! ### Values -/

/-- The number that decimal digits are, the last digit being the unit. -/
def decimal (ds : List Char) : Nat := Nat.ofDigits 10 (ds.reverse.map fun c => c.toNat - '0'.toNat)

/-- A number with a sign before it, which may be absent. -/
def signed (sign : List Char) (n : Nat) : Int := if sign = ['-'] then -n else n

/-- The exponent of a float, which may be absent, and its value. -/
inductive Exponent : List Char → Int → Prop
  | absent : Exponent [] 0
  | present {e : Char} {sign ds : List Char} (he : e ∈ ['e', 'E'])
      (hsign : sign ∈ [[], ['+'], ['-']])
      (hds : ds ∈ Pattern.digits) : Exponent (e :: (sign ++ ds)) (signed sign (decimal ds))

/-- The double nearest to the decimal number that a text is. -/
inductive Nearest : List Char → Binary64 → Prop
  | mk {whole fraction ex : List Char} {k : Int} (hwhole : whole ∈ Pattern.digits)
      (hfraction : fraction ∈ Pattern.digits) (hex : Exponent ex k) :
      Nearest (whole ++ '.' :: fraction ++ ex)
        (Binary64.ofDecimal false (decimal (whole ++ fraction)) (k - fraction.length))

/-- A piece of a string literal and the character that it stands for. -/
inductive Stands : List Char → Char → Prop
  | plain {c : Char} : c ≠ '"' → c ≠ '\\' → Stands [c] c
  | quote : Stands ['\\', '"'] '"'
  | backslash : Stands ['\\', '\\'] '\\'
  | newline : Stands ['\\', 'n'] '\n'
  | tab : Stands ['\\', 't'] '\t'

/-- A token has the value that a text of its pattern stands for. -/
def Token.Means : Token → List Char → Prop
  | param i, text => ∃ ds, text = '$' :: ds ∧ decimal ds < 2 ^ 32 ∧ i.toNat = decimal ds
  | int n, text => decimal text < 2 ^ 63 ∧ n.toInt = decimal text
  | float x, text => Nearest text x ∧ x.isFinite = true
  | str s, text => ∃ ps, text = '"' :: ps.flatten ++ ['"'] ∧ List.Forall₂ Stands ps s.toList
  | ident n, text => text = n.toList
  | bool b, text => text = (if b then "true" else "false").toList
  | null, text => text = "null".toList
  | symbol s, text => text = s.text.toList

/-- A text has the pattern of a token that carries a value, but the value is not accepted. -/
inductive Refused : List Char → Prop
  | param {ds : List Char} (hds : ds ∈ Pattern.digits) (h : 2 ^ 32 ≤ decimal ds) :
      Refused ('$' :: ds)
  | int {ds : List Char} (hds : ds ∈ Pattern.digits) (h : 2 ^ 63 ≤ decimal ds) : Refused ds
  | float {text : List Char} {x : Binary64} (hx : Nearest text x) (h : x.isFinite = false) :
      Refused text
  | str {ps : List (List Char)} {e : Char} (hps : ∀ p ∈ ps, p ∈ Pattern.piece) (he : ['\\', e] ∈ ps)
      (h : e ∉ ['"', '\\', 'n', 't']) : Refused ('"' :: ps.flatten ++ ['"'])

/-- A keyword of the language. -/
def Token.IsKeyword (t : Token) : Prop := t = .bool true ∨ t = .bool false ∨ t = .null

/-- The texts of the keywords. -/
def keywords : List (List Char) := ["true".toList, "false".toList, "null".toList]

theorem digitsValue_eq_decimal (ds : List Char) : digitsValue ds = decimal ds := by
  rw [digitsValue, Nat.ofDigitChars_eq_foldl, decimal, Nat.ofDigits_eq_foldr, List.foldr_map,
    List.foldr_reverse]
  congr 1
  funext n c
  exact Nat.add_comm _ _

/-! ### The texts of patterns -/

namespace Pattern

variable {p : Char → Prop} {cs : List Char}

theorem mem_singleton {w : List Char} : cs ∈ ({w} : Language Char) ↔ cs = w := Iff.rfl

theorem mem_kstar_one : cs ∈ (one p)∗ ↔ ∀ c ∈ cs, p c := by
  rw [Language.mem_kstar]
  constructor
  · rintro ⟨l, rfl, hl⟩ c hc
    obtain ⟨w, hw, hcw⟩ := List.mem_flatten.1 hc
    obtain ⟨d, hd, rfl⟩ := hl w hw
    rwa [List.mem_singleton.1 hcw]
  · intro h
    refine ⟨cs.map fun c => [c], (List.flatMap_singleton' cs).symm, ?_⟩
    intro w hw
    obtain ⟨c, hc, rfl⟩ := List.mem_map.1 hw
    exact ⟨c, h c hc, rfl⟩

theorem mem_plus_one : cs ∈ plus (one p) ↔ cs ≠ [] ∧ ∀ c ∈ cs, p c := by
  rw [plus, Language.mem_mul]
  constructor
  · rintro ⟨a, ⟨c, hc, rfl⟩, b, hb, rfl⟩
    exact ⟨by simp, List.forall_mem_cons.2 ⟨hc, mem_kstar_one.1 hb⟩⟩
  · rintro ⟨hne, h⟩
    cases cs with
    | nil => exact absurd rfl hne
    | cons c cs =>
      obtain ⟨hc, hcs⟩ := List.forall_mem_cons.1 h
      exact ⟨[c], ⟨c, hc, rfl⟩, cs, mem_kstar_one.2 hcs, rfl⟩

theorem mem_digits : cs ∈ digits ↔ cs ≠ [] ∧ ∀ c ∈ cs, c.isDigit = true := mem_plus_one

theorem mem_param : cs ∈ param ↔ ∃ ds ∈ digits, cs = '$' :: ds := by
  simp only [param, Language.mem_mul, mem_singleton, exists_eq_left, List.singleton_append, eq_comm]

theorem mem_name :
    cs ∈ name ↔ ∃ c r, cs = c :: r ∧ isNameStart c = true ∧ ∀ d ∈ r, isNameChar d = true := by
  simp only [name, Language.mem_mul, mem_kstar_one, isNameStart, isNameChar, Bool.or_eq_true,
    beq_iff_eq]
  constructor
  · rintro ⟨a, ⟨c, hc, rfl⟩, r, hr, rfl⟩
    exact ⟨c, r, rfl, hc, hr⟩
  · rintro ⟨c, r, rfl, hc, hr⟩
    exact ⟨[c], ⟨c, hc, rfl⟩, r, hr, rfl⟩

theorem mem_optional_sign : cs ∈ 1 + one (· ∈ ['+', '-']) ↔ cs ∈ [[], ['+'], ['-']] := by
  rw [Language.mem_add, Language.mem_one]
  constructor
  · rintro (rfl | ⟨d, hd, rfl⟩)
    · simp
    · simpa using hd
  · intro h
    rcases List.mem_cons.1 h with rfl | h
    · exact .inl rfl
    · obtain ⟨d, hd, rfl⟩ := List.mem_map.1 (show cs ∈ ['+', '-'].map fun d => [d] from h)
      exact .inr ⟨d, hd, rfl⟩

theorem mem_optional_exponent : cs ∈ 1 + exponent ↔ ∃ k, Exponent cs k := by
  rw [Language.mem_add, Language.mem_one, exponent, Language.mem_mul]
  constructor
  · rintro (rfl | ⟨_, ⟨_, ⟨e, he, rfl⟩, sign, hsign, rfl⟩, ds, hds, rfl⟩)
    · exact ⟨0, .absent⟩
    · exact ⟨_, .present he (mem_optional_sign.1 hsign) hds⟩
  · rintro ⟨k, h⟩
    cases h with
    | absent => exact .inl rfl
    | @present e sign ds he hsign hds =>
      exact .inr ⟨e :: sign, ⟨[e], ⟨e, he, rfl⟩, sign, mem_optional_sign.2 hsign, rfl⟩, ds, hds,
        rfl⟩

theorem mem_float : cs ∈ float ↔ ∃ x, Nearest cs x := by
  rw [float, Language.mem_mul]
  constructor
  · rintro ⟨_, ⟨_, ⟨whole, hw, _, rfl, rfl⟩, fraction, hf, rfl⟩, ex, hex, rfl⟩
    obtain ⟨k, hk⟩ := mem_optional_exponent.1 hex
    exact ⟨_, by simpa using Nearest.mk hw hf hk⟩
  · rintro ⟨x, @⟨whole, fraction, ex, k, hw, hf, hk⟩⟩
    have hpoint : whole ++ ['.'] ∈ digits * {['.']} := ⟨whole, hw, ['.'], rfl, rfl⟩
    have hex : ex ∈ 1 + exponent := mem_optional_exponent.2 ⟨k, hk⟩
    exact ⟨whole ++ '.' :: fraction, ⟨whole ++ ['.'], hpoint, fraction, hf, by simp⟩, ex, hex, rfl⟩

theorem mem_piece :
    cs ∈ piece ↔ (∃ c, cs = [c] ∧ c ≠ '"' ∧ c ≠ '\\') ∨ ∃ c, cs = ['\\', c] ∧ c ≠ '\n' := by
  rw [piece, Language.mem_add, Language.mem_mul]
  constructor
  · rintro (⟨c, hc, rfl⟩ | ⟨_, rfl, _, ⟨c, hc, rfl⟩, rfl⟩)
    · exact .inl ⟨c, rfl, hc⟩
    · exact .inr ⟨c, rfl, hc⟩
  · rintro (⟨c, rfl, hc⟩ | ⟨c, rfl, hc⟩)
    · exact .inl ⟨c, hc, rfl⟩
    · exact .inr ⟨['\\'], rfl, [c], ⟨c, hc, rfl⟩, rfl⟩

theorem mem_string :
    cs ∈ string ↔
      ∃ ps : List (List Char), (∀ p ∈ ps, p ∈ piece) ∧ cs = '"' :: ps.flatten ++ ['"'] := by
  rw [string, Language.mem_mul]
  constructor
  · rintro ⟨_, ⟨_, rfl, body, hbody, rfl⟩, _, rfl, rfl⟩
    obtain ⟨ps, rfl, hps⟩ := Language.mem_kstar.1 hbody
    exact ⟨ps, hps, rfl⟩
  · rintro ⟨ps, hps, rfl⟩
    exact ⟨'"' :: ps.flatten, ⟨['"'], rfl, ps.flatten, Language.join_mem_kstar hps, rfl⟩, ['"'],
      rfl, rfl⟩

end Pattern

end Dataflow
