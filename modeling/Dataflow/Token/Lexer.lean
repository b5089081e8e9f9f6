import Dataflow.Text.Quoted
import Dataflow.Token.Basic

/-!
# Lexer of the expression language

The source is cut into lexemes, each the longest match at its place: a run of blanks, a token, or a
stretch that is refused. `munch` looks at the characters after the first one and says how many of
them belong to the lexeme, so that the lexemes cover the source by construction; `lexemesFrom`
repeats it, and `lex` keeps the tokens and the refused stretches.

A stretch is refused when

* its first character starts no token;
* it is a number or parameter out of range, or a string with an unknown escape;
* it is a string without an end: then it reaches to the end of the source, or up to a backslash that
  nothing but a line break or the end of the source follows.
-/

namespace Dataflow

/-! ### Character classes -/

/-- The characters between tokens. -/
def isBlank (c : Char) : Bool := c == ' ' || c == '\t' || c == '\r' || c == '\n'

/-- The first character of a name. -/
def isNameStart (c : Char) : Bool := c.isAlpha || c == '_'

/-- A later character of a name. -/
def isNameChar (c : Char) : Bool := c.isAlphanum || c == '_'

/-- A text is a name: not empty, of name characters, not starting with a digit. -/
def isIdentifier (s : String) : Bool :=
  match s.toList with
  | [] => false
  | c :: cs => isNameStart c && cs.all isNameChar

/-- The value of a list of decimal digits. -/
def digitsValue (ds : List Char) : Nat := Nat.ofDigitChars 10 ds 0

/-! ### Lexemes -/

/-- What a lexeme is: blanks between tokens, a token, or text that is none. -/
inductive LexemeKind
  | blank
  | token (t : Token)
  | refused
deriving DecidableEq, Inhabited

/-- A piece of the source; `start` is the byte offset of its first character. -/
structure Lexeme where
  kind : LexemeKind
  text : List Char
  start : Nat
deriving DecidableEq, Inhabited

/-- The place of a lexeme in the source. -/
def Lexeme.span (l : Lexeme) : Span := ⟨l.start, l.start + byteLength l.text⟩

/-- A longest match: what it is, and how many characters after the first one belong to it. -/
structure Munch where
  extra : Nat
  kind : LexemeKind
deriving DecidableEq, Inhabited

/-- A match that is a token if its value is accepted. -/
def Munch.ofToken? (extra : Nat) : Option Token → Munch
  | some t => ⟨extra, .token t⟩
  | none => ⟨extra, .refused⟩

/-! ### Names and keywords -/

/-- The token of a word. -/
def wordToken (word : List Char) : Token :=
  if word = "true".toList then .bool true
  else if word = "false".toList then .bool false
  else if word = "null".toList then .null
  else .ident (String.ofList word)

/-! ### Numbers -/

/-- A parameter index fits in 32 bits. -/
def paramToken? (ds : List Char) : Option Token :=
  if digitsValue ds < UInt32.size then some (.param (UInt32.ofNat (digitsValue ds))) else none

/-- An integer literal is below `2 ^ 63`. -/
def intToken? (ds : List Char) : Option Token :=
  if digitsValue ds < Nat.pow 2 63 then some (.int (Int64.ofNat (digitsValue ds))) else none

/-- A float literal is finite. -/
def floatToken? (whole fraction : List Char) (exponent : Int) : Option Token :=
  let x := Binary64.ofDecimal false (digitsValue (whole ++ fraction)) (exponent - fraction.length)
  if x.isFinite then some (.float x) else none

/-- The exponent part at the front of a text, as its length and value; absent unless a digit follows
the mark and the sign. -/
def exponentPart (cs : List Char) : Nat × Int :=
  match cs with
  | [] => (0, 0)
  | e :: rest =>
    if e == 'e' || e == 'E' then
      let (signs, rest) : List Char × List Char :=
        match rest with
        | '+' :: r => (['+'], r)
        | '-' :: r => (['-'], r)
        | r => ([], r)
      let ds := rest.takeWhile Char.isDigit
      if ds.isEmpty then (0, 0)
      else
        let n : Int := digitsValue ds
        (1 + signs.length + ds.length, if signs = ['-'] then -n else n)
    else (0, 0)

/-- The longest number that starts with the digit `c`. -/
def munchNumber (c : Char) (r : List Char) : Munch :=
  let whole := c :: r.takeWhile Char.isDigit
  match r.dropWhile Char.isDigit with
  | '.' :: r' =>
    let fraction := r'.takeWhile Char.isDigit
    if fraction.isEmpty then .ofToken? (whole.length - 1) (intToken? whole)
    else
      let (n, e) := exponentPart (r'.dropWhile Char.isDigit)
      .ofToken? (whole.length + fraction.length + n) (floatToken? whole fraction e)
  | _ => .ofToken? (whole.length - 1) (intToken? whole)

/-! ### Strings -/

/-- The inside of a string literal at the front of a text, and whether a closing quote follows it. A
backslash takes the next character with it, but no line break. -/
def stringBody : List Char → List Char × Bool
  | [] => ([], false)
  | '"' :: _ => ([], true)
  | ['\\'] => ([], false)
  | '\\' :: '\n' :: _ => ([], false)
  | '\\' :: c :: r =>
    let (body, closed) := stringBody r
    ('\\' :: c :: body, closed)
  | c :: r =>
    let (body, closed) := stringBody r
    (c :: body, closed)

/-- The character that a backslash and a letter stand for. -/
def escapedChar? : Char → Option Char
  | '"' => some '"'
  | '\\' => some '\\'
  | 'n' => some '\n'
  | 't' => some '\t'
  | _ => none

/-- The inside of a string literal with its escapes undone. -/
def unescape? : List Char → Option (List Char)
  | [] => some []
  | '\\' :: c :: r => do
    let c ← escapedChar? c
    let r ← unescape? r
    some (c :: r)
  | ['\\'] => none
  | c :: r => (unescape? r).map (c :: ·)

/-- The string literal after an opening quote. -/
def munchString (r : List Char) : Munch :=
  match stringBody r with
  | (body, true) => .ofToken? (body.length + 1) ((unescape? body).map (Token.str ∘ String.ofList))
  | (body, false) => ⟨body.length, .refused⟩

/-! ### Symbols -/

/-- The symbol at the front of a text, which starts with `c`. -/
def symbol? (c : Char) (r : List Char) : Option Symbol :=
  match c, r with
  | '(', _ => some .leftParen
  | ')', _ => some .rightParen
  | '[', _ => some .leftBracket
  | ']', _ => some .rightBracket
  | ',', _ => some .comma
  | '.', _ => some .dot
  | '+', _ => some .plus
  | '-', _ => some .minus
  | '*', _ => some .star
  | '/', _ => some .slash
  | '%', _ => some .percent
  | '!', '=' :: _ => some .notEqual
  | '!', _ => some .bang
  | '=', '=' :: _ => some .equal
  | '<', '=' :: _ => some .lessEqual
  | '<', _ => some .less
  | '>', '=' :: _ => some .greaterEqual
  | '>', _ => some .greater
  | '&', '&' :: _ => some .and
  | '|', '|' :: _ => some .or
  | _, _ => none

/-! ### The lexer -/

/-- The longest match at the front of the text `c :: r`. -/
def munch (c : Char) (r : List Char) : Munch :=
  if isBlank c then ⟨(r.takeWhile isBlank).length, .blank⟩
  else if isNameStart c then
    let more := r.takeWhile isNameChar
    ⟨more.length, .token (wordToken (c :: more))⟩
  else if c.isDigit then munchNumber c r
  else if c == '$' then
    let ds := r.takeWhile Char.isDigit
    if ds.isEmpty then ⟨0, .refused⟩ else .ofToken? ds.length (paramToken? ds)
  else if c == '"' then munchString r
  else
    match symbol? c r with
    | some s => ⟨s.text.length - 1, .token (.symbol s)⟩
    | none => ⟨0, .refused⟩

/-- The lexemes of a text that stands at a byte offset. -/
def lexemesFrom (offset : Nat) : List Char → List Lexeme
  | [] => []
  | c :: r =>
    let m := munch c r
    let text := c :: r.take m.extra
    ⟨m.kind, text, offset⟩ :: lexemesFrom (offset + byteLength text) (r.drop m.extra)
termination_by cs => cs.length
decreasing_by simp only [List.length_drop, List.length_cons]; omega

/-- The lexemes of a source, in order. -/
def lexemes (source : String) : List Lexeme := lexemesFrom 0 source.toList

/-- Text that is no token. -/
structure LexError where
  text : String
  span : Span
deriving DecidableEq, Inhabited

/-- What is reported about text that is no token. -/
def LexError.message (e : LexError) : String := "unexpected input: " ++ Text.quoted e.text

/-- The tokens of a source and the text that is none, both in order. -/
structure Lexed where
  tokens : List PlacedToken
  errors : List LexError
deriving DecidableEq, Inhabited

/-- The token of a lexeme, if it is one. -/
def Lexeme.token? (l : Lexeme) : Option PlacedToken :=
  match l.kind with
  | .token t => some ⟨t, l.span⟩
  | _ => none

/-- The error of a lexeme, if it is refused. -/
def Lexeme.error? (l : Lexeme) : Option LexError :=
  match l.kind with
  | .refused => some ⟨String.ofList l.text, l.span⟩
  | _ => none

/-- Cut a source into tokens; what is no token is set aside. -/
def lex (source : String) : Lexed :=
  { tokens := (lexemes source).filterMap Lexeme.token?
    errors := (lexemes source).filterMap Lexeme.error? }

end Dataflow
