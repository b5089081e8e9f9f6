import Dataflow.Json.Number
import Dataflow.Text.Span

/-!
# Reading a JSON text

A text need not be a JSON value all the way. Its `Reading` is the value as far as it can be read: an
array or object tells how it ends, and a fault stands where the text stops making sense. Whoever
goes through a reading from front to back meets what the text says in the order in which it says it,
and the fault where it stands.

A fault inside a value is repeated as the ending of every array and object around it, so that
`Reading.fault?` need not look inside.
-/

namespace Dataflow

namespace Json

/-- What is wrong with a JSON text. -/
inductive Fault
  | endBeforeValue
  | endInScalar
  | endInObject
  | endInArray
  | endInString
  | expectedValue
  | expectedWord
  | invalidNumber
  | numberOutOfRange
  | expectedColon
  | expectedCommaOrBrace
  | expectedCommaOrBracket
  | trailingComma
  | keyNotString
  | trailingCharacters
  | invalidEscape
  | loneSurrogate
  | unpairedSurrogate
  | controlCharacter
  | tooDeep
deriving DecidableEq, Inhabited

/-- What is reported about a fault. -/
def Fault.message : Fault → String
  | endBeforeValue => "EOF while parsing a value"
  | endInScalar => "EOF while parsing a value"
  | endInObject => "EOF while parsing an object"
  | endInArray => "EOF while parsing a list"
  | endInString => "EOF while parsing a string"
  | expectedValue => "expected value"
  | expectedWord => "expected ident"
  | invalidNumber => "invalid number"
  | numberOutOfRange => "number out of range"
  | expectedColon => "expected `:`"
  | expectedCommaOrBrace => "expected `,` or `\x7d`"
  | expectedCommaOrBracket => "expected `,` or `]`"
  | trailingComma => "trailing comma"
  | keyNotString => "key must be a string"
  | trailingCharacters => "trailing characters"
  | invalidEscape => "invalid escape"
  | loneSurrogate => "lone leading surrogate in hex escape"
  | unpairedSurrogate => "unexpected end of hex escape"
  | controlCharacter => "control character (\\u0000-\\u001F) found while parsing a string"
  | tooDeep => "recursion limit exceeded"

/-- What stands somewhere: a scalar in full, of the others only that it is an array or an object. -/
inductive Shape
  | null
  | bool (b : Bool)
  | number (n : Number)
  | string (s : String)
  | array
  | object
deriving DecidableEq, Inhabited

/-- How an array or object ends: with its closing bracket, or at a fault. -/
inductive Ending
  | closed
  | fault (f : Fault)
deriving DecidableEq, Inhabited

/-- The fault at which an array or object ends. -/
def Ending.fault? : Ending → Option Fault
  | closed => none
  | fault f => some f

/-- A JSON text as far as it can be read. -/
inductive Reading
  | null
  | bool (b : Bool)
  | number (n : Number)
  | string (s : String)
  | array (items : List Reading) (ending : Ending)
  | object (members : List (String × Reading)) (ending : Ending)
  | broken (f : Fault)
deriving Inhabited

namespace Reading

/-- The first fault in a reading. -/
def fault? : Reading → Option Fault
  | broken f => some f
  | array _ e | object _ e => e.fault?
  | _ => none

/-- The shape of a value; the fault of a scalar that cannot be read. -/
def shape : Reading → Except Fault Shape
  | null => .ok .null
  | bool b => .ok (.bool b)
  | number n => .ok (.number n)
  | string s => .ok (.string s)
  | array .. => .ok .array
  | object .. => .ok .object
  | broken f => .error f

end Reading

/-- What follows a value, unless there was a fault in it. -/
abbrev Rest := Except Fault (List Char)

/-! ### Blanks and words -/

/-- The characters that may stand between the parts of a JSON text. -/
def isBlank (c : Char) : Bool := c == ' ' || c == '\n' || c == '\t' || c == '\r'

/-- A text without the blanks at its front. -/
def skipBlanks (cs : List Char) : List Char := cs.dropWhile isBlank

/-- The text after the letters of a word. -/
def afterWord : List Char → List Char → Rest
  | [], cs => .ok cs
  | _ :: _, [] => .error .endInScalar
  | w :: ws, c :: cs => if c == w then afterWord ws cs else .error .expectedWord

/-! ### Strings -/

/-- One step inside a string: the closing quote, a character that is written with so many more
characters after the first one, or a fault. -/
inductive StringPiece
  | close
  | char (c : Char) (extra : Nat)
  | fault (f : Fault)
deriving DecidableEq, Inhabited

/-- The value of a hexadecimal digit. -/
def hexDigit? (c : Char) : Option Nat :=
  if c.isDigit then some (c.toNat - '0'.toNat)
  else if 'a' ≤ c ∧ c ≤ 'f' then some (c.toNat - 'a'.toNat + 10)
  else if 'A' ≤ c ∧ c ≤ 'F' then some (c.toNat - 'A'.toNat + 10)
  else none

/-- The number that the four hexadecimal digits at the front of a text stand for. -/
def hexQuad (cs : List Char) : Except Fault Nat :=
  if byteLength (cs.take 4) < 4 then .error .endInString
  else
    match cs with
    | a :: b :: c :: d :: _ =>
      match hexDigit? a, hexDigit? b, hexDigit? c, hexDigit? d with
      | some a, some b, some c, some d => .ok (((a * 16 + b) * 16 + c) * 16 + d)
      | _, _, _, _ => .error .invalidEscape
    | _ => .error .invalidEscape

/-- The first half of a character beyond the basic plane. -/
def isHighSurrogate (n : Nat) : Bool := 0xD800 ≤ n && n ≤ 0xDBFF

/-- The second half of a character beyond the basic plane. -/
def isLowSurrogate (n : Nat) : Bool := 0xDC00 ≤ n && n ≤ 0xDFFF

/-- The rest of an escape after `\u`. A high surrogate needs a low one after it. -/
def unicodePiece (cs : List Char) : StringPiece :=
  match hexQuad cs with
  | .error f => .fault f
  | .ok n =>
    if isLowSurrogate n then .fault .loneSurrogate
    else if isHighSurrogate n then
      match cs.drop 4 with
      | [] | ['\\'] => .fault .endInString
      | '\\' :: 'u' :: ds =>
        match hexQuad ds with
        | .error f => .fault f
        | .ok m =>
          if isLowSurrogate m then
            .char (Char.ofNat (0x10000 + (n - 0xD800) * 0x400 + (m - 0xDC00))) 11
          else .fault .loneSurrogate
      | _ => .fault .unpairedSurrogate
    else .char (Char.ofNat n) 5

/-- The character that a backslash and a letter stand for. -/
def escaped? : Char → Option Char
  | '"' => some '"'
  | '\\' => some '\\'
  | '/' => some '/'
  | 'b' => some '\x08'
  | 'f' => some '\x0c'
  | 'n' => some '\n'
  | 'r' => some '\r'
  | 't' => some '\t'
  | _ => none

/-- The rest of an escape after the backslash. -/
def escapePiece : List Char → StringPiece
  | [] => .fault .endInString
  | 'u' :: cs => unicodePiece cs
  | e :: _ =>
    match escaped? e with
    | some c => .char c 1
    | none => .fault .invalidEscape

/-- The piece of a string at the front of the text `c :: cs`. -/
def stringPiece (c : Char) (cs : List Char) : StringPiece :=
  if c == '"' then .close
  else if c == '\\' then escapePiece cs
  else if c.toNat < 0x20 then .fault .controlCharacter
  else .char c 0

/-- The rest of a string after its opening quote, and the text after it. -/
def readStringChars : List Char → Except Fault (List Char × List Char)
  | [] => .error .endInString
  | c :: cs =>
    match stringPiece c cs with
    | .close => .ok ([], cs)
    | .fault f => .error f
    | .char d extra =>
      match readStringChars (cs.drop extra) with
      | .ok (ds, rest) => .ok (d :: ds, rest)
      | .error f => .error f
termination_by cs => cs.length
decreasing_by simp only [List.length_drop, List.length_cons]; omega

/-- The rest of a string after its opening quote, and the text after it. -/
def readString (cs : List Char) : Except Fault (String × List Char) :=
  match readStringChars cs with
  | .ok (ds, rest) => .ok (String.ofList ds, rest)
  | .error f => .error f

/-! ### Numbers -/

/-- The digits at the front of a text, and the text after them. At least one digit has to stand
there. -/
def readDigits (cs : List Char) : Except Fault (List Char × List Char) :=
  match cs with
  | [] => .error .endInScalar
  | c :: _ =>
    if c.isDigit then .ok (cs.takeWhile Char.isDigit, cs.dropWhile Char.isDigit)
    else .error .invalidNumber

/-- The digits before the point: no zero stands in front of another digit. -/
def readWhole (cs : List Char) : Except Fault (Nat × List Char) := do
  let (ds, rest) ← readDigits cs
  match ds with
  | '0' :: _ :: _ => .error .invalidNumber
  | ds => .ok (Nat.ofDigitChars 10 ds 0, rest)

/-- The point and the digits after it, if there is one. -/
def readFraction (cs : List Char) : Except Fault (List (Fin 10) × List Char) :=
  match cs with
  | '.' :: cs => do
    let (ds, rest) ← readDigits cs
    .ok (ds.map fun c => Fin.ofNat 10 (c.toNat - '0'.toNat), rest)
  | cs => .ok ([], cs)

/-- The power of ten, if there is one. -/
def readExponent (cs : List Char) : Except Fault (Option Int × List Char) :=
  match cs with
  | [] => .ok (none, [])
  | c :: r =>
    if c == 'e' || c == 'E' then
      match r with
      | '-' :: r => do
        let (ds, rest) ← readDigits r
        .ok (some (-(Nat.ofDigitChars 10 ds 0 : Int)), rest)
      | '+' :: r => do
        let (ds, rest) ← readDigits r
        .ok (some (Nat.ofDigitChars 10 ds 0 : Int), rest)
      | r => do
        let (ds, rest) ← readDigits r
        .ok (some (Nat.ofDigitChars 10 ds 0 : Int), rest)
    else .ok (none, cs)

/-- The numeral at the front of a text, after its sign. -/
def readNumeral (negative : Bool) (cs : List Char) : Except Fault (Numeral × List Char) := do
  let (whole, rest) ← readWhole cs
  let (fraction, rest) ← readFraction rest
  let (exponent, rest) ← readExponent rest
  .ok (⟨negative, whole, fraction, exponent⟩, rest)

/-- The number at the front of a text, after its sign. -/
def readNumber (negative : Bool) (cs : List Char) : Except Fault (Number × List Char) := do
  let (n, rest) ← readNumeral negative cs
  match n.number? with
  | some x => .ok (x, rest)
  | none => .error .numberOutOfRange

/-! ### Values -/

/-- A scalar, or the fault in it. -/
def scalar {α : Type} (f : α → Reading) : Except Fault (α × List Char) → Reading × Rest
  | .ok (a, rest) => (f a, .ok rest)
  | .error e => (.broken e, .error e)

/-- A word that stands for a value. -/
def word (v : Reading) : Rest → Reading × Rest
  | .ok rest => (v, .ok rest)
  | .error e => (.broken e, .error e)

/-- The scalar at the front of the text `c :: cs`. -/
def readScalar (c : Char) (cs : List Char) : Reading × Rest :=
  match c with
  | 'n' => word .null (afterWord ['u', 'l', 'l'] cs)
  | 't' => word (.bool true) (afterWord ['r', 'u', 'e'] cs)
  | 'f' => word (.bool false) (afterWord ['a', 'l', 's', 'e'] cs)
  | '"' => scalar .string (readString cs)
  | '-' => scalar .number (readNumber true cs)
  | c =>
    if c.isDigit then scalar .number (readNumber false (c :: cs))
    else (.broken .expectedValue, .error .expectedValue)

/-- Where the next item of an array stands: here, unless the array ends and `rest` follows it, or
there is a fault. -/
inductive NextItem
  | close (rest : List Char)
  | item (cs : List Char)
  | fault (f : Fault)

/-- Look for the next item of an array; `first` tells that none came before it. -/
def nextItem (first : Bool) (cs : List Char) : NextItem :=
  match skipBlanks cs with
  | [] => .fault .endInArray
  | ']' :: rest => .close rest
  | c :: cs =>
    if first then .item (c :: cs)
    else if c == ',' then
      match skipBlanks cs with
      | [] => .fault .endBeforeValue
      | ']' :: _ => .fault .trailingComma
      | cs => .item cs
    else .fault .expectedCommaOrBracket

/-- The items of an array, read with `value`, and what follows the array. -/
def readItems (value : List Char → Reading × Rest) (first : Bool) (cs : List Char) :
    List Reading × Rest :=
  match nextItem first cs with
  | .close rest => ([], .ok rest)
  | .fault f => ([], .error f)
  | .item ds =>
    match value ds with
    | (v, .error f) => ([v], .error f)
    | (v, .ok rest) =>
      if rest.length < cs.length then
        let (vs, rest) := readItems value false rest
        (v :: vs, rest)
      else ([v], .error .expectedValue)
termination_by cs.length

/-- Where the next member of an object stands: its name starts here, with the opening quote passed,
unless the object ends and `rest` follows it, or there is a fault. -/
inductive NextMember
  | close (rest : List Char)
  | name (cs : List Char)
  | fault (f : Fault)

/-- Look for the next member of an object; `first` tells that none came before it. -/
def nextMember (first : Bool) (cs : List Char) : NextMember :=
  match skipBlanks cs with
  | [] => .fault .endInObject
  | '\x7d' :: rest => .close rest
  | c :: cs =>
    if first then if c == '"' then .name cs else .fault .keyNotString
    else if c == ',' then
      match skipBlanks cs with
      | [] => .fault .endBeforeValue
      | '"' :: cs => .name cs
      | '\x7d' :: _ => .fault .trailingComma
      | _ => .fault .keyNotString
    else .fault .expectedCommaOrBrace

/-- The colon and the value after a name. -/
def readMemberValue (value : List Char → Reading × Rest) (cs : List Char) : Reading × Rest :=
  match skipBlanks cs with
  | [] => (.broken .endInObject, .error .endInObject)
  | ':' :: cs => value cs
  | _ => (.broken .expectedColon, .error .expectedColon)

/-- The members of an object, their values read with `value`, and what follows the object. -/
def readMembers (value : List Char → Reading × Rest) (first : Bool) (cs : List Char) :
    List (String × Reading) × Rest :=
  match nextMember first cs with
  | .close rest => ([], .ok rest)
  | .fault f => ([], .error f)
  | .name ds =>
    match readString ds with
    | .error f => ([], .error f)
    | .ok (k, ds) =>
      match readMemberValue value ds with
      | (v, .error f) => ([(k, v)], .error f)
      | (v, .ok rest) =>
        if rest.length < cs.length then
          let (ms, rest) := readMembers value false rest
          ((k, v) :: ms, rest)
        else ([(k, v)], .error .expectedValue)
termination_by cs.length

/-- The ending of an array or object, by what follows it. -/
def Ending.ofRest : Rest → Ending
  | .ok _ => .closed
  | .error f => .fault f

/-- The value at the front of a text, in which arrays and objects nest at most `depth` deep. -/
def readValue (depth : Nat) (cs : List Char) : Reading × Rest :=
  match skipBlanks cs, depth with
  | [], _ => (.broken .endBeforeValue, .error .endBeforeValue)
  | '[' :: _, 0 | '\x7b' :: _, 0 => (.broken .tooDeep, .error .tooDeep)
  | '[' :: cs, depth + 1 =>
    let (items, rest) := readItems (readValue depth) true cs
    (.array items (.ofRest rest), rest)
  | '\x7b' :: cs, depth + 1 =>
    let (members, rest) := readMembers (readValue depth) true cs
    (.object members (.ofRest rest), rest)
  | c :: cs, _ => readScalar c cs
termination_by structural depth

/-- How deep arrays and objects may nest. -/
def depthLimit : Nat := 127

/-- Read the value at the front of a text, and what follows it. -/
def read (text : String) : Reading × Rest := readValue depthLimit text.toList

end Json

end Dataflow
