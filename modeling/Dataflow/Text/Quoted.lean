import Dataflow.Text.Unprintable

/-!
# Quoting a text for a reader

Messages show a piece of text between double quotes. Quotes, backslashes and the common controls get
a backslash escape, every other character that would not be seen gets its number in hexadecimal, and
all else stands for itself.
-/

namespace Dataflow.Text

/-- A number in lowercase hexadecimal, without padding. -/
def hex (n : Nat) : List Char := Nat.toDigits 16 n

/-- How one character is shown between quotes. -/
def quotedChar (c : Char) : List Char :=
  match c with
  | '"' => ['\\', '"']
  | '\\' => ['\\', '\\']
  | '\n' => ['\\', 'n']
  | '\r' => ['\\', 'r']
  | '\t' => ['\\', 't']
  | '\x00' => ['\\', '0']
  | c =>
    if isUnprintable c then ['\\', 'u', '\x7b'] ++ hex c.toNat ++ ['\x7d']
    else [c]

/-- A text between double quotes, for messages. -/
def quoted (s : String) : String :=
  String.ofList ('"' :: s.toList.flatMap quotedChar ++ ['"'])

end Dataflow.Text
