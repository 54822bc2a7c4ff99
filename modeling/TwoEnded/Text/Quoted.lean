/-
TwoEnded.Text.Quoted — text as diagnostics show it.

A quoted text stands in double quotes. A double quote, a backslash, a tab, a
line feed, a carriage return and the null character are written with a
backslash and one character. Any other character that would not show by itself,
because it is unprintable or attaches to the character before it, is written as
its code point in lower-case hexadecimal digits, without padding and in braces.
All else, the single quote included, is written as it is.
-/
import TwoEnded.Text.Extending
import TwoEnded.Text.Unprintable

namespace TwoEnded.Text

/-- Whether a character shows by itself. In the ASCII range those do that print,
the space included. -/
def showsAlone (c : Char) : Bool :=
  if c.toNat < 0x7F then 0x20 ≤ c.toNat else !isUnprintable c && !isExtending c

/-- A character inside a quoted text. -/
def escape (c : Char) : List Char :=
  match c with
  | '"' => ['\\', '"']
  | '\\' => ['\\', '\\']
  | '\t' => ['\\', 't']
  | '\n' => ['\\', 'n']
  | '\r' => ['\\', 'r']
  | c =>
    if c.toNat = 0 then ['\\', '0']
    else if showsAlone c then [c]
    else ['\\', 'u', '\x7b'] ++ Nat.toDigits 16 c.toNat ++ ['\x7d']

/-- The text in double quotes. -/
def quoted (text : String) : String :=
  String.ofList ('"' :: text.toList.flatMap escape ++ ['"'])

end TwoEnded.Text
