/-
TwoEnded.Token — the words of a program with their marks.

A token is a piece of text. It is read in two ways:

* as the definition of a label, if it ends in a colon (`Token.label?`);
* as a word with a mark for the end it works on (`Token.split`): an exclamation
  mark in front means the left end, one behind means the right end, and the
  one in front counts if both are there.
-/
import TwoEnded.Side
import TwoEnded.Text.Quoted

namespace TwoEnded

/-- A token of a program. -/
structure Token where
  text : String
  deriving DecidableEq, Repr

namespace Token

/-- The name of the label that the token defines: its text without the colon at
the end. -/
def label? (t : Token) : Option String :=
  if t.text.toList.getLast? = some ':' then some (String.ofList t.text.toList.dropLast) else none

/-- The end that the token is marked with, and the word without the mark. -/
def split (t : Token) : Option Side × String :=
  match t.text.toList with
  | '!' :: word => (some .left, String.ofList word)
  | chars =>
    if chars.getLast? = some '!' then (some .right, String.ofList chars.dropLast)
    else (none, t.text)

/-- The end that the token is marked with. -/
def side (t : Token) : Option Side := t.split.1

/-- The word without the mark. -/
def word (t : Token) : String := t.split.2

/-- The token as diagnostics show it. -/
def diagnostic (t : Token) : String := Text.quoted t.text

end Token

end TwoEnded
