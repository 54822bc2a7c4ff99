/-
TwoEnded.Source — the tokens of a source text.

A source text is a sequence of lines. A line whose first character that is not
blank is a number sign is a remark and holds no token. The tokens of any other
line are its words, and only a space separates words.
-/
import TwoEnded.Text.Blank
import TwoEnded.Text.Split
import TwoEnded.Token

namespace TwoEnded

namespace Source

/-- Whether a line is a remark. -/
def isRemark (line : List Char) : Bool :=
  (line.dropWhile Text.isBlank).head? == some '#'

/-- The words of a line, of which a remark has none. -/
def lineWords (line : List Char) : List (List Char) :=
  if isRemark line then [] else Text.words line

/-- The words of a text, line after line. -/
def textWords (text : List Char) : List (List Char) :=
  (Text.lines text).flatMap lineWords

/-- The tokens of a source text. -/
def tokens (source : String) : List Token :=
  (textWords source.toList).map fun word => ⟨String.ofList word⟩

end Source

end TwoEnded
