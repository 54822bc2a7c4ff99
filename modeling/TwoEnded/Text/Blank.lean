/-
TwoEnded.Text.Blank — which characters are blank.

A character is blank if it has the Unicode property White_Space: the
twenty-five code points of `blankRanges`. The separators U+001C to U+001F and
the zero-width space U+200B are not among them.
-/
import TwoEnded.Text.Range

namespace TwoEnded.Text

/-- The code points with the property White_Space. -/
def blankRanges : Ranges :=
  [(0x09, 0x0D), (0x20, 0x20), (0x85, 0x85), (0xA0, 0xA0), (0x1680, 0x1680), (0x2000, 0x200A),
    (0x2028, 0x2029), (0x202F, 0x202F), (0x205F, 0x205F), (0x3000, 0x3000)]

/-- Whether a character is blank. -/
def isBlank (c : Char) : Bool := blankRanges.covers c

end TwoEnded.Text
