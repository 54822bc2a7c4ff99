/-
TwoEnded.Numeral — 64-bit integers in decimal.

`Numeral.read` reads a word as an integer and tells three cases apart: the
word is a numeral in range, it leaves the range, or it is no numeral. The
word is read from left to right and the first trouble decides, so a word whose
digits leave the range before its first other character counts as out of range.

`Numeral.write` writes an integer with the fewest digits.
-/

namespace TwoEnded

namespace Numeral

/-- Whether an integer fits into 64 bits with sign. -/
def fits (n : Int) : Bool := -9223372036854775808 ≤ n && n ≤ 9223372036854775807

/-- What a word is when read as a numeral. -/
inductive Reading where
  /-- A numeral in range. -/
  | number (n : Int64)
  /-- A word that leaves the range at one of its digits. -/
  | outOfRange
  /-- A word with a character that is no digit, or without a digit. -/
  | notNumeral
  deriving DecidableEq, Repr

/-- The worth of a decimal digit. -/
def digit? (c : Char) : Option Nat :=
  if c.isDigit then some (c.toNat - '0'.toNat) else none

/-- Reads digits after a sign; `acc` is the worth of those already read. -/
def readDigits (negative : Bool) (acc : Int) : List Char → Reading
  | [] => .number (Int64.ofInt acc)
  | c :: cs =>
    match digit? c with
    | none => .notNumeral
    | some d =>
      let next := if negative then acc * 10 - d else acc * 10 + d
      if fits next then readDigits negative next cs else .outOfRange

/-- Takes an optional sign off a word: whether it is a minus, and the rest. -/
def sign : List Char → Bool × List Char
  | '-' :: cs => (true, cs)
  | '+' :: cs => (false, cs)
  | cs => (false, cs)

/-- Reads a word as a numeral: an optional sign and at least one digit. -/
def read (word : List Char) : Reading :=
  let (negative, digits) := sign word
  if digits.isEmpty then .notNumeral else readDigits negative 0 digits

/-- An integer in decimal. -/
def write : Int → String
  | .ofNat n => Nat.repr n
  | .negSucc n => "-" ++ Nat.repr (n + 1)

end Numeral

end TwoEnded
