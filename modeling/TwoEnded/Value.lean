/-
TwoEnded.Value — what the deque holds.

A value is a 64-bit integer or a boolean. Every operation but `or`, `and` and
the printed text sees a boolean as the integer 1 or 0, its integer view
(`Value.word`, `Value.toInt`).

## Operations

* `add`, `sub` are exact and fail with an overflow out of range.
* `shl`, `shr` refuse a negative count. A left shift fails with an overflow
  rather than lose a digit, and always for a count of 63 or more unless it
  shifts zero. A right shift rounds down and takes any count.
* `or`, `and` work on booleans if both values are booleans, and on the bits of
  the integer views otherwise.
* `equal`, `gt`, `lt`, `ge` compare integer views and give booleans.
-/
import TwoEnded.Fault
import TwoEnded.Numeral

namespace TwoEnded

/-- A value of the machine. -/
inductive Value where
  | int (n : Int64)
  | bool (b : Bool)
  deriving DecidableEq, Repr

namespace Value

/-! ## Views -/

/-- The integer view as a 64-bit word. -/
def word : Value → Int64
  | .int n => n
  | .bool b => if b then 1 else 0

/-- The integer view as a mathematical integer. -/
def toInt (v : Value) : Int := v.word.toInt

/-- A value counts as true unless its integer view is zero. -/
def isTruthy (v : Value) : Bool := v.word != 0

/-- The value as it is printed. -/
def text : Value → String
  | .int n => Numeral.write n.toInt
  | .bool true => "true"
  | .bool false => "false"

/-! ## Operations -/

/-- An integer value, if the integer is in range. -/
def checked (n : Int) : Except Fault Value :=
  if Numeral.fits n then .ok (.int (Int64.ofInt n)) else .error (Fault.ofKind .overflow)

/-- The exact sum. -/
def add (a b : Value) : Except Fault Value := checked (a.toInt + b.toInt)

/-- The exact difference. -/
def sub (a b : Value) : Except Fault Value := checked (a.toInt - b.toInt)

/-- `a` shifted left by `b` places. -/
def shl (a b : Value) : Except Fault Value :=
  if b.toInt < 0 then .error (Fault.ofKind .negativeShift)
  else if a.toInt = 0 then .ok (.int 0)
  else if 63 ≤ b.toInt then .error (Fault.ofKind .overflow)
  else checked (a.toInt * Int.pow 2 b.toInt.toNat)

/-- `a` shifted right by `b` places, rounded down. From 63 places on only the
sign is left. -/
def shr (a b : Value) : Except Fault Value :=
  if b.toInt < 0 then .error (Fault.ofKind .negativeShift)
  else .ok (.int (Int64.ofInt (a.toInt / Int.pow 2 (min b.toInt.toNat 63))))

/-- Disjunction of two booleans, or else of the bits. -/
def or : Value → Value → Value
  | .bool a, .bool b => .bool (a || b)
  | a, b => .int (a.word ||| b.word)

/-- Conjunction of two booleans, or else of the bits. -/
def and : Value → Value → Value
  | .bool a, .bool b => .bool (a && b)
  | a, b => .int (a.word &&& b.word)

/-- Whether the integer views are equal. -/
def equal (a b : Value) : Value := .bool (a.word == b.word)

/-- Whether `a` is greater than `b`. -/
def gt (a b : Value) : Value := .bool (decide (b.word < a.word))

/-- Whether `a` is less than `b`. -/
def lt (a b : Value) : Value := .bool (decide (a.word < b.word))

/-- Whether `a` is at least `b`. -/
def ge (a b : Value) : Value := .bool (decide (b.word ≤ a.word))

end Value

end TwoEnded
