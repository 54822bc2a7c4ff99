/-
TwoEnded.Opcode — the reserved words of the language.

Ten of them take two operands and leave one result: an `Operator`. The others
move values about, jump, print or end the run. `Opcode.name` gives the word for
an opcode and `Opcode.ofWord?` the opcode for a word; they are inverse to each
other (`ofWord?_eq_some_iff`). A word that is not reserved is an operand.
-/
import TwoEnded.Value

namespace TwoEnded

/-! ## Operators -/

/-- An operation with two operands and one result. -/
inductive Operator where
  | add
  | sub
  | shr
  | shl
  | eq
  | or
  | and
  | gt
  | lt
  | ge
  deriving DecidableEq, Repr

namespace Operator

/-- The word for an operator. -/
def name : Operator → String
  | .add => "add"
  | .sub => "sub"
  | .shr => "shr"
  | .shl => "shl"
  | .eq => "eq"
  | .or => "or"
  | .and => "and"
  | .gt => ">"
  | .lt => "<"
  | .ge => ">="

/-- The result, `first` being the operand nearer to the end of the deque. What is
taken away, and the count of a shift, is the first operand; a comparison reads
from the first operand to the second. -/
def apply (op : Operator) (first second : Value) : Except Fault Value :=
  match op with
  | .add => first.add second
  | .sub => second.sub first
  | .shr => second.shr first
  | .shl => second.shl first
  | .eq => .ok (first.equal second)
  | .or => .ok (first.or second)
  | .and => .ok (first.and second)
  | .gt => .ok (first.gt second)
  | .lt => .ok (first.lt second)
  | .ge => .ok (first.ge second)

end Operator

/-! ## Opcodes -/

/-- What a reserved word stands for. -/
inductive Opcode where
  | binary (op : Operator)
  | dup
  | swap
  | move
  | over
  | drop
  | jumpIf
  | jump
  | exit
  | print
  | trace
  deriving DecidableEq, Repr

namespace Opcode

/-- The word for an opcode. -/
def name : Opcode → String
  | .binary op => op.name
  | .dup => "dup"
  | .swap => "swap"
  | .move => "move"
  | .over => "over"
  | .drop => "drop"
  | .jumpIf => "jmpif"
  | .jump => "jmp"
  | .exit => "exit"
  | .print => "print"
  | .trace => "trace"

/-- The opcode for a reserved word. -/
def ofWord? : String → Option Opcode
  | "add" => some (.binary .add)
  | "sub" => some (.binary .sub)
  | "shr" => some (.binary .shr)
  | "shl" => some (.binary .shl)
  | "eq" => some (.binary .eq)
  | "or" => some (.binary .or)
  | "and" => some (.binary .and)
  | ">" => some (.binary .gt)
  | "<" => some (.binary .lt)
  | ">=" => some (.binary .ge)
  | "dup" => some .dup
  | "swap" => some .swap
  | "move" => some .move
  | "over" => some .over
  | "drop" => some .drop
  | "jmpif" => some .jumpIf
  | "jmp" => some .jump
  | "exit" => some .exit
  | "print" => some .print
  | "trace" => some .trace
  | _ => none

@[simp] theorem ofWord?_name (op : Opcode) : ofWord? op.name = some op := by
  cases op with
  | binary op => cases op <;> rfl
  | _ => rfl

theorem name_of_ofWord? {w : String} {op : Opcode} (h : ofWord? w = some op) : op.name = w := by
  unfold ofWord? at h
  split at h <;> cases h <;> rfl

/-- The reserved words are the names of the opcodes. -/
theorem ofWord?_eq_some_iff {w : String} {op : Opcode} : ofWord? w = some op ↔ w = op.name :=
  ⟨fun h => (name_of_ofWord? h).symm, fun h => h ▸ ofWord?_name op⟩

/-- How listings name what a word stands for: the opcode, or `<word>` for an
operand. -/
def listing : Option Opcode → String
  | some op => op.name
  | none => "<word>"

end Opcode

end TwoEnded
