/-
TwoEnded.Instruction — what a token does to the deque.

An `Instruction` is a token made ready to run: the end it works on, and an
opcode or an operand whose worth is known. `Instruction.perform` is its meaning,
a transformer of the deque that ends in a `Next`, what the machine is to do
afterwards, or in a fault. After a fault the values that the instruction had
already removed are gone.
-/
import TwoEnded.Deque
import TwoEnded.Opcode

namespace TwoEnded

/-! ## Instructions -/

/-- What a word that is not reserved stands for. -/
inductive Operand where
  /-- A numeral in range, or the address of a label. -/
  | known (n : Int64)
  /-- A numeral out of range. -/
  | overflow
  /-- Neither a numeral nor a label. -/
  | undefined
  deriving DecidableEq, Repr

/-- The value that an operand stands for. -/
def Operand.value : Operand → Except Fault Value
  | .known n => .ok (.int n)
  | .overflow => .error (Fault.ofKind .overflow)
  | .undefined => .error (Fault.ofKind .undefinedLabel)

/-- A token made ready to run. -/
inductive Instruction where
  /-- The definition of a label, which does nothing. -/
  | landmark
  /-- A reserved word. -/
  | apply (side : Option Side) (op : Opcode)
  /-- An operand, to be added to the deque. -/
  | push (side : Option Side) (operand : Operand)
  deriving DecidableEq, Repr

/-- What the machine is to do after an instruction. -/
inductive Next where
  /-- Go on with the instruction that follows. -/
  | advance
  /-- Go on at an address. -/
  | jump (address : Nat)
  /-- Print a line and go on with the instruction that follows. -/
  | say (line : String)
  /-- End the run. -/
  | exit
  deriving DecidableEq, Repr

/-! ## Texts -/

/-- The deque in brackets, from left to right. -/
def Deque.text (d : Deque Value) : String :=
  "[" ++ ", ".intercalate (d.toList.map Value.text) ++ "]"

/-- The deque as a row of cells: a star for each value whose integer view is 1, a
space for any other. -/
def Deque.row (d : Deque Value) : String :=
  String.ofList (d.toList.map fun v => if v.word = 1 then '*' else ' ')

/-! ## Meaning -/

/-- The address that a value stands for. -/
def Value.address (v : Value) : Except Fault Nat :=
  if v.toInt < 0 then
    .error ((Fault.ofKind .invalidAddress).withDetail ("JUMP TO " ++ Numeral.write v.toInt))
  else .ok v.toInt.toNat

/-- A computation on the deque that may fail. -/
abbrev Action := EStateM Fault (Deque Value)

/-- A result that does not touch the deque. -/
@[inline] def Action.ofExcept {α : Type} : Except Fault α → Action α
  | .ok a => fun d => .ok a d
  | .error f => fun d => .error f d

/-- The meaning of an opcode at an end of the deque. -/
def Opcode.perform (side : Option Side) : Opcode → Action Next
  | .binary op => do
    let (first, second) ← Deque.popTwo side
    Deque.push side (← Action.ofExcept (op.apply first second))
    return .advance
  | .dup => do
    let first ← Deque.pop side
    Deque.push side first
    Deque.push side first
    return .advance
  | .swap => do
    let (first, second) ← Deque.popTwo side
    Deque.push side first
    Deque.push side second
    return .advance
  | .move => do
    let first ← Deque.pop side
    Deque.push (side.map Side.opposite) first
    return .advance
  | .over => do
    let (first, second) ← Deque.popTwo side
    Deque.push side second
    Deque.push side first
    Deque.push side second
    return .advance
  | .drop => do
    let _ ← Deque.pop side
    return .advance
  | .jumpIf => do
    let (target, condition) ← Deque.popTwo side
    if condition.isTruthy then
      return .jump (← Action.ofExcept target.address)
    else
      return .advance
  | .jump => do
    let target ← Deque.pop side
    return .jump (← Action.ofExcept target.address)
  | .exit => return .exit
  | .print => do
    let first ← Deque.pop side
    return .say first.text
  | .trace => fun d => .ok (.say d.row) d

/-- The meaning of an instruction. An operand is looked at before the end that it
goes to. -/
def Instruction.perform : Instruction → Action Next
  | .landmark => return .advance
  | .apply side op => op.perform side
  | .push side operand => do
    Deque.push side (← Action.ofExcept operand.value)
    return .advance

end TwoEnded
