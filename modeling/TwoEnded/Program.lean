/-
TwoEnded.Program — programs ready to run.

A `Program` is a sequence of tokens with the table of its labels and its
instructions, which are worked out once when the program is loaded. The proof
field `code_eq` says that the instructions are those of the tokens, so that a
program is determined by its tokens and labels.

`Program.load` fails if and only if two tokens define the same label; the fault
names the second one. A word that is not reserved is looked up as a numeral
first and as a label second (`Labels.operand`).
-/
import Std.Data.TreeMap
import TwoEnded.Instruction
import TwoEnded.Source

namespace TwoEnded

/-! ## Labels -/

/-- The addresses of labels by name. -/
abbrev Labels := Std.TreeMap String Nat

namespace Labels

/-- The fault of a token that defines a label a second time. -/
def duplicateFault (address : Nat) (token : Token) (name : String) (first : Nat) : Fault :=
  (((Fault.ofKind .duplicateLabel).atAddress address).inToken token.text).withDetail
    ("LABEL `" ++ name ++ "` ALREADY DEFINED AT " ++ Nat.repr first)

/-- Adds the labels that the tokens define, the first of which has the given
address. -/
def collect (labels : Labels) (address : Nat) : List Token → Except Fault Labels
  | [] => .ok labels
  | token :: rest =>
    match token.label? with
    | none => collect labels (address + 1) rest
    | some name =>
      match labels[name]? with
      | some first => .error (duplicateFault address token name first)
      | none => collect (labels.insert name address) (address + 1) rest

/-- What a word that is not reserved stands for. -/
def operand (labels : Labels) (word : String) : Operand :=
  match Numeral.read word.toList with
  | .number n => .known n
  | .outOfRange => .overflow
  | .notNumeral =>
    match labels[word]? with
    | some address => .known (Int64.ofNat address)
    | none => .undefined

end Labels

/-- The token made ready to run. A token that defines a label does nothing unless
it is marked with an end. -/
def Token.instruction (labels : Labels) (token : Token) : Instruction :=
  let (side, word) := token.split
  if side.isNone && token.label?.isSome then .landmark
  else
    match Opcode.ofWord? word with
    | some op => .apply side op
    | none => .push side (labels.operand word)

/-! ## Programs -/

/-- A program ready to run. -/
structure Program where
  tokens : Array Token
  labels : Labels
  code : Array Instruction := tokens.map (Token.instruction labels)
  code_eq : code = tokens.map (Token.instruction labels) := by rfl

namespace Program

/-- Makes a program of tokens. -/
def load (tokens : List Token) : Except Fault Program :=
  match Labels.collect ∅ 0 tokens with
  | .ok labels => .ok { tokens := tokens.toArray, labels := labels }
  | .error fault => .error fault

/-- Makes a program of a source text. -/
def ofSource (source : String) : Except Fault Program := load (Source.tokens source)

/-- The number of tokens. -/
def size (p : Program) : Nat := p.tokens.size

/-- Whether there are no tokens. -/
def isEmpty (p : Program) : Bool := p.tokens.isEmpty

/-- The token at an address. -/
def token? (p : Program) (address : Nat) : Option Token := p.tokens[address]?

/-- The instruction at an address. -/
def instruction? (p : Program) (address : Nat) : Option Instruction := p.code[address]?

/-- The address of a label. -/
def label? (p : Program) (name : String) : Option Nat := p.labels[name]?

/-- The instruction at an address is that of the token there. -/
theorem instruction?_eq (p : Program) (address : Nat) :
    p.instruction? address = (p.token? address).map (Token.instruction p.labels) := by
  rw [instruction?, token?, p.code_eq, Array.getElem?_map]

theorem token?_of_instruction? {p : Program} {address : Nat} {i : Instruction}
    (h : p.instruction? address = some i) : (p.token? address).isSome = true := by
  rw [instruction?_eq] at h
  obtain ⟨token, htoken, -⟩ := Option.map_eq_some_iff.mp h
  rw [htoken, Option.isSome_some]

end Program

end TwoEnded
