/-
TwoEnded.Fault — what can go wrong, and how it is told.

A `Fault` is a cause (`FaultKind`) with the place where it arose, as far as
that is known, and a detail in words. The parts of the machine raise faults
without a place; the machine adds the address and the token when it stops
(`Fault.located`), and never overwrites a place that is already there.

The wording is in one function, `Fault.message`:

    STACK UNDERFLOW AT 2 (`add!`)
    OUT OF MEMORY AT 1217 (`dup!`); DEQUE FULL
-/

namespace TwoEnded

/-! ## Kinds -/

/-- The cause of a fault. -/
inductive FaultKind where
  | duplicateLabel
  | undefinedLabel
  | directionRequired
  | stackUnderflow
  | overflow
  | outOfMemory
  | negativeShift
  | invalidAddress
  | interrupted
  | fileNotFound
  | ioError
  deriving DecidableEq, Repr

/-- The number by which a cause is known. Numbers 5 and 10 to 19 are not used;
those from 20 on are about the world outside the program. -/
def FaultKind.number : FaultKind → Nat
  | .duplicateLabel => 1
  | .undefinedLabel => 2
  | .directionRequired => 3
  | .stackUnderflow => 4
  | .overflow => 6
  | .outOfMemory => 7
  | .negativeShift => 8
  | .invalidAddress => 9
  | .interrupted => 20
  | .fileNotFound => 53
  | .ioError => 57

/-- The words for a cause. -/
def FaultKind.text : FaultKind → String
  | .duplicateLabel => "DUPLICATE LABEL"
  | .undefinedLabel => "UNDEFINED LABEL"
  | .directionRequired => "DIRECTION REQUIRED"
  | .stackUnderflow => "STACK UNDERFLOW"
  | .overflow => "OVERFLOW"
  | .outOfMemory => "OUT OF MEMORY"
  | .negativeShift => "NEGATIVE SHIFT COUNT"
  | .invalidAddress => "INVALID ADDRESS"
  | .interrupted => "BREAK"
  | .fileNotFound => "FILE NOT FOUND"
  | .ioError => "I/O ERROR"

/-! ## Faults -/

/-- A cause, the place where it arose if known, and a detail in words, which is
empty if there is nothing to add. -/
structure Fault where
  kind : FaultKind
  address : Option Nat := none
  token : Option String := none
  detail : String := ""
  deriving DecidableEq, Repr

namespace Fault

/-- A fault of which only the cause is known. -/
def ofKind (kind : FaultKind) : Fault where
  kind := kind

/-- The fault, said to have arisen at this address. -/
def atAddress (f : Fault) (address : Nat) : Fault :=
  { f with address := some address }

/-- The fault, said to have arisen in this token. -/
def inToken (f : Fault) (token : String) : Fault :=
  { f with token := some token }

/-- The fault with this detail. -/
def withDetail (f : Fault) (detail : String) : Fault :=
  { f with detail := detail }

/-- The fault with a place: address and token are filled in where they are
missing, and kept where they are known. -/
def located (f : Fault) (address : Nat) (token : String) : Fault :=
  { f with address := f.address.or (some address), token := f.token.or (some token) }

/-- The fault in words: the cause, then the address, the token and the detail,
each only if there is one. A token is told even if it is the empty text; a
detail that is empty is not. -/
def message (f : Fault) : String :=
  let place := match f.address with
    | some a => " AT " ++ Nat.repr a
    | none => ""
  let token := match f.token with
    | some t => " (`" ++ t ++ "`)"
    | none => ""
  let detail := if f.detail = "" then "" else "; " ++ f.detail
  f.kind.text ++ place ++ token ++ detail

/-- The fault as diagnostics show it. -/
def diagnostic (f : Fault) : String :=
  "Error \x7b " ++ f.message ++ " \x7d"

@[simp] theorem kind_located (f : Fault) (a : Nat) (t : String) :
    (f.located a t).kind = f.kind := rfl

@[simp] theorem detail_located (f : Fault) (a : Nat) (t : String) :
    (f.located a t).detail = f.detail := rfl

/-- Locating a second time changes nothing. -/
@[simp] theorem located_located (f : Fault) (a b : Nat) (t u : String) :
    (f.located a t).located b u = f.located a t := by
  cases f with
  | mk kind address token detail => cases address <;> cases token <;> rfl

end Fault

end TwoEnded
