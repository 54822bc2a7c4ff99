/-
TwoEnded.Machine — the machine and its clock.

A `Machine` holds a program, the deque and the address of the next instruction.
It works in cycles: `Machine.tick` is one cycle and `Machine.execute` a budget of
them. It comes back with an `Event`: the budget is spent, a line is to be
printed, or the run is over. A machine that has stopped stays stopped.

With tracing on, each instruction takes two cycles: in the first the machine
announces the instruction with the deque before it, in the second it performs
it. At the end of the program it prints the deque once more.

An interruption is noted (`Machine.interrupt`) and takes effect at the beginning
of the next `execute`.
-/
import TwoEnded.Program

namespace TwoEnded

/-! ## State -/

/-- What the machine has to tell. -/
inductive Event where
  /-- The budget of cycles is spent. -/
  | running
  /-- The machine has stopped: the program ran off its end, now or before. -/
  | stopped
  /-- The program has asked for the end of the run. -/
  | exit
  /-- A line is to be printed. -/
  | line (text : String)
  /-- The run has failed. -/
  | failed (fault : Fault)
  deriving DecidableEq, Repr

/-- A machine with a program. -/
structure Machine where
  program : Program
  /-- Whether instructions are announced. -/
  tracing : Bool
  deque : Deque Value
  /-- The address of the next instruction. -/
  ip : Nat
  /-- Whether the next instruction has been announced. -/
  announced : Bool
  /-- Whether the run is over. -/
  stopped : Bool
  /-- Whether an interruption has been asked for. -/
  interrupted : Bool

namespace Machine

/-- A machine at the beginning of a program. -/
def start (program : Program) (tracing : Bool) : Machine where
  program := program
  tracing := tracing
  deque := .empty
  ip := 0
  announced := false
  stopped := false
  interrupted := false

/-- Asks for an interruption. -/
def interrupt (m : Machine) : Machine := { m with interrupted := true }

/-! ## Cycles -/

/-- The text of the token at an address; empty past the end. -/
def tokenText (m : Machine) (address : Nat) : String :=
  match m.program.token? address with
  | some token => token.text
  | none => ""

/-- The line that announces the next instruction. -/
def announcement (m : Machine) : String :=
  Nat.repr m.ip ++ ": " ++ m.tokenText m.ip ++ " <- " ++ m.deque.text

/-- The cycle past the end of the program. -/
def finish (m : Machine) : Event × Machine :=
  (if m.tracing then .line m.deque.text else .stopped, { m with stopped := true })

/-- The cycle that announces the next instruction. -/
def announce (m : Machine) : Event × Machine :=
  (.line m.announcement, { m with announced := true })

/-- The cycle that performs an instruction. -/
def perform (i : Instruction) : Machine → Event × Machine
  | ⟨program, tracing, deque, ip, _, stopped, interrupted⟩ =>
    match i.perform deque with
    | .ok .advance deque =>
      (.running, ⟨program, tracing, deque, ip + 1, false, stopped, interrupted⟩)
    | .ok (.jump address) deque =>
      (.running, ⟨program, tracing, deque, address, false, stopped, interrupted⟩)
    | .ok (.say line) deque =>
      (.line line, ⟨program, tracing, deque, ip + 1, false, stopped, interrupted⟩)
    | .ok .exit deque =>
      (.exit, ⟨program, tracing, deque, ip, false, true, interrupted⟩)
    | .error fault deque =>
      let m : Machine := ⟨program, tracing, deque, ip, false, true, interrupted⟩
      (.failed (fault.located ip (m.tokenText ip)), m)

/-- One cycle. -/
def tick (m : Machine) : Event × Machine :=
  match m.program.instruction? m.ip with
  | none => m.finish
  | some i => if m.tracing && !m.announced then m.announce else m.perform i

/-- Cycles until one has something to tell, or until the budget is spent. -/
def cycle : Nat → Machine → Event × Machine
  | 0, m => (.running, m)
  | budget + 1, m =>
    match m.tick with
    | (.running, m) => cycle budget m
    | (event, m) => (event, m)

/-- Cycles can be spent in two portions, the second only if the first had nothing to
tell. -/
theorem cycle_add (first second : Nat) (m : Machine) :
    cycle (first + second) m =
      match cycle first m with
      | (.running, m) => cycle second m
      | (event, m) => (event, m) := by
  induction first generalizing m with
  | zero => simp [cycle]
  | succ first ih =>
    rw [Nat.succ_add, cycle, cycle]
    split
    · exact ih _
    · next event m' hne _ =>
      cases event with
      | running => exact absurd rfl hne
      | _ => rfl

/-- Works for at most so many cycles. A machine that has stopped does nothing; one
that has been interrupted stops with a fault and spends no cycle. -/
def execute (budget : Nat) (m : Machine) : Event × Machine :=
  if m.stopped then (.stopped, m)
  else if m.interrupted then
    (.failed ((Fault.ofKind .interrupted).atAddress m.ip),
      { m with interrupted := false, stopped := true })
  else cycle budget m

theorem execute_of_stopped {m : Machine} (h : m.stopped = true) (budget : Nat) :
    m.execute budget = (.stopped, m) := by
  simp [execute, h]

theorem execute_of_running {m : Machine} (hs : m.stopped = false) (hi : m.interrupted = false)
    (budget : Nat) : m.execute budget = m.cycle budget := by
  simp [execute, hs, hi]

end Machine

end TwoEnded
