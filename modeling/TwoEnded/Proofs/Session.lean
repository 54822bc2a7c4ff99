/-
TwoEnded.Proofs.Session — calls on a machine, one after the other.

A session is a list of calls, executions with any budget and interruptions in any
order. `Machine.session` gives the answer to every call: the event of an
execution, and the machine after the call. Statements about what a user of the
machine can observe are statements about sessions.

When a machine without tracing tells a line, the instruction that printed it lies
right behind the machine (`Machine.behind`).
-/
import TwoEnded.Proofs.Cycle

namespace TwoEnded

/-- A call on a machine. -/
inductive Call where
  | execute (budget : Nat)
  | interrupt
  deriving DecidableEq, Repr

namespace Machine

/-- What a call gives: the event, if it is an execution, and the machine after it. -/
def answer (m : Machine) : Call → Option Event × Machine
  | .execute budget => (some (m.execute budget).1, (m.execute budget).2)
  | .interrupt => (none, m.interrupt)

/-- The answers to the calls, each made on the machine that the call before has
left. -/
def session (m : Machine) : List Call → List (Option Event × Machine)
  | [] => []
  | call :: calls => m.answer call :: (m.answer call).2.session calls

/-- The instruction that lies before the next one in the program. -/
def behind (m : Machine) : Option Instruction := m.program.instruction? (m.ip - 1)

end Machine

end TwoEnded
