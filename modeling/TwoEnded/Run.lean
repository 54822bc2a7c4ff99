/-
TwoEnded.Run — a machine driven to the end of its run.

`Machine.run` works in slices of `Machine.sliceCycles` cycles. Before each slice
it asks whether to interrupt, and it hands every line to a `Writer`. A run may
go on for ever, so it takes the number of slices that it may use and gives
`none` if they do not suffice; more slices never change a run that has ended
(`run_of_le`).

If the writer fails, the run ends with an input/output fault at the address the
machine has reached. The machine itself has not stopped, and a later run goes on
from there.
-/
import TwoEnded.Machine

namespace TwoEnded

/-! ## Writers -/

/-- Where lines go. `write` takes a text and the state of the output to the state
after it and, if the text could not be written in full, the reason. -/
structure Writer (σ : Type) where
  write : String → σ → Option String × σ

namespace Writer

/-- A writer that keeps the text written. -/
def text : Writer String where
  write text written := (none, written ++ text)

/-- A writer that keeps the bytes written and takes `limit` bytes in all. A text
that does not fit is written as far as it does. -/
def limited (limit : Nat) (reason : String) : Writer ByteArray where
  write text written :=
    let bytes := text.toUTF8
    if written.size + bytes.size ≤ limit then (none, written ++ bytes)
    else (some reason, written ++ bytes.extract 0 (limit - written.size))

end Writer

/-! ## Runs -/

/-- How a run ended that did not fail. -/
inductive Outcome where
  /-- The program asked for the end. -/
  | exit
  /-- The program ran off its end. -/
  | ended
  deriving DecidableEq, Repr

/-- A run that has ended: its result, and the machine and the output after it. -/
structure Run (σ : Type) where
  result : Except Fault Outcome
  machine : Machine
  output : σ

namespace Machine

/-- The cycles of a slice. -/
def sliceCycles : Nat := 5000

/-- One slice, before which the machine is interrupted if asked to. -/
def slice (interrupted : Bool) (m : Machine) : Event × Machine :=
  execute sliceCycles (if interrupted then m.interrupt else m)

/-- The fault of a line that could not be written. -/
def outputFault (m : Machine) (reason : String) : Fault :=
  ((Fault.ofKind .ioError).atAddress m.ip).withDetail reason

/-- Runs the machine for at most `slices` slices. The slice after the `i`-th
question is interrupted if `polls i`; `asked` counts the questions before. -/
def runFrom {σ : Type} (writer : Writer σ) (polls : Nat → Bool) :
    (slices asked : Nat) → Machine → σ → Option (Run σ)
  | 0, _, _, _ => none
  | slices + 1, asked, m, output =>
    match m.slice (polls asked) with
    | (.running, m) => runFrom writer polls slices (asked + 1) m output
    | (.line text, m) =>
      match writer.write (text ++ "\n") output with
      | (none, output) => runFrom writer polls slices (asked + 1) m output
      | (some reason, output) => some ⟨.error (m.outputFault reason), m, output⟩
    | (.exit, m) => some ⟨.ok .exit, m, output⟩
    | (.stopped, m) => some ⟨.ok .ended, m, output⟩
    | (.failed fault, m) => some ⟨.error fault, m, output⟩

/-- Runs the machine for at most `slices` slices, asking `polls 0`, `polls 1` and so
on before each whether to interrupt it. -/
def run {σ : Type} (slices : Nat) (polls : Nat → Bool) (writer : Writer σ) (output : σ)
    (m : Machine) : Option (Run σ) :=
  runFrom writer polls slices 0 m output

/-- A run that has ended is the same with more slices to use. -/
theorem runFrom_of_le {σ : Type} {writer : Writer σ} {polls : Nat → Bool} {r : Run σ} :
    ∀ {slices more asked : Nat} {m : Machine} {output : σ}, slices ≤ more →
      runFrom writer polls slices asked m output = some r →
      runFrom writer polls more asked m output = some r
  | 0, _, _, _, _, _, h => by simp [runFrom] at h
  | _ + 1, 0, _, _, _, hle, _ => by omega
  | slices + 1, more + 1, asked, m, output, hle, h => by
    have hle' : slices ≤ more := by omega
    simp only [runFrom] at h ⊢
    split at h
    · exact runFrom_of_le hle' h
    · next text m' hslice =>
      split at h
      · exact runFrom_of_le hle' h
      · exact h
    · exact h
    · exact h
    · exact h

theorem run_of_le {σ : Type} {writer : Writer σ} {polls : Nat → Bool} {output : σ} {r : Run σ}
    {slices more : Nat} {m : Machine} (hle : slices ≤ more)
    (h : m.run slices polls writer output = some r) : m.run more polls writer output = some r :=
  runFrom_of_le hle h

end Machine

end TwoEnded
