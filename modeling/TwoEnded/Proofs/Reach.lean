/-
TwoEnded.Proofs.Reach — what all calls keep, because every cycle keeps it.

## §1 Invariants

An `Invariant` is a property of machines that every cycle keeps and that is not about
whether the machine has stopped or has been interrupted. Every call keeps it. The program
and the tracing of a machine are kept in this way.

## §2 Reachable machines

`m.Reaches m'`: some sequence of calls leads from `m` to `m'`. A call is an execution
with any budget, an interruption, or a run with any writer and any answers to its
questions, which may have ended well, failed, or been left by its writer. What holds of
`m` and is invariant holds of `m'` (`Invariant.reaches`).
-/
import TwoEnded.Proofs.Cycle
import TwoEnded.Run

namespace TwoEnded

namespace Machine

/-! ## §1 Invariants -/

/-- A property of machines that no cycle breaks, and that is about neither of the two
conditions: whether the machine has stopped, and whether it has been interrupted. -/
structure Invariant (P : Machine → Prop) : Prop where
  tick : ∀ {m : Machine}, P m → P m.tick.2
  condition : ∀ {m : Machine} (stopped interrupted : Bool), P m →
    P { m with stopped := stopped, interrupted := interrupted }

namespace Invariant

variable {P : Machine → Prop} (hP : Invariant P)

include hP

theorem cycle {m : Machine} (h : P m) (budget : Nat) : P (m.cycle budget).2 := by
  induction budget generalizing m with
  | zero => exact h
  | succ budget ih =>
    have hnext := hP.tick h
    rw [Machine.cycle]
    split
    · next m₁ ht =>
      rw [ht] at hnext
      exact ih hnext
    · next event m₁ _ ht =>
      rw [ht] at hnext
      exact hnext

theorem execute {m : Machine} (h : P m) (budget : Nat) : P (m.execute budget).2 := by
  unfold Machine.execute
  split
  · exact h
  · split
    · exact hP.condition true false h
    · exact hP.cycle h budget

end Invariant

/-- The machine has this program and this tracing. -/
theorem invariant_program (p : Program) (tracing : Bool) :
    Invariant fun m => m.program = p ∧ m.tracing = tracing where
  tick := by
    intro m h
    obtain ⟨hprogram, htracing, -⟩ := tick_keeps m
    exact ⟨hprogram.trans h.1, htracing.trans h.2⟩
  condition _ _ h := h

/-- A budget changes neither the program nor the tracing. -/
theorem execute_keeps {m m₁ : Machine} {budget : Nat} {event : Event}
    (h : m.execute budget = (event, m₁)) :
    m₁.program = m.program ∧ m₁.tracing = m.tracing := by
  have hkeeps := (invariant_program m.program m.tracing).execute ⟨rfl, rfl⟩ budget
  rw [h] at hkeeps
  exact hkeeps

/-! ## §2 Reachable machines -/

/-- Some sequence of calls leads from the first machine to the second. -/
inductive Reaches (m : Machine) : Machine → Prop
  | here : Reaches m m
  | execute {m₁ : Machine} (h : Reaches m m₁) (budget : Nat) : Reaches m (m₁.execute budget).2
  | interrupt {m₁ : Machine} (h : Reaches m m₁) : Reaches m m₁.interrupt
  | run {m₁ : Machine} {σ : Type} {writer : Writer σ} {polls : Nat → Bool} {slices : Nat}
      {output : σ} {r : Run σ} (h : Reaches m m₁)
      (hr : m₁.run slices polls writer output = some r) : Reaches m r.machine

namespace Invariant

variable {P : Machine → Prop} (hP : Invariant P)

include hP

theorem interrupt {m : Machine} (h : P m) : P m.interrupt :=
  hP.condition m.stopped true h

theorem slice {m : Machine} (h : P m) (interrupted : Bool) : P (m.slice interrupted).2 := by
  unfold Machine.slice
  split
  · exact hP.execute (hP.interrupt h) _
  · exact hP.execute h _

theorem runFrom {σ : Type} {writer : Writer σ} {polls : Nat → Bool} {slices asked : Nat}
    {m : Machine} {output : σ} {r : Run σ} (h : P m)
    (hr : Machine.runFrom writer polls slices asked m output = some r) : P r.machine := by
  induction slices generalizing asked m output with
  | zero => cases hr
  | succ slices ih =>
    have hslice := hP.slice h (polls asked)
    rw [Machine.runFrom] at hr
    cases hx : m.slice (polls asked) with
    | mk event m₁ =>
      rw [hx] at hslice hr
      cases event with
      | running => exact ih hslice hr
      | line text =>
        dsimp only at hr
        split at hr
        · exact ih hslice hr
        · cases hr; exact hslice
      | exit => cases hr; exact hslice
      | stopped => cases hr; exact hslice
      | failed fault => cases hr; exact hslice

/-- What holds of a machine holds of every machine that can be reached from it. -/
theorem reaches {m m' : Machine} (hreach : m.Reaches m') (h : P m) : P m' := by
  induction hreach with
  | here => exact h
  | execute _ budget ih => exact hP.execute ih budget
  | interrupt _ ih => exact hP.interrupt ih
  | run _ hr ih => exact hP.runFrom ih hr

end Invariant

end Machine

end TwoEnded
