/-
TwoEnded.Proofs.Cycle — what one cycle can do, and how a budget of cycles is
spent.

## §1 Settling

The cycle that performs an instruction does two things: the instruction works on
the deque, and the machine settles what comes of it (`Machine.settle`). The
second part knows neither the instruction nor the deque before it, so what a
performing cycle keeps of the machine is said once, about `settle`.

## §2 Cycles

`tick_cases` lists the three things a cycle can be: the end of the program, an
announcement, or the performance of an instruction.

## §3 Budgets

A budget that has been spent without an event leaves a machine that runs as
before. Hence `execute_add`: a budget can be cut in two at any place, for a
machine in any state.
-/
import TwoEnded.Machine

namespace TwoEnded

/-! ## §1 Settling -/

/-- Whether the run is over after the event. -/
def Event.isFinal : Event → Bool
  | .running => false
  | .line _ => false
  | .stopped => true
  | .exit => true
  | .failed _ => true

namespace Machine

/-- The machine after its instruction has come to a result. -/
def settle (m : Machine) : EStateM.Result Fault (Deque Value) Next → Event × Machine
  | .ok .advance deque =>
    (.running, { m with deque := deque, ip := m.ip + 1, announced := false })
  | .ok (.jump address) deque =>
    (.running, { m with deque := deque, ip := address, announced := false })
  | .ok (.say line) deque =>
    (.line line, { m with deque := deque, ip := m.ip + 1, announced := false })
  | .ok .exit deque =>
    (.exit, { m with deque := deque, announced := false, stopped := true })
  | .error fault deque =>
    (.failed (fault.located m.ip (m.tokenText m.ip)),
      { m with deque := deque, announced := false, stopped := true })

/-- To perform an instruction is to settle what it does to the deque. -/
theorem perform_eq_settle (m : Machine) (i : Instruction) :
    m.perform i = m.settle (i.perform m.deque) := by
  obtain ⟨program, tracing, deque, ip, announced, stopped, interrupted⟩ := m
  simp only [perform, settle]
  split <;> simp_all [tokenText]

section Settle

variable (m : Machine) (r : EStateM.Result Fault (Deque Value) Next)

@[simp] theorem settle_program : (m.settle r).2.program = m.program := by
  unfold settle; split <;> rfl

@[simp] theorem settle_tracing : (m.settle r).2.tracing = m.tracing := by
  unfold settle; split <;> rfl

@[simp] theorem settle_interrupted : (m.settle r).2.interrupted = m.interrupted := by
  unfold settle; split <;> rfl

/-- A performing cycle stops the machine exactly if its event is final. -/
@[simp] theorem settle_stopped :
    (m.settle r).2.stopped = (m.stopped || (m.settle r).1.isFinal) := by
  unfold settle; split <;> simp [Event.isFinal]

end Settle

/-- A machine goes on after a performance whose event is not final. -/
theorem settle_goes_on {m m' : Machine} {r : EStateM.Result Fault (Deque Value) Next}
    {event : Event} (h : m.settle r = (event, m')) (hf : event.isFinal = false) :
    m'.stopped = m.stopped ∧ m'.interrupted = m.interrupted := by
  have hstop := settle_stopped m r
  have hint := settle_interrupted m r
  rw [h] at hstop hint
  exact ⟨by simpa [hf] using hstop, hint⟩

/-! ## §2 Cycles -/

/-- What a cycle can be. -/
theorem tick_cases (m : Machine) :
    (m.program.instruction? m.ip = none ∧ m.tick = m.finish) ∨
    (∃ i, m.program.instruction? m.ip = some i ∧ m.tracing = true ∧ m.announced = false ∧
      m.tick = m.announce) ∨
    (∃ i, m.program.instruction? m.ip = some i ∧ (m.tracing && !m.announced) = false ∧
      m.tick = m.settle (i.perform m.deque)) := by
  unfold tick
  cases hi : m.program.instruction? m.ip with
  | none => exact .inl ⟨rfl, rfl⟩
  | some i =>
    cases hann : m.tracing && !m.announced with
    | true =>
      have hflags : m.tracing = true ∧ m.announced = false := by simpa using hann
      exact .inr (.inl ⟨i, rfl, hflags.1, hflags.2, rfl⟩)
    | false => exact .inr (.inr ⟨i, rfl, rfl, by simp [perform_eq_settle]⟩)

theorem instruction?_of_token? {p : Program} {address : Nat} {token : Token}
    (h : p.token? address = some token) :
    p.instruction? address = some (token.instruction p.labels) := by
  rw [Program.instruction?_eq, h]
  rfl

theorem instruction?_of_token?_none {p : Program} {address : Nat}
    (h : p.token? address = none) : p.instruction? address = none := by
  rw [Program.instruction?_eq, h]
  rfl

theorem tick_of_none {m : Machine} (h : m.program.instruction? m.ip = none) :
    m.tick = m.finish := by
  simp [tick, h]

theorem tick_of_some {m : Machine} {i : Instruction} (h : m.program.instruction? m.ip = some i)
    (hann : (m.tracing && !m.announced) = false) : m.tick = m.settle (i.perform m.deque) := by
  simp [tick, h, hann, perform_eq_settle]

/-- A cycle keeps the program, and it neither begins nor ends tracing. -/
theorem tick_keeps (m : Machine) :
    m.tick.2.program = m.program ∧ m.tick.2.tracing = m.tracing ∧
      m.tick.2.interrupted = m.interrupted := by
  obtain ⟨-, ht⟩ | ⟨i, -, -, -, ht⟩ | ⟨i, -, -, ht⟩ := tick_cases m
  · rw [ht]
    exact ⟨rfl, rfl, rfl⟩
  · rw [ht]
    exact ⟨rfl, rfl, rfl⟩
  · rw [ht]
    exact ⟨settle_program .., settle_tracing .., settle_interrupted ..⟩

/-- A cycle that has nothing to tell neither stops the machine nor asks for an
interruption. -/
theorem tick_running {m m' : Machine} (h : m.tick = (.running, m')) :
    m'.stopped = m.stopped ∧ m'.interrupted = m.interrupted := by
  obtain ⟨-, ht⟩ | ⟨i, -, -, -, ht⟩ | ⟨i, -, -, ht⟩ := tick_cases m
  · rw [ht, finish] at h
    cases htr : m.tracing <;> simp [htr] at h
  · rw [ht, announce] at h
    cases h
  · rw [ht] at h
    exact settle_goes_on h rfl

/-! ## §3 Budgets -/

theorem cycle_running {budget : Nat} {m m' : Machine} (h : m.cycle budget = (.running, m')) :
    m'.stopped = m.stopped ∧ m'.interrupted = m.interrupted := by
  induction budget generalizing m with
  | zero =>
    rw [cycle] at h
    cases h
    exact ⟨rfl, rfl⟩
  | succ budget ih =>
    rw [cycle] at h
    split at h
    · next m₁ ht =>
      obtain ⟨hs, hi⟩ := tick_running ht
      obtain ⟨hs', hi'⟩ := ih h
      exact ⟨hs'.trans hs, hi'.trans hi⟩
    · next event m₁ hne _ =>
      cases h
      exact absurd rfl hne

/-- A budget of one cycle is a cycle. -/
theorem cycle_one (m : Machine) : m.cycle 1 = m.tick := by
  rw [cycle]
  split
  · next m' h => rw [h, cycle]
  · next event m' _ h => rw [h]

theorem execute_one {m : Machine} (hs : m.stopped = false) (hi : m.interrupted = false) :
    m.execute 1 = m.tick := by
  rw [execute_of_running hs hi, cycle_one]

theorem execute_of_interrupted {m : Machine} (hs : m.stopped = false) (hi : m.interrupted = true)
    (budget : Nat) :
    m.execute budget = (.failed ((Fault.ofKind .interrupted).atAddress m.ip),
      { m with interrupted := false, stopped := true }) := by
  simp [execute, hs, hi]

/-- Only a machine that runs can spend its budget, and it then still runs. -/
theorem execute_running {budget : Nat} {m m' : Machine} (h : m.execute budget = (.running, m')) :
    (m.stopped = false ∧ m.interrupted = false) ∧
      m'.stopped = false ∧ m'.interrupted = false := by
  cases hs : m.stopped with
  | true => rw [execute_of_stopped hs] at h; cases h
  | false =>
    cases hi : m.interrupted with
    | true => rw [execute_of_interrupted hs hi] at h; cases h
    | false =>
      rw [execute_of_running hs hi] at h
      obtain ⟨hs', hi'⟩ := cycle_running h
      exact ⟨⟨rfl, rfl⟩, hs'.trans hs, hi'.trans hi⟩

/-- A budget can be spent in two portions, the second only if the first had nothing
to tell. -/
theorem execute_add (first second : Nat) (m : Machine) :
    m.execute (first + second) =
      match m.execute first with
      | (.running, m') => m'.execute second
      | answer => answer := by
  cases hs : m.stopped with
  | true => simp [execute_of_stopped hs]
  | false =>
    cases hi : m.interrupted with
    | true => simp [execute_of_interrupted hs hi]
    | false =>
      rw [execute_of_running hs hi, execute_of_running hs hi, cycle_add]
      cases hc : m.cycle first with
      | mk event m' =>
        cases event with
        | running =>
          obtain ⟨hs', hi'⟩ := cycle_running hc
          simp only
          rw [execute_of_running (hs'.trans hs) (hi'.trans hi)]
        | _ => rfl

end Machine

end TwoEnded
