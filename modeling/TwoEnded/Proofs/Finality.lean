/-
TwoEnded.Proofs.Finality — the end of a run is the end.

## §1 How a budget ends

A machine that runs is left by a budget in one of three ways (`execute_aftermath`): it still
runs; it has been stopped by an instruction, and the event says so; or it has run off the
end of its program (`RanOff`). Only in the third way, and only with tracing, does the
machine stop with an event that is not final: it shows its deque once more.

## §2 After the end

`Still m answers`: in these answers nothing happens any more. This is so for every session
of a machine that has stopped (`session_of_stopped`), since an interruption that is asked
for after the end is noted and never looked at.

## §3 Interruptions

A machine that runs and has been interrupted, once or more often, stops at the next
execution; no other execution fails as interrupted, since no instruction raises such a
fault.
-/
import TwoEnded.Proofs.Effects
import TwoEnded.Proofs.Reach
import TwoEnded.Proofs.Session

namespace TwoEnded

namespace Machine

/-! ## §1 How a budget ends -/

/-- The machine has just run off the end of its program, and has told this event: it shows
its deque if it is tracing, and says that it has stopped otherwise. -/
structure RanOff (event : Event) (m : Machine) : Prop where
  stopped : m.stopped = true
  atEnd : m.program.token? m.ip = none
  told : event = if m.tracing then .line m.deque.text else .stopped

/-- The three ways in which a cycle or a budget leaves a machine. -/
inductive Aftermath (event : Event) (m : Machine) : Prop
  | running (hf : event.isFinal = false) (hs : m.stopped = false) (hi : m.interrupted = false)
  | ended (hf : event.isFinal = true) (hs : m.stopped = true)
      (htoken : (m.program.token? m.ip).isSome = true)
  | ranOff (h : RanOff event m)

/-- An instruction that ends the run leaves the machine where it is. -/
theorem settle_ip_of_isFinal {m : Machine} {r : EStateM.Result Fault (Deque Value) Next}
    (h : (m.settle r).1.isFinal = true) : (m.settle r).2.ip = m.ip := by
  unfold settle at h ⊢
  split <;> simp_all [Event.isFinal]

theorem tick_aftermath {m : Machine} (hs : m.stopped = false) (hi : m.interrupted = false) :
    Aftermath m.tick.1 m.tick.2 := by
  obtain ⟨hnone, ht⟩ | ⟨i, -, -, -, ht⟩ | ⟨i, hsome, -, ht⟩ := tick_cases m
  · rw [ht]
    have hend : m.program.token? m.ip = none := by simpa [Program.instruction?_eq] using hnone
    exact .ranOff ⟨rfl, hend, rfl⟩
  · rw [ht]
    exact .running rfl hs hi
  · rw [ht]
    have hstop := settle_stopped m (i.perform m.deque)
    have hint := settle_interrupted m (i.perform m.deque)
    rw [hs, Bool.false_or] at hstop
    cases hf : (m.settle (i.perform m.deque)).1.isFinal with
    | false => exact .running hf (hstop.trans hf) (hint.trans hi)
    | true =>
      refine .ended hf (hstop.trans hf) ?_
      rw [settle_program, settle_ip_of_isFinal hf]
      exact Program.token?_of_instruction? hsome

theorem cycle_aftermath {m : Machine} (hs : m.stopped = false) (hi : m.interrupted = false)
    (budget : Nat) : Aftermath (m.cycle budget).1 (m.cycle budget).2 := by
  induction budget generalizing m with
  | zero => exact .running rfl hs hi
  | succ budget ih =>
    have htick := tick_aftermath hs hi
    rw [cycle]
    split
    · next m₁ ht =>
      obtain ⟨hs₁, hi₁⟩ := tick_running ht
      exact ih (hs₁.trans hs) (hi₁.trans hi)
    · next event m₁ _ ht =>
      rw [ht] at htick
      exact htick

/-- What a budget can do to a machine that runs. -/
theorem execute_aftermath {m m₁ : Machine} {budget : Nat} {event : Event} (hs : m.stopped = false)
    (hi : m.interrupted = false) (h : m.execute budget = (event, m₁)) : Aftermath event m₁ := by
  have hafter := cycle_aftermath hs hi budget
  rw [← execute_of_running hs hi, h] at hafter
  exact hafter

/-- A final event means that the machine has stopped. -/
theorem stopped_of_isFinal {m m₁ : Machine} {budget : Nat} {event : Event}
    (h : m.execute budget = (event, m₁)) (hf : event.isFinal = true) : m₁.stopped = true := by
  cases hs : m.stopped with
  | true =>
    rw [execute_of_stopped hs] at h
    cases h
    exact hs
  | false =>
    cases hi : m.interrupted with
    | true =>
      rw [execute_of_interrupted hs hi] at h
      cases h
      rfl
    | false =>
      cases execute_aftermath hs hi h with
      | running hf' => rw [hf] at hf'; cases hf'
      | ended _ hs₁ => exact hs₁
      | ranOff hoff => exact hoff.stopped

/-- A cycle that has something to tell ends the budget. -/
theorem cycle_of_telling {m m₁ : Machine} {event : Event} (h : m.tick = (event, m₁))
    (hne : event ≠ .running) (budget : Nat) : m.cycle (budget + 1) = (event, m₁) := by
  rw [cycle, h]
  cases event with
  | running => exact absurd rfl hne
  | _ => rfl

/-- A machine at the end of its program runs off it in its next cycle. -/
theorem execute_atEnd {m : Machine} (hs : m.stopped = false) (hi : m.interrupted = false)
    (hend : m.program.token? m.ip = none) (budget : Nat) : m.execute (budget + 1) = m.finish := by
  have hnone : m.program.instruction? m.ip = none := by simp [Program.instruction?_eq, hend]
  have htelling : m.finish.1 ≠ .running := by
    cases htr : m.tracing <;> simp [finish, htr]
  rw [execute_of_running hs hi]
  exact cycle_of_telling (tick_of_none hnone) htelling budget

/-! ## §2 After the end -/

/-- Nothing happens to the machine in these answers: every execution says that it has
stopped, and its address and its deque are as they were. -/
def Still (m : Machine) (answers : List (Option Event × Machine)) : Prop :=
  ∀ a ∈ answers, (a.1 = none ∨ a.1 = some .stopped) ∧ a.2.ip = m.ip ∧ a.2.deque = m.deque

theorem session_of_stopped {m : Machine} (h : m.stopped = true) (calls : List Call) :
    Still m (m.session calls) := by
  -- The machine may differ from `m` in that an interruption has been asked for.
  suffices hgen : ∀ n : Machine, n.stopped = true → n.ip = m.ip → n.deque = m.deque →
      Still m (n.session calls) from hgen m h rfl rfl
  induction calls with
  | nil => intro n _ _ _ a ha; cases ha
  | cons call calls ih =>
    intro n hn hip hdeque a ha
    cases call with
    | execute budget =>
      simp only [session, answer, execute_of_stopped hn, List.mem_cons] at ha
      rcases ha with rfl | ha
      · exact ⟨.inr rfl, hip, hdeque⟩
      · exact ih n hn hip hdeque a ha
    | interrupt =>
      simp only [session, answer, List.mem_cons] at ha
      rcases ha with rfl | ha
      · exact ⟨.inl rfl, hip, hdeque⟩
      · exact ih n.interrupt hn hip hdeque a ha

/-- An answer in a session is the answer to a call, and the answers after it are a session
of the machine that the call has left. -/
theorem session_eq_append {m : Machine} {calls : List Call}
    {before later : List (Option Event × Machine)} {a : Option Event × Machine}
    (h : m.session calls = before ++ a :: later) :
    ∃ m₀ call calls', a = answer m₀ call ∧ later = a.2.session calls' := by
  induction before generalizing m calls with
  | nil =>
    cases calls with
    | nil => cases h
    | cons call calls =>
      rw [session, List.nil_append, List.cons.injEq] at h
      exact ⟨m, call, calls, h.1.symm, by rw [← h.2, h.1]⟩
  | cons b before ih =>
    cases calls with
    | nil => cases h
    | cons call calls =>
      rw [session, List.cons_append, List.cons.injEq] at h
      exact ih h.2

theorem answer_eq_some {m m₁ : Machine} {call : Call} {event : Event}
    (h : m.answer call = (some event, m₁)) :
    ∃ budget, m.execute budget = (event, m₁) := by
  cases call with
  | execute budget =>
    cases h
    exact ⟨budget, rfl⟩
  | interrupt => cases h

end Machine

/-- Whether the event is the end of a run by the program's own wish or by a fault. -/
def Event.isEnding : Event → Bool
  | .exit => true
  | .failed _ => true
  | _ => false

theorem Event.isFinal_of_isEnding {event : Event} (h : event.isEnding = true) :
    event.isFinal = true := by
  cases event with
  | exit => rfl
  | failed _ => rfl
  | running => cases h
  | stopped => cases h
  | line _ => cases h

namespace Machine

theorem Still.countP_isEnding {m : Machine} {answers : List (Option Event × Machine)}
    (h : Still m answers) : answers.countP (fun a => a.1.any Event.isEnding) = 0 := by
  rw [List.countP_eq_zero]
  intro a ha
  obtain ⟨hnone | hstopped, -⟩ := h a ha
  · simp [hnone]
  · simp [hstopped, Event.isEnding]

/-- A session has at most one end. -/
theorem countP_isEnding_le_one (m : Machine) (calls : List Call) :
    (m.session calls).countP (fun a => a.1.any Event.isEnding) ≤ 1 := by
  induction calls generalizing m with
  | nil => exact Nat.zero_le _
  | cons call calls ih =>
    rw [session, List.countP_cons]
    split
    · next hending =>
      obtain ⟨event, hevent, hend⟩ := (Option.any_eq_true ..).mp hending
      obtain ⟨budget, hx⟩ := answer_eq_some (Prod.ext hevent rfl)
      have hstop := stopped_of_isFinal hx (Event.isFinal_of_isEnding hend)
      have hnone := (session_of_stopped hstop calls).countP_isEnding
      exact Nat.succ_le_succ (Nat.le_of_eq hnone)
    · exact ih _

/-! ## §3 Interruptions -/

theorem tick_failed {m m₁ : Machine} {f : Fault} (h : m.tick = (.failed f, m₁)) : f.Inner := by
  obtain ⟨-, ht⟩ | ⟨i, -, -, -, ht⟩ | ⟨i, -, -, ht⟩ := tick_cases m
  · rw [ht, finish] at h
    cases htr : m.tracing <;> simp [htr] at h
  · rw [ht, announce] at h
    cases h
  · rw [ht] at h
    unfold settle at h
    split at h <;> cases h
    · next fault deque hp =>
      show fault.Inner
      exact Instruction.perform_inner hp

theorem cycle_failed {m m₁ : Machine} {budget : Nat} {f : Fault}
    (h : m.cycle budget = (.failed f, m₁)) : f.Inner := by
  induction budget generalizing m with
  | zero => cases h
  | succ budget ih =>
    rw [cycle] at h
    split at h
    · exact ih h
    · next ht => exact tick_failed (ht.trans h)

/-- Only the execution of a machine that runs and has been interrupted fails as
interrupted. -/
theorem interrupted_of_execute {m m₁ : Machine} {budget : Nat} {f : Fault}
    (h : m.execute budget = (.failed f, m₁)) (hkind : f.kind = .interrupted) :
    m.stopped = false ∧ m.interrupted = true := by
  cases hs : m.stopped with
  | true => rw [execute_of_stopped hs] at h; cases h
  | false =>
    cases hi : m.interrupted with
    | true => exact ⟨rfl, rfl⟩
    | false =>
      rw [execute_of_running hs hi] at h
      have hinner := cycle_failed h
      rw [Fault.Inner, hkind] at hinner
      cases hinner

/-- Interruptions that are asked for again and again are one interruption. -/
theorem session_interrupts (m : Machine) (n : Nat) (calls : List Call) :
    m.session (List.replicate (n + 1) .interrupt ++ calls) =
      List.replicate (n + 1) (none, m.interrupt) ++ m.interrupt.session calls := by
  induction n generalizing m with
  | zero => rfl
  | succ n ih =>
    have hagain : m.interrupt.interrupt = m.interrupt := rfl
    rw [List.replicate_succ, List.cons_append, session]
    simp only [answer]
    rw [ih m.interrupt, hagain, ← List.cons_append, ← List.replicate_succ]

/-- **The end of a run is final.** For a machine in any state and every sequence of calls:

* after a final event every execution says that the machine has stopped, and address and
  deque stay as they are, whatever interruptions are asked for;
* so there is at most one event that is an exit or a fault;
* if the machine runs, any number of interruptions but zero makes the next execution, and no
  other, fail as interrupted at the address of the machine, which stays where it is;
* no execution fails as interrupted but that of a machine that runs and has been interrupted;
* if the machine runs with tracing and a budget takes it off the end of its program, then it
  shows its deque, and after that is still;
* at the end of its program any budget but zero does so. -/
theorem end_is_final (m : Machine) (calls : List Call) :
    (∀ (before later : List (Option Event × Machine)) (event : Event) (m₁ : Machine),
      m.session calls = before ++ (some event, m₁) :: later → event.isFinal = true →
        Still m₁ later) ∧
    (m.session calls).countP (fun a => a.1.any Event.isEnding) ≤ 1 ∧
    (m.stopped = false → ∀ n budget : Nat, ∃ (m₁ : Machine)
      (later : List (Option Event × Machine)),
      m.session (List.replicate (n + 1) .interrupt ++ .execute budget :: calls) =
        List.replicate (n + 1) (none, m.interrupt) ++
          (some (.failed ⟨.interrupted, some m.ip, none, ""⟩), m₁) :: later ∧
        m₁.ip = m.ip ∧ m₁.deque = m.deque ∧ Still m₁ later) ∧
    (∀ (budget : Nat) (f : Fault) (m₁ : Machine), m.execute budget = (.failed f, m₁) →
      f.kind = .interrupted → m.stopped = false ∧ m.interrupted = true) ∧
    (m.tracing = true → m.stopped = false → m.interrupted = false →
      (∀ (budget : Nat) (event : Event) (m₁ : Machine), m.execute budget = (event, m₁) →
        m₁.stopped = true → m₁.program.token? m₁.ip = none →
          event = .line m₁.deque.text ∧ Still m₁ (m₁.session calls)) ∧
      (m.program.token? m.ip = none → ∀ budget : Nat,
        m.execute (budget + 1) = (.line m.deque.text, { m with stopped := true }))) := by
  refine ⟨?_, countP_isEnding_le_one m calls, ?_, ?_, ?_⟩
  · intro before later event m₁ h hf
    obtain ⟨m₀, call, calls', ha, rfl⟩ := session_eq_append h
    obtain ⟨budget, hx⟩ := answer_eq_some ha.symm
    exact session_of_stopped (stopped_of_isFinal hx hf) calls'
  · intro hs n budget
    have hx := execute_of_interrupted (m := m.interrupt) hs rfl budget
    refine ⟨{ m with stopped := true, interrupted := false }, _, ?_, rfl, rfl,
      session_of_stopped rfl calls⟩
    rw [session_interrupts, session]
    simp only [answer, hx]
    rfl
  · intro budget f m₁ h hkind
    exact interrupted_of_execute h hkind
  · intro htr hs hi
    refine ⟨?_, ?_⟩
    · intro budget event m₁ h hstopped hend
      refine ⟨?_, session_of_stopped hstopped calls⟩
      cases execute_aftermath hs hi h with
      | running _ hs₁ => rw [hstopped] at hs₁; cases hs₁
      | ended _ _ htoken => rw [hend] at htoken; cases htoken
      | ranOff hoff =>
        have htr₁ : m₁.tracing = true := (execute_keeps h).2.trans htr
        rw [hoff.told, htr₁]
        rfl
    · intro hend budget
      rw [execute_atEnd hs hi hend, finish, htr]
      rfl

/-- A program that exits, interrupted before and after, and a machine past its end. -/
theorem end_is_final_exit_and_past :
    let p : Program := { tokens := #[⟨"exit"⟩], labels := ∅ }
    let m := start p false
    let past : Machine := { start p true with ip := 1, deque := .ofList [.int 7] }
    let calls : List Call := [.interrupt, .execute 0, .execute 3]
    (∃ (m₁ : Machine) (later : List (Option Event × Machine)),
      m.session (.execute 1 :: calls) = [] ++ (some .exit, m₁) :: later ∧ Still m₁ later) ∧
    (∃ (m₁ : Machine) (later : List (Option Event × Machine)),
      m.session (List.replicate 2 .interrupt ++ .execute 0 :: calls) =
        List.replicate 2 (none, m.interrupt) ++
          (some (.failed ⟨.interrupted, some 0, none, ""⟩), m₁) :: later ∧ Still m₁ later) ∧
    past.execute 1 = (.line "[7]", { past with stopped := true }) ∧
      Still { past with stopped := true } (session { past with stopped := true } calls) := by
  intro p m past calls
  have hexit : (m.execute 1).1 = .exit := by decide +kernel
  have hsession : m.session (.execute 1 :: calls) =
      [] ++ (some .exit, (m.execute 1).2) :: (m.execute 1).2.session calls := by
    rw [session]
    simp only [answer, hexit]
    rfl
  have hfirst := (end_is_final m (.execute 1 :: calls)).1 _ _ _ _ hsession rfl
  obtain ⟨m₁, later, hinterrupted, -, -, hstill⟩ := (end_is_final m calls).2.2.1 rfl 1 0
  have htraced := (end_is_final past calls).2.2.2.2 rfl rfl rfl
  have hline := htraced.2 rfl 0
  have htext : past.deque.text = "[7]" := by decide +kernel
  refine ⟨⟨_, _, hsession, hfirst⟩, ⟨m₁, later, hinterrupted, hstill⟩, ?_, ?_⟩
  · rw [hline, htext]
  · exact (htraced.1 1 _ _ hline rfl rfl).2

end Machine

end TwoEnded
