/-
TwoEnded.Proofs.Tracing — tracing shows a run and does not change it.

## §1 Paths

`Path m steps result m'` is the run of `m` instruction by instruction: `steps`
lists every instruction that is performed, with the address, the token and the
deque just before it and the line it prints, `result` is how the run ends and
`m'` the machine after it. Neither cycles nor budgets nor announcements occur in
it, so it reads the same for a machine with tracing and for one without.

## §2 From paths to courses

A path gives the course of the machine both with and without tracing
(`Path.course`). With tracing, an instruction takes two cycles: in between the
machine is `ready`, that is, it has announced the instruction and not performed
it yet.

## §3 From courses to paths

A machine that has a course has a path (`Course.path`), by induction on the
course; the cycle that announces an instruction leaves the path as it is. Together
with §2 and the uniqueness of courses this shows that tracing is transparent.
-/
import TwoEnded.Proofs.Course

namespace TwoEnded

/-! ## §1 Paths -/

/-- An instruction as it was performed: its address, its token, the deque just
before it, and the line it printed, if it printed one. -/
structure Step where
  address : Nat
  token : Token
  deque : Deque Value
  line : Option String

namespace Step

/-- The line by which tracing announces the instruction. -/
def announcement (s : Step) : String :=
  Nat.repr s.address ++ ": " ++ s.token.text ++ " <- " ++ s.deque.text

/-- The lines that the step adds to the output. -/
def lines (tracing : Bool) (s : Step) : List String :=
  (if tracing then [s.announcement] else []) ++ s.line.toList

theorem lines_true : lines true = fun s => s.announcement :: s.line.toList := rfl

theorem lines_false : lines false = fun s => s.line.toList := rfl

end Step

namespace Machine

/-- The machine performs these instructions one after the other, the run ends with
this result, and the second machine is the one after it. -/
inductive Path : Machine → List Step → Except Fault Outcome → Machine → Prop
  | ended {m : Machine} (h : m.program.token? m.ip = none) :
      Path m [] (.ok .ended) { m with stopped := true }
  | exit {m m' : Machine} {token : Token} (h : m.program.token? m.ip = some token)
      (hp : m.perform (token.instruction m.program.labels) = (.exit, m')) :
      Path m [⟨m.ip, token, m.deque, none⟩] (.ok .exit) m'
  | fault {m m' : Machine} {token : Token} {f : Fault}
      (h : m.program.token? m.ip = some token)
      (hp : m.perform (token.instruction m.program.labels) = (.failed f, m')) :
      Path m [⟨m.ip, token, m.deque, none⟩] (.error f) m'
  | silent {m m₁ m' : Machine} {token : Token} {steps : List Step}
      {result : Except Fault Outcome} (h : m.program.token? m.ip = some token)
      (hp : m.perform (token.instruction m.program.labels) = (.running, m₁))
      (rest : Path m₁ steps result m') :
      Path m (⟨m.ip, token, m.deque, none⟩ :: steps) result m'
  | print {m m₁ m' : Machine} {token : Token} {text : String} {steps : List Step}
      {result : Except Fault Outcome} (h : m.program.token? m.ip = some token)
      (hp : m.perform (token.instruction m.program.labels) = (.line text, m₁))
      (rest : Path m₁ steps result m') :
      Path m (⟨m.ip, token, m.deque, some text⟩ :: steps) result m'

/-- The line at the end of the program, where the machine shows its deque. -/
def closing (tracing : Bool) (deque : Deque Value) : Except Fault Outcome → List String
  | .ok .ended => if tracing then [deque.text] else []
  | _ => []

/-! ## §2 From paths to courses -/

/-- The machine with tracing as given, before the announcement of the next
instruction. -/
def traced (m : Machine) (tracing : Bool) : Machine :=
  { m with tracing := tracing, announced := false }

/-- The machine with tracing as given, about to perform the next instruction. -/
def ready (m : Machine) (tracing : Bool) : Machine :=
  { m with tracing := tracing, announced := tracing }

/-- Tracing and announcements have no part in the performance of an instruction, and
after it the next one has not been announced. -/
theorem perform_flags (m : Machine) (i : Instruction) (tracing announced : Bool) :
    { m with tracing := tracing, announced := announced : Machine }.perform i =
      ((m.perform i).1, (m.perform i).2.traced tracing) := by
  rw [perform_eq_settle, perform_eq_settle]
  dsimp only
  cases i.perform m.deque with
  | ok next deque => cases next <;> rfl
  | error fault deque => rfl

theorem perform_traced {m m₁ : Machine} {i : Instruction} {event : Event}
    (hp : m.perform i = (event, m₁)) (tracing : Bool) :
    (m.traced tracing).perform i = (event, m₁.traced tracing) := by
  rw [traced, perform_flags, hp]

/-- The announcement says where the machine is, and makes it ready. -/
theorem announce_traced {m : Machine} {token : Token} (h : m.program.token? m.ip = some token)
    (line : Option String) :
    (m.traced true).announce =
      (.line (Step.announcement ⟨m.ip, token, m.deque, line⟩), m.ready true) := by
  simp [announce, announcement, Step.announcement, tokenText, traced, ready, h]

section Running

variable {m : Machine} (hs : m.stopped = false) (hi : m.interrupted = false)

include hs hi

/-- A machine that is ready performs its instruction in one cycle. -/
theorem execute_ready {m₁ : Machine} {token : Token} {event : Event}
    (h : m.program.token? m.ip = some token)
    (hp : m.perform (token.instruction m.program.labels) = (event, m₁)) (tracing : Bool) :
    (m.ready tracing).execute 1 = (event, m₁.traced tracing) := by
  have hinstr : (m.ready tracing).program.instruction? (m.ready tracing).ip =
      some (token.instruction m.program.labels) := instruction?_of_token? h
  rw [execute_one (m := m.ready tracing) hs hi,
    tick_of_some hinstr (by cases tracing <;> rfl), ← perform_eq_settle, ready,
    perform_flags, hp]

/-- With tracing, the machine becomes ready by an announcement; without tracing it
is. -/
theorem Course.of_ready {m' : Machine} {token : Token} {lines : List String} {event : Event}
    (h : m.program.token? m.ip = some token) (line : Option String) {tracing : Bool}
    (rest : Course (m.ready tracing) lines event m') :
    Course (m.traced tracing)
      ((if tracing then [Step.announcement ⟨m.ip, token, m.deque, line⟩] else []) ++ lines)
      event m' := by
  cases tracing with
  | false => exact rest
  | true =>
    refine .line ?_ rest
    have hinstr : (m.traced true).program.instruction? (m.traced true).ip =
        some (token.instruction m.program.labels) := instruction?_of_token? h
    rw [execute_one (m := m.traced true) hs hi, tick, hinstr]
    exact announce_traced h line

end Running

/-- The course of a machine that goes its path, with tracing or without. -/
theorem Path.course {m m' : Machine} {steps : List Step} {result : Except Fault Outcome}
    (h : Path m steps result m') (hs : m.stopped = false) (hi : m.interrupted = false)
    (tracing : Bool) :
    ∃ event : Event, event.result = result ∧
      Course (m.traced tracing)
        (steps.flatMap (Step.lines tracing) ++ closing tracing m'.deque result)
        event (m'.traced tracing) := by
  induction h with
  | @ended m h =>
    refine ⟨.stopped, rfl, ?_⟩
    have hend : (m.traced tracing).execute 1 = (m.traced tracing).finish := by
      rw [execute_one (m := m.traced tracing) hs hi]
      exact tick_of_none (instruction?_of_token?_none h)
    cases tracing with
    | false => exact .final hend rfl
    | true => exact .line hend (.final (execute_of_stopped rfl 1) rfl)
  | exit h hp =>
    refine ⟨.exit, rfl, ?_⟩
    have hlast := Course.final (execute_ready hs hi h hp tracing) rfl
    simpa [Step.lines, closing] using Course.of_ready hs hi h none hlast
  | @fault m m' token f h hp =>
    refine ⟨.failed f, rfl, ?_⟩
    have hlast := Course.final (execute_ready hs hi h hp tracing) rfl
    simpa [Step.lines, closing] using Course.of_ready hs hi h none hlast
  | silent h hp _ ih =>
    obtain ⟨hs₁, hi₁⟩ := settle_goes_on ((perform_eq_settle ..).symm.trans hp) rfl
    obtain ⟨event, hresult, hcourse⟩ := ih (hs₁.trans hs) (hi₁.trans hi)
    refine ⟨event, hresult, ?_⟩
    have hrest := Course.silent (execute_ready hs hi h hp tracing) hcourse
    simpa [Step.lines] using Course.of_ready hs hi h none hrest
  | @print m m₁ m' token text steps result h hp _ ih =>
    obtain ⟨hs₁, hi₁⟩ := settle_goes_on ((perform_eq_settle ..).symm.trans hp) rfl
    obtain ⟨event, hresult, hcourse⟩ := ih (hs₁.trans hs) (hi₁.trans hi)
    refine ⟨event, hresult, ?_⟩
    have hrest := Course.line (execute_ready hs hi h hp tracing) hcourse
    simpa [Step.lines] using Course.of_ready hs hi h (some text) hrest

/-! ## §3 From courses to paths -/

theorem Path.traced {m m' : Machine} {steps : List Step} {result : Except Fault Outcome}
    (h : Path m steps result m') (tracing : Bool) :
    Path (m.traced tracing) steps result (m'.traced tracing) := by
  induction h with
  | ended h => exact .ended h
  | exit h hp => exact .exit h (perform_traced hp tracing)
  | fault h hp => exact .fault h (perform_traced hp tracing)
  | silent h hp _ ih => exact .silent h (perform_traced hp tracing) ih
  | print h hp _ ih => exact .print h (perform_traced hp tracing) ih

/-- What the first cycle of a running machine can be, seen from the instructions: the
program is at its end, or the instruction is announced, or it is performed. -/
theorem execute_one_cases {m m₁ : Machine} {event : Event} (hs : m.stopped = false)
    (hi : m.interrupted = false) (h : m.execute 1 = (event, m₁)) :
    m.program.token? m.ip = none ∨
    (∃ text, event = .line text ∧ m₁ = { m with announced := true }) ∨
    (∃ token, m.program.token? m.ip = some token ∧
      m.perform (token.instruction m.program.labels) = (event, m₁)) := by
  rw [execute_one hs hi] at h
  cases htok : m.program.token? m.ip with
  | none => exact .inl rfl
  | some token =>
    have hinstr := instruction?_of_token? htok
    obtain ⟨hnone, -⟩ | ⟨i, -, -, -, ht⟩ | ⟨i, hsome, -, ht⟩ := tick_cases m
    · rw [hinstr] at hnone
      cases hnone
    · rw [ht, announce] at h
      cases h
      exact .inr (.inl ⟨m.announcement, rfl, rfl⟩)
    · rw [hinstr] at hsome
      cases hsome
      exact .inr (.inr ⟨token, rfl, by rw [perform_eq_settle, ← ht, h]⟩)

/-- A machine that comes to the end of its course has a path. -/
theorem Course.path {m m' : Machine} {lines : List String} {event : Event}
    (h : Course m lines event m') (hs : m.stopped = false) (hi : m.interrupted = false) :
    ∃ steps result n, Path (m.traced false) steps result n := by
  induction h with
  | @final m m' event h hf =>
    obtain htok | ⟨text, rfl, -⟩ | ⟨token, htok, hp⟩ := execute_one_cases hs hi h
    · exact ⟨_, _, _, .ended htok⟩
    · cases hf
    · cases event with
      | running => cases hf
      | line text => cases hf
      | stopped =>
        rw [perform_eq_settle] at hp
        unfold settle at hp
        split at hp <;> cases hp
      | exit => exact ⟨_, _, _, .exit htok (perform_traced hp false)⟩
      | failed f => exact ⟨_, _, _, .fault htok (perform_traced hp false)⟩
  | @silent m m₁ m' lines event h _ ih =>
    obtain htok | ⟨text, hline, -⟩ | ⟨token, htok, hp⟩ := execute_one_cases hs hi h
    · exact ⟨_, _, _, .ended htok⟩
    · cases hline
    · obtain ⟨hs₁, hi₁⟩ := settle_goes_on ((perform_eq_settle ..).symm.trans hp) rfl
      obtain ⟨steps, result, n, hpath⟩ := ih (hs₁.trans hs) (hi₁.trans hi)
      exact ⟨_, _, _, .silent htok (perform_traced hp false) hpath⟩
  | @line m m₁ m' text lines event h _ ih =>
    obtain htok | ⟨text', -, rfl⟩ | ⟨token, htok, hp⟩ := execute_one_cases hs hi h
    · exact ⟨_, _, _, .ended htok⟩
    · -- an announcement: the machine is the same but for the announcement
      exact ih hs hi
    · obtain ⟨hs₁, hi₁⟩ := settle_goes_on ((perform_eq_settle ..).symm.trans hp) rfl
      obtain ⟨steps, result, n, hpath⟩ := ih (hs₁.trans hs) (hi₁.trans hi)
      exact ⟨_, _, _, .print htok (perform_traced hp false) hpath⟩

/-- A run that nobody interrupts, with tracing or without, ends if and only if there
is a path. -/
theorem run_start_iff_path (p : Program) (tracing : Bool) :
    (∃ slices r, (start p tracing).run slices never Writer.text "" = some r) ↔
      ∃ steps result n, Path (start p false) steps result n := by
  constructor
  · rintro ⟨slices, r, h⟩
    obtain ⟨lines, event, hcourse, -⟩ := run_iff_course.mp ⟨slices, h⟩
    exact hcourse.path rfl rfl
  · rintro ⟨steps, result, n, hpath⟩
    obtain ⟨event, -, hcourse⟩ := hpath.course rfl rfl tracing
    obtain ⟨slices, h⟩ := hcourse.run ""
    exact ⟨slices, _, h⟩

/-- What a run gives that has a path. -/
theorem Path.run {p : Program} {steps : List Step} {result : Except Fault Outcome}
    {n : Machine} (hpath : Path (start p false) steps result n) {tracing : Bool} {slices : Nat}
    {r : Run String} (h : (start p tracing).run slices never Writer.text "" = some r) :
    r = ⟨result, n.traced tracing,
      Writer.page (steps.flatMap (Step.lines tracing) ++ closing tracing n.deque result)⟩ := by
  obtain ⟨event, hresult, hcourse⟩ := hpath.course rfl rfl tracing
  obtain ⟨lines, event', hcourse', hresult', houtput⟩ := run_iff_course.mp ⟨slices, h⟩
  obtain ⟨hlines, rfl, hmachine⟩ := hcourse.det hcourse'
  obtain ⟨runResult, machine, output⟩ := r
  simp_all

/-- **Tracing is transparent**: a program ends with tracing if and only if it ends
without, with the same result, at the same address and with the same deque. The
output with tracing is that without, where each instruction is announced before it
is performed, and the deque is shown at the end of the program. -/
theorem tracing_transparent (p : Program) :
    ((∃ slices r, (start p false).run slices never Writer.text "" = some r) ↔
      ∃ slices r, (start p true).run slices never Writer.text "" = some r) ∧
    ∀ (slices slices' : Nat) (r r' : Run String),
      (start p false).run slices never Writer.text "" = some r →
      (start p true).run slices' never Writer.text "" = some r' →
      r'.result = r.result ∧ r'.machine.ip = r.machine.ip ∧
        r'.machine.deque = r.machine.deque ∧
        ∃ steps, Path (start p false) steps r.result r.machine ∧
          r.output = Writer.page (steps.flatMap fun s => s.line.toList) ∧
          r'.output = Writer.page
            (steps.flatMap (fun s => s.announcement :: s.line.toList) ++
              match r.result with
              | .ok .ended => [r.machine.deque.text]
              | _ => []) := by
  refine ⟨(run_start_iff_path p false).trans (run_start_iff_path p true).symm, ?_⟩
  intro slices slices' r r' h h'
  obtain ⟨steps, result, n, hpath⟩ := (run_start_iff_path p false).mp ⟨slices, r, h⟩
  have hr := hpath.run h
  have hr' := hpath.run h'
  subst hr hr'
  refine ⟨rfl, rfl, rfl, steps, hpath.traced false, ?_, ?_⟩
  · have hclosing : closing false n.deque result = [] := by
      unfold closing
      split <;> rfl
    rw [hclosing, List.append_nil, Step.lines_false]
  · rw [Step.lines_true]
    rfl

/-- A program that prints and then jumps past its end. -/
theorem tracing_transparent_jump_past_end :
    let p : Program := { tokens := #[⟨"1!"⟩, ⟨"print!"⟩, ⟨"9!"⟩, ⟨"jmp!"⟩], labels := ∅ }
    ∃ r r' : Run String,
      (start p false).run 2 never Writer.text "" = some r ∧
      (start p true).run 8 never Writer.text "" = some r' ∧
      r'.result = r.result ∧ r'.machine.ip = r.machine.ip ∧
        r'.machine.deque = r.machine.deque ∧
        ∃ steps, Path (start p false) steps r.result r.machine ∧
          r.output = Writer.page (steps.flatMap fun s => s.line.toList) ∧
          r'.output = Writer.page
            (steps.flatMap (fun s => s.announcement :: s.line.toList) ++
              match r.result with
              | .ok .ended => [r.machine.deque.text]
              | _ => []) := by
  intro p
  have h : ((start p false).run 2 never Writer.text "").isSome = true := by decide +kernel
  have h' : ((start p true).run 8 never Writer.text "").isSome = true := by decide +kernel
  obtain ⟨r, hr⟩ := Option.isSome_iff_exists.mp h
  obtain ⟨r', hr'⟩ := Option.isSome_iff_exists.mp h'
  exact ⟨r, r', hr, hr', (tracing_transparent p).2 _ _ r r' hr hr'⟩

end Machine

end TwoEnded
