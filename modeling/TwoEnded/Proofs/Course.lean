/-
TwoEnded.Proofs.Course — a run as a whole, however it is cut into budgets.

## §1 Courses

`Course m lines event m'` says that the machine `m`, spending its cycles one by
one, tells the lines `lines` and then the final event `event`, and is `m'` after
it. No budget occurs in it. A machine has one course at most (`Course.det`).

## §2 Budgets

`Machine.drive` spends a list of budgets up to the first final event. Whatever
the budgets are, what it reports is the course (`course_of_drive`), so that two
lists of budgets report the same. Conversely a machine that has a course is driven
to its end by budgets of any size but zero, if there are enough of them
(`Course.drive_isSome`).

## §3 Runs

The same for `Machine.run` with a writer that keeps the text: the run ends if and
only if the machine has a course, and then it gives what the course says
(`run_iff_course`).
-/
import TwoEnded.Proofs.Cycle
import TwoEnded.Run

namespace TwoEnded

namespace Machine

/-! ## §1 Courses -/

/-- The machine tells these lines, cycle by cycle, then this final event, and is
the second machine after it. -/
inductive Course : Machine → List String → Event → Machine → Prop
  | final {m m' : Machine} {event : Event} (h : m.execute 1 = (event, m'))
      (hf : event.isFinal = true) : Course m [] event m'
  | silent {m m₁ m' : Machine} {lines : List String} {event : Event}
      (h : m.execute 1 = (.running, m₁)) (rest : Course m₁ lines event m') :
      Course m lines event m'
  | line {m m₁ m' : Machine} {text : String} {lines : List String} {event : Event}
      (h : m.execute 1 = (.line text, m₁)) (rest : Course m₁ lines event m') :
      Course m (text :: lines) event m'

theorem Course.det {m m' n' : Machine} {lines lines' : List String} {event event' : Event}
    (h : Course m lines event m') (h' : Course m lines' event' n') :
    lines = lines' ∧ event = event' ∧ m' = n' := by
  induction h generalizing lines' with
  | final h hf =>
    cases h' with
    | final k _ => rw [h] at k; cases k; exact ⟨rfl, rfl, rfl⟩
    | silent k _ => rw [h] at k; cases k; cases hf
    | line k _ => rw [h] at k; cases k; cases hf
  | silent h _ ih =>
    cases h' with
    | final k kf => rw [h] at k; cases k; cases kf
    | silent k rest => rw [h] at k; cases k; exact ih rest
    | line k _ => rw [h] at k; cases k
  | line h _ ih =>
    cases h' with
    | final k kf => rw [h] at k; cases k; cases kf
    | silent k _ => rw [h] at k; cases k
    | line k rest =>
      rw [h] at k
      cases k
      obtain ⟨hlines, hevent, hm⟩ := ih rest
      exact ⟨by rw [hlines], hevent, hm⟩

/-! ## §2 Budgets -/

/-- A budget of no cycles changes nothing if it has nothing to tell. -/
theorem execute_zero_running {m m' : Machine} (h : m.execute 0 = (.running, m')) : m' = m := by
  obtain ⟨⟨hs, hi⟩, -⟩ := execute_running h
  rw [execute_of_running hs hi, cycle] at h
  cases h
  rfl

/-- A budget with an event has it at its end: the cycles before are silent, and the
last one tells it. -/
theorem Course.of_telling {m m₁ m' : Machine} {told event : Event} {lines : List String}
    {budget : Nat} (hne : told ≠ .running) (h : m.execute budget = (told, m₁))
    (next : ∀ m₀ : Machine, m₀.execute 1 = (told, m₁) → Course m₀ lines event m') :
    Course m lines event m' := by
  induction budget generalizing m with
  | zero =>
    apply next
    have hone := execute_add 0 1 m
    rw [h] at hone
    cases told with
    | running => exact absurd rfl hne
    | _ => exact hone
  | succ budget ih =>
    rw [Nat.add_comm, execute_add] at h
    split at h
    · next m₂ hfirst => exact .silent hfirst (ih h)
    · next hfirst => exact next m h

theorem Course.of_silent {m m₁ m' : Machine} {event : Event} {lines : List String}
    {budget : Nat} (h : m.execute budget = (.running, m₁)) (rest : Course m₁ lines event m') :
    Course m lines event m' := by
  induction budget generalizing m with
  | zero => rw [execute_zero_running h] at rest; exact rest
  | succ budget ih =>
    rw [Nat.add_comm, execute_add] at h
    split at h
    · next m₂ hfirst => exact .silent hfirst (ih h)
    · next hfirst => exact absurd h (hfirst m₁)

theorem Course.of_line {m m₁ m' : Machine} {event : Event} {text : String}
    {lines : List String} {budget : Nat} (h : m.execute budget = (.line text, m₁))
    (rest : Course m₁ lines event m') : Course m (text :: lines) event m' :=
  .of_telling (by simp) h fun _ h₀ => .line h₀ rest

theorem Course.of_final {m m' : Machine} {event : Event} {budget : Nat}
    (h : m.execute budget = (event, m')) (hf : event.isFinal = true) :
    Course m [] event m' := by
  refine .of_telling ?_ h fun _ h₀ => .final h₀ hf
  rintro rfl
  cases hf

/-- What a machine has told when it is driven to a final event: the events before,
the final one, and the machine after it. -/
structure Report where
  told : List Event
  last : Event
  machine : Machine

/-- Spends one budget after the other up to the first final event; `none` if there
is no final event. -/
def drive (m : Machine) : List Nat → Option Report
  | [] => none
  | budget :: rest =>
    match m.execute budget with
    | (event, m') =>
      if event.isFinal then some ⟨[], event, m'⟩
      else (m'.drive rest).map fun r => { r with told := event :: r.told }

/-- Whatever the budgets, the report is the course. -/
theorem course_of_drive {budgets : List Nat} {m : Machine} {r : Report}
    (h : m.drive budgets = some r) :
    ∃ lines, Course m lines r.last r.machine ∧
      r.told.filter (· ≠ .running) = lines.map Event.line := by
  induction budgets generalizing m r with
  | nil => cases h
  | cons budget rest ih =>
    rw [drive] at h
    cases hx : m.execute budget with
    | mk event m₁ =>
      rw [hx] at h
      cases hf : event.isFinal with
      | true =>
        simp only [hf, if_true] at h
        cases h
        exact ⟨[], .of_final hx hf, rfl⟩
      | false =>
        simp only [hf, Bool.false_eq_true, if_false, Option.map_eq_some_iff] at h
        obtain ⟨r₁, hr₁, rfl⟩ := h
        obtain ⟨lines, hcourse, htold⟩ := ih hr₁
        -- an event that is not final is `running`, which is left out, or a line
        cases event with
        | running => exact ⟨lines, .of_silent hx hcourse, by simpa using htold⟩
        | line text => exact ⟨text :: lines, .of_line hx hcourse, by simpa using htold⟩
        | _ => cases hf

/-- **Slicing independence**: for a machine in any state, a budget may be cut in two,
and any two lists of budgets that lead to a final event report the same lines before
it, the same final event and the same machine. -/
theorem slicing_independence (m : Machine) :
    (∀ first second : Nat, m.execute (first + second) =
      match m.execute first with
      | (.running, m') => m'.execute second
      | answer => answer) ∧
    ∀ (budgets budgets' : List Nat) (r r' : Report),
      m.drive budgets = some r → m.drive budgets' = some r' →
        r.told.filter (· ≠ .running) = r'.told.filter (· ≠ .running) ∧
          r.last = r'.last ∧ r.machine = r'.machine := by
  refine ⟨fun first second => execute_add first second m, ?_⟩
  intro budgets budgets' r r' h h'
  obtain ⟨lines, hcourse, htold⟩ := course_of_drive h
  obtain ⟨lines', hcourse', htold'⟩ := course_of_drive h'
  obtain ⟨hlines, hlast, hmachine⟩ := hcourse.det hcourse'
  exact ⟨by rw [htold, htold', hlines], hlast, hmachine⟩

/-- Two ways to spend the cycles of a traced run of `1! print!`: one by one, and in
large portions with empty ones between them. -/
theorem slicing_independence_traced_print :
    let m := start { tokens := #[⟨"1!"⟩, ⟨"print!"⟩], labels := ∅ } true
    ∃ r r' : Report, m.drive [1, 1, 1, 1, 1, 1] = some r ∧
      m.drive [0, 9, 9, 0, 9, 9, 9] = some r' ∧
      r.told.filter (· ≠ .running) = r'.told.filter (· ≠ .running) ∧
        r.last = r'.last ∧ r.machine = r'.machine := by
  intro m
  have h : (m.drive [1, 1, 1, 1, 1, 1]).isSome = true := by decide +kernel
  have h' : (m.drive [0, 9, 9, 0, 9, 9, 9]).isSome = true := by decide +kernel
  obtain ⟨r, hr⟩ := Option.isSome_iff_exists.mp h
  obtain ⟨r', hr'⟩ := Option.isSome_iff_exists.mp h'
  exact ⟨r, r', hr, hr', (slicing_independence m).2 _ _ r r' hr hr'⟩

/-- An empty budget in front does not keep a machine from being driven to its end. -/
theorem drive_zero_isSome {m : Machine} {budgets : List Nat}
    (h : (m.drive budgets).isSome = true) : (m.drive (0 :: budgets)).isSome = true := by
  rw [drive]
  cases hs : m.stopped with
  | true => simp [execute_of_stopped hs, Event.isFinal]
  | false =>
    cases hi : m.interrupted with
    | true => simp [execute_of_interrupted hs hi, Event.isFinal]
    | false => simpa [execute_of_running hs hi, cycle, Event.isFinal] using h

/-- Budgets of one size, if it is not zero, drive a machine to the end of its course,
after a first budget of any size. -/
theorem Course.drive_isSome {m m' : Machine} {lines : List String} {event : Event}
    (h : Course m lines event m') {size : Nat} (hsize : 0 < size) (first : Nat) :
    ∃ n, (m.drive (first :: List.replicate n size)).isSome = true := by
  obtain ⟨size, rfl⟩ : ∃ k, size = k + 1 := ⟨size - 1, by omega⟩
  -- A first budget of zero leaves the work to the second budget.
  have hzero : ∀ {m : Machine},
      (∀ k, ∃ n, (m.drive ((1 + k) :: List.replicate n (size + 1))).isSome = true) →
      ∀ first, ∃ n, (m.drive (first :: List.replicate n (size + 1))).isSome = true := by
    intro m hpos first
    cases first with
    | succ k => simpa only [Nat.add_comm] using hpos k
    | zero =>
      obtain ⟨n, hn⟩ := hpos size
      refine ⟨n + 1, drive_zero_isSome ?_⟩
      simpa only [List.replicate_succ, Nat.add_comm] using hn
  induction h generalizing first with
  | @final m m' event h hf =>
    refine hzero (fun k => ⟨0, ?_⟩) first
    cases event with
    | running => cases hf
    | line text => cases hf
    | _ => simp [drive, execute_add, h, Event.isFinal]
  | silent h _ ih =>
    refine hzero (fun k => ?_) first
    obtain ⟨n, hn⟩ := ih k
    exact ⟨n, by simpa [drive, execute_add, h] using hn⟩
  | line h _ ih =>
    refine hzero (fun k => ?_) first
    obtain ⟨n, hn⟩ := ih (size + 1)
    refine ⟨n + 1, ?_⟩
    rw [drive, execute_add, h, List.replicate_succ]
    simpa [Event.isFinal] using hn

end Machine

/-! ## §3 Runs -/

/-- How a run ends with a final event. -/
def Event.result : Event → Except Fault Outcome
  | .exit => .ok .exit
  | .failed fault => .error fault
  | _ => .ok .ended

namespace Writer

/-- The lines as they are written, each with a line feed behind it. -/
def page (lines : List String) : String :=
  String.join (lines.map (· ++ "\n"))

@[simp] theorem page_nil : page [] = "" := rfl

@[simp] theorem page_cons (text : String) (lines : List String) :
    page (text :: lines) = text ++ "\n" ++ page lines := by
  simp [page, String.join_cons]

end Writer

namespace Machine

/-- The answer to every question is no. -/
def never : Nat → Bool := fun _ => false

@[simp] theorem slice_never (m : Machine) (asked : Nat) :
    m.slice (never asked) = m.execute sliceCycles := rfl

theorem course_of_runFrom {slices asked : Nat} {m : Machine} {output : String} {r : Run String}
    (h : runFrom Writer.text never slices asked m output = some r) :
    ∃ lines event, Course m lines event r.machine ∧ r.result = event.result ∧
      r.output = output ++ Writer.page lines := by
  induction slices generalizing asked m output with
  | zero => cases h
  | succ slices ih =>
    rw [runFrom, slice_never] at h
    split at h
    · next m₁ hx =>
      obtain ⟨lines, event, hcourse, hresult, houtput⟩ := ih h
      exact ⟨lines, event, .of_silent hx hcourse, hresult, houtput⟩
    · next text m₁ hx =>
      simp only [Writer.text] at h
      obtain ⟨lines, event, hcourse, hresult, houtput⟩ := ih h
      refine ⟨text :: lines, event, .of_line hx hcourse, hresult, ?_⟩
      rw [houtput, Writer.page_cons, String.append_assoc]
    · next m₁ hx => cases h; exact ⟨[], .exit, .of_final hx rfl, rfl, by simp⟩
    · next m₁ hx => cases h; exact ⟨[], .stopped, .of_final hx rfl, rfl, by simp⟩
    · next fault m₁ hx => cases h; exact ⟨[], .failed fault, .of_final hx rfl, rfl, by simp⟩

/-- A run ends within its slices if and only if as many budgets drive the machine to
a final event. -/
theorem runFrom_isSome (slices asked : Nat) (m : Machine) (output : String) :
    (runFrom Writer.text never slices asked m output).isSome =
      (m.drive (List.replicate slices sliceCycles)).isSome := by
  induction slices generalizing asked m output with
  | zero => rfl
  | succ slices ih =>
    rw [runFrom, slice_never, List.replicate_succ, drive]
    cases hx : m.execute sliceCycles with
    | mk event m₁ =>
      cases event with
      | running => simpa [Event.isFinal] using ih (asked + 1) m₁ output
      | line text =>
        simpa [Event.isFinal, Writer.text] using ih (asked + 1) m₁ (output ++ (text ++ "\n"))
      | _ => rfl

/-- A machine that has a course can be run to its end. -/
theorem Course.run {m m' : Machine} {lines : List String} {event : Event}
    (h : Course m lines event m') (output : String) :
    ∃ slices, m.run slices never Writer.text output =
      some ⟨event.result, m', output ++ Writer.page lines⟩ := by
  obtain ⟨n, hn⟩ := h.drive_isSome (by decide : 0 < sliceCycles) sliceCycles
  rw [← List.replicate_succ, ← runFrom_isSome (n + 1) 0 m output] at hn
  obtain ⟨r, hr⟩ := Option.isSome_iff_exists.mp hn
  refine ⟨n + 1, hr.trans (congrArg some ?_)⟩
  -- The run that there is gives what its course says, and there is only one.
  obtain ⟨lines', event', hcourse, hresult, houtput⟩ := course_of_runFrom hr
  obtain ⟨rfl, rfl, rfl⟩ := h.det hcourse
  obtain ⟨runResult, machine, written⟩ := r
  rw [← hresult, ← houtput]

/-- A run that nobody interrupts ends if and only if the machine has a course, and
gives what the course says. -/
theorem run_iff_course {m : Machine} {output : String} {r : Run String} :
    (∃ slices, m.run slices never Writer.text output = some r) ↔
      ∃ lines event, Course m lines event r.machine ∧ r.result = event.result ∧
        r.output = output ++ Writer.page lines := by
  constructor
  · rintro ⟨slices, h⟩
    exact course_of_runFrom h
  · obtain ⟨runResult, machine, written⟩ := r
    rintro ⟨lines, event, hcourse, rfl, rfl⟩
    exact hcourse.run output

end Machine

end TwoEnded
