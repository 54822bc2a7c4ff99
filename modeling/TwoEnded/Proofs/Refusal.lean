/-
TwoEnded.Proofs.Refusal — what is left of a run that has failed.

A run fails in two ways. An instruction fails or the run is interrupted: then the machine has
stopped. Or the writer refuses a line: then the run is given up by its caller, and the machine
knows nothing of it.

## §1 The end of all work

`Over m`: whatever calls are made on the machine, it prints nothing and stays as it is. This
is so exactly if its next cycle ends the run and leaves the deque as it is (`over_iff`), since
a cycle that has nothing to tell goes to another address or makes the deque shorter
(`tick_running_moves`).

## §2 Lines that are refused

A machine that has told a line is at the instruction that it has announced, behind the
instruction that it has performed, or has stopped at the end of its program (`tick_line_ip`).
The fault of a refused line names the address of the machine, so it names the instruction that
told the line in the first of these cases only.
-/
import TwoEnded.Proofs.Slices

namespace TwoEnded

/-! ## §1 The end of all work -/

/-- A jump takes its target off the deque. -/
theorem Instruction.size_lt_of_jump {i : Instruction} {d d' : Deque Value} {address : Nat}
    (h : i.perform d = .ok (.jump address) d') : d'.size < d.size := by
  obtain ⟨s, op, v, e, rfl, hop, -, -⟩ := Instruction.perform_jump h
  rcases hop with rfl | rfl
  · obtain ⟨s', v', target, -, htake, -, -⟩ := Opcode.perform_jump_eq_ok h
    have := Deque.size_of_take? htake
    omega
  · obtain ⟨s', v', e', condition, -, htake, htake', -⟩ := Opcode.perform_jumpIf_eq_ok h
    have := Deque.size_of_take? htake
    have := Deque.size_of_take? htake'
    omega

namespace Machine

/-- The second machine is as the first one was, and has nothing to print. -/
structure AsLeft (m m' : Machine) : Prop where
  ip : m'.ip = m.ip
  deque : m'.deque.toList = m.deque.toList
  silent : ∀ (budget : Nat) (text : String), (m'.execute budget).1 ≠ .line text
  unwritten : ∀ (σ : Type) (writer : Writer σ) (polls : Nat → Bool) (slices : Nat) (output : σ)
    (r : Run σ), m'.run slices polls writer output = some r → r.output = output

/-- Whatever calls are made on the machine, it prints nothing and stays as it is. -/
def Over (m : Machine) : Prop := ∀ m', m.Reaches m' → AsLeft m m'

/-- The next cycle ends the run and leaves the deque as it is. -/
def AtRest (m : Machine) : Prop :=
  (m.execute 1).1.isFinal = true ∧ (m.execute 1).2.deque.toList = m.deque.toList

/-- A cycle that has nothing to tell gets somewhere: to the next address, or, by a jump, to a
shorter deque. -/
theorem tick_running_moves {m m₁ : Machine} (h : m.tick = (.running, m₁)) :
    m₁.ip = m.ip + 1 ∨ m₁.deque.size < m.deque.size := by
  obtain ⟨-, ht⟩ | ⟨i, -, -, -, ht⟩ | ⟨i, -, -, ht⟩ := tick_cases m
  · rw [ht, finish] at h
    cases htr : m.tracing <;> simp [htr] at h
  · rw [ht, announce] at h
    cases h
  · rw [ht] at h
    unfold settle at h
    split at h <;> cases h
    · exact .inl rfl
    · next hjump => exact .inr (Instruction.size_lt_of_jump hjump)

theorem atRest_of_over {m : Machine} (h : Over m) : AtRest m := by
  have hnext := h _ (Reaches.here.execute 1)
  refine ⟨?_, hnext.deque⟩
  cases hx : m.execute 1 with
  | mk event m₁ =>
    rw [hx] at hnext
    cases event with
    | line text => exact absurd (congrArg Prod.fst hx) ((h m .here).silent 1 text)
    | running =>
      -- The cycle would have left the address or the deque.
      obtain ⟨⟨hs, hi⟩, -⟩ := execute_running hx
      rw [execute_one hs hi] at hx
      have hip := hnext.ip
      have hsize := congrArg List.length hnext.deque
      simp only [Deque.length_toList] at hip hsize
      rcases tick_running_moves hx with hmoves | hmoves <;> omega
    | _ => rfl

/-- What can become of a machine that is at rest: nothing, or it is interrupted, or it has
stopped as it was. -/
def Lingers (m m' : Machine) : Prop :=
  m' = m ∨ m' = m.interrupt ∨
    (m'.stopped = true ∧ m'.ip = m.ip ∧ m'.deque.toList = m.deque.toList)

theorem Lingers.interrupt {m m' : Machine} (h : Lingers m m') : Lingers m m'.interrupt := by
  rcases h with rfl | rfl | hstopped
  · exact .inr (.inl rfl)
  · exact .inr (.inl rfl)
  · exact .inr (.inr hstopped)

theorem ip_of_execute_one {m : Machine} (hf : (m.execute 1).1.isFinal = true) :
    (m.execute 1).2.ip = m.ip := by
  cases hs : m.stopped with
  | true => rw [execute_of_stopped hs]
  | false =>
    cases hi : m.interrupted with
    | true => rw [execute_of_interrupted hs hi]
    | false =>
      rw [execute_one hs hi] at hf ⊢
      obtain ⟨-, ht⟩ | ⟨i, -, -, -, ht⟩ | ⟨i, -, -, ht⟩ := tick_cases m
      · rw [ht, finish]
      · rw [ht, announce]
      · rw [ht] at hf ⊢
        exact settle_ip_of_isFinal hf

/-- A budget that begins with a final event has nothing else. -/
theorem execute_of_isFinal {m : Machine} (hf : (m.execute 1).1.isFinal = true) (budget : Nat) :
    m.execute (budget + 1) = m.execute 1 := by
  rw [Nat.add_comm, execute_add]
  split
  · next hx => rw [hx] at hf; cases hf
  · rfl

/-- No budget prints anything on a machine that lingers, and it goes on lingering. -/
theorem Lingers.execute {m m' : Machine} (hrest : AtRest m) (h : Lingers m m') (budget : Nat) :
    Lingers m (m'.execute budget).2 ∧ ∀ text, (m'.execute budget).1 ≠ .line text := by
  cases hs : m'.stopped with
  | true =>
    rw [execute_of_stopped hs]
    exact ⟨h, by simp⟩
  | false =>
    rcases h with rfl | rfl | ⟨hstopped, -⟩
    · cases budget with
      | zero =>
        unfold Machine.execute
        rw [hs]
        split
        · next hfalse => cases hfalse
        · split
          · exact ⟨.inr (.inr ⟨rfl, rfl, rfl⟩), by simp⟩
          · exact ⟨.inl rfl, by simp [cycle]⟩
      | succ budget =>
        rw [execute_of_isFinal hrest.1]
        refine ⟨.inr (.inr ⟨?_, ip_of_execute_one hrest.1, hrest.2⟩), ?_⟩
        · exact stopped_of_isFinal (Prod.ext rfl rfl) hrest.1
        · intro text hline
          have hf := hrest.1
          rw [hline] at hf
          cases hf
    · rw [execute_of_interrupted hs rfl]
      exact ⟨.inr (.inr ⟨rfl, rfl, rfl⟩), by simp⟩
    · rw [hs] at hstopped
      cases hstopped

theorem Lingers.slice {m m' : Machine} (hrest : AtRest m) (h : Lingers m m')
    (interrupted : Bool) :
    Lingers m (m'.slice interrupted).2 ∧ ∀ text, (m'.slice interrupted).1 ≠ .line text := by
  unfold Machine.slice
  split
  · exact h.interrupt.execute hrest _
  · exact h.execute hrest _

theorem Lingers.runFrom {σ : Type} {writer : Writer σ} {polls : Nat → Bool} {m m' : Machine}
    {slices asked : Nat} {output : σ} {r : Run σ} (hrest : AtRest m) (h : Lingers m m')
    (hr : Machine.runFrom writer polls slices asked m' output = some r) :
    Lingers m r.machine ∧ r.output = output := by
  induction slices generalizing asked m' with
  | zero => cases hr
  | succ slices ih =>
    obtain ⟨hslice, hsilent⟩ := h.slice hrest (polls asked)
    rw [Machine.runFrom] at hr
    cases hx : m'.slice (polls asked) with
    | mk event m₁ =>
      rw [hx] at hslice hsilent hr
      cases event with
      | running => exact ih hslice hr
      | line text => exact absurd rfl (hsilent text)
      | exit => cases hr; exact ⟨hslice, rfl⟩
      | stopped => cases hr; exact ⟨hslice, rfl⟩
      | failed fault => cases hr; exact ⟨hslice, rfl⟩

theorem Lingers.of_reaches {m m' : Machine} (hrest : AtRest m) (h : m.Reaches m') :
    Lingers m m' := by
  induction h with
  | here => exact .inl rfl
  | execute _ budget ih => exact (ih.execute hrest budget).1
  | interrupt _ ih => exact ih.interrupt
  | run _ hr ih => exact (ih.runFrom hrest hr).1

theorem over_of_atRest {m : Machine} (h : AtRest m) : Over m := by
  intro m' hreach
  have hlingers := Lingers.of_reaches h hreach
  have hsame : m'.ip = m.ip ∧ m'.deque.toList = m.deque.toList := by
    rcases hlingers with rfl | rfl | ⟨-, hsame⟩
    · exact ⟨rfl, rfl⟩
    · exact ⟨rfl, rfl⟩
    · exact hsame
  exact ⟨hsame.1, hsame.2, fun budget => (hlingers.execute h budget).2,
    fun _ _ _ _ _ _ hr => (hlingers.runFrom h hr).2⟩

/-- A machine is done with all work exactly if its next cycle ends the run and leaves the deque
as it is. -/
theorem over_iff (m : Machine) : Over m ↔ AtRest m := ⟨atRest_of_over, over_of_atRest⟩

theorem over_of_stopped {m : Machine} (h : m.stopped = true) : Over m := by
  refine over_of_atRest ⟨?_, ?_⟩ <;> rw [execute_of_stopped h]
  rfl

/-! ## §2 Lines that are refused -/

/-- Where a machine is that has told a line. -/
theorem tick_line_ip {m m' : Machine} {text : String} (hs : m.stopped = false)
    (h : m.tick = (.line text, m')) :
    (m.program.token? m.ip = none ∧ m'.stopped = true ∧ m'.ip = m.ip) ∨
    ((m.program.token? m.ip).isSome = true ∧ m'.stopped = false ∧
      m'.ip = if m.tracing && !m.announced then m.ip else m.ip + 1) := by
  obtain ⟨hnone, ht⟩ | ⟨i, hi, htr, hann, ht⟩ | ⟨i, hi, hann, ht⟩ := tick_cases m
  · rw [ht, finish] at h
    have hend : m.program.token? m.ip = none := by simpa [Program.instruction?_eq] using hnone
    cases htr : m.tracing with
    | true => simp only [htr, if_true] at h; cases h; exact .inl ⟨hend, rfl, rfl⟩
    | false => simp [htr] at h
  · rw [ht, announce] at h
    cases h
    exact .inr ⟨Program.token?_of_instruction? hi, hs, by simp [htr, hann]⟩
  · rw [ht] at h
    unfold settle at h
    split at h <;> cases h
    · exact .inr ⟨Program.token?_of_instruction? hi, hs, by simp [hann]⟩

/-- A fault that an execution raises is not about the output. -/
theorem kind_of_execute {m m₁ : Machine} {budget : Nat} {f : Fault}
    (h : m.execute budget = (.failed f, m₁)) : f.kind ≠ .ioError := by
  intro hkind
  unfold execute at h
  split at h
  · cases h
  · split at h
    · cases h
      cases hkind
    · have hinner := cycle_failed h
      rw [Fault.Inner, hkind] at hinner
      cases hinner

/-- The run was given up because its writer refused a line: the machine `m₀`, which the run had
reached without being interrupted, told the line in its next cycle, and the writer, which had
taken all lines before, gave the reason. -/
structure Refuses {σ : Type} (m : Machine) (polls : Nat → Bool) (writer : Writer σ) (output : σ)
    (r : Run σ) (m₀ : Machine) (text reason : String) : Prop where
  reached : ∃ (n spent : Nat) (written : σ), (∀ j ≤ n, polls j = false) ∧
    (m.afterSlices n).execute spent = (.running, m₀) ∧
    writer.takes (m.toldLines n) output = some written ∧
    writer.write (text ++ "\n") written = (some reason, r.output)
  told : m₀.tick = (.line text, r.machine)

/-- **When a failed run is over, and where its fault is located.** For a machine in any state,
any writer and any answers to the questions before the slices:

* a run that fails otherwise than by its writer is over;
* a run whose writer refuses a line is over exactly if the machine is at rest after the line,
  which it has told. The machine has stopped exactly if this was the line at the end of the
  program;
* the fault names the address of the instruction that told the line exactly if the line was
  its announcement. If the instruction printed it, the fault names the address behind. -/
theorem failed_run_over_and_located {σ : Type} {m : Machine} {polls : Nat → Bool}
    {writer : Writer σ} {output : σ} {slices : Nat} {r : Run σ} {f : Fault}
    (h : m.run slices polls writer output = some r) (hf : r.result = .error f) :
    (f.kind ≠ .ioError → Over r.machine) ∧
    (f.kind = .ioError → ∃ (m₀ : Machine) (text reason : String),
      Refuses m polls writer output r m₀ text reason ∧
      f = ⟨.ioError, some r.machine.ip, none, reason⟩ ∧
      (Over r.machine ↔ AtRest r.machine) ∧
      (r.machine.stopped = true ↔ m₀.program.token? m₀.ip = none) ∧
      ((m₀.program.token? m₀.ip).isSome = true →
        (f.address = some m₀.ip ↔ (m₀.tracing && !m₀.announced) = true) ∧
        ((m₀.tracing && !m₀.announced) = false → f.address = some (m₀.ip + 1)))) := by
  obtain ⟨n, written, -, hpolls, -, htakes, hend⟩ := run_ending h
  cases hend with
  | final _ hfinal =>
    have hx := execute_afterSlices m n
    have hstopped := stopped_of_isFinal hx hfinal
    cases he : m.sliceEvent n with
    | failed fault =>
      rw [he] at hx hf
      cases hf
      exact ⟨fun _ => over_of_stopped hstopped, fun hkind => absurd hkind (kind_of_execute hx)⟩
    | _ => rw [he] at hf; cases hf
  | cut _ =>
    unfold cutRun at hf ⊢
    split at hf
    · cases hf
    · next hs =>
      cases hf
      rw [if_neg hs]
      exact ⟨fun _ => over_of_stopped rfl, by simp⟩
  | refused hno hline hwrite =>
    cases hf
    refine ⟨fun hkind => absurd rfl hkind, fun _ => ?_⟩
    obtain ⟨spent, m₀, hspent, hs, htick⟩ :=
      exists_tick_of_line ((execute_afterSlices m n).trans (by rw [hline]))
    have hpolls' : ∀ j ≤ n, polls j = false := fun j hj => by
      rcases Nat.lt_or_eq_of_le hj with hj | rfl
      · exact hpolls j hj
      · exact hno
    refine ⟨m₀, _, _, ⟨⟨n, spent, written, hpolls', hspent, htakes, hwrite⟩, htick⟩, rfl,
      over_iff _, ?_⟩
    rcases tick_line_ip hs htick with ⟨hnone, hstopped, -⟩ | ⟨hsome, hstopped, hip⟩
    · simp [hnone, hstopped]
    · have hne : m₀.program.token? m₀.ip ≠ none := by
        intro hnone
        rw [hnone] at hsome
        cases hsome
      refine ⟨by simp [hstopped, hne], fun _ => ?_⟩
      show (some (m.afterSlices (n + 1)).ip = _ ↔ _) ∧ (_ → some (m.afterSlices (n + 1)).ip = _)
      rw [hip]
      cases m₀.tracing && !m₀.announced <;> simp

/-- A refused announcement is located where it belongs, but its run is not over; a program that
takes from an empty deque is over. -/
theorem failed_run_over_and_located_announcement :
    let p : Program := { tokens := #[⟨"1!"⟩, ⟨"drop!"⟩], labels := ∅ }
    let q : Program := { tokens := #[⟨"drop!"⟩], labels := ∅ }
    (∃ (r : Run ByteArray) (f : Fault),
      (start p true).run 1 never (Writer.limited 3 "sink full") .empty = some r ∧
      r.result = .error f ∧ f.address = some 0 ∧ ¬ Over r.machine) ∧
    ∃ (r : Run ByteArray) (f : Fault),
      (start q false).run 1 never (Writer.limited 3 "sink full") .empty = some r ∧
      r.result = .error f ∧ f.kind = .stackUnderflow ∧ Over r.machine := by
  intro p q
  constructor
  · have hrun : ((start p true).run 1 never (Writer.limited 3 "sink full") .empty).map
        (fun r => (r.result, r.machine.ip, r.machine.deque.toList,
          (r.machine.execute 1).2.deque.toList)) =
        some (.error ⟨.ioError, some 0, none, "sink full"⟩, 0, [], [.int 1]) := by decide +kernel
    obtain ⟨r, hr, hvalues⟩ := Option.map_eq_some_iff.mp hrun
    simp only [Prod.mk.injEq] at hvalues
    obtain ⟨hresult, -, hbefore, hafter⟩ := hvalues
    obtain ⟨m₀, text, reason, -, -, hover, -⟩ :=
      (failed_run_over_and_located hr hresult).2 rfl
    refine ⟨r, _, hr, hresult, rfl, fun h => ?_⟩
    have hrest := (hover.mp h).2
    rw [hbefore, hafter] at hrest
    cases hrest
  · have hrun : ((start q false).run 1 never (Writer.limited 3 "sink full") .empty).map
        (fun r => r.result) =
        some (.error ⟨.stackUnderflow, some 0, some "drop!", ""⟩) := by decide +kernel
    obtain ⟨r, hr, hresult⟩ := Option.map_eq_some_iff.mp hrun
    exact ⟨r, _, hr, hresult, rfl, (failed_run_over_and_located hr hresult).1 (by decide)⟩

/-- A printed line that is refused is located behind the instruction that printed it, and a
later run goes on and prints the next line. -/
theorem refused_print_goes_on :
    let p : Program :=
      { tokens := #[⟨"1!"⟩, ⟨"print!"⟩, ⟨"2!"⟩, ⟨"print!"⟩], labels := ∅ }
    let printing : Machine := ((start p false).execute 1).2
    printing.ip = 1 ∧ p.token? printing.ip = some ⟨"print!"⟩ ∧ printing.tick.1 = .line "1" ∧
      ∃ r : Run ByteArray,
        (start p false).run 1 never (Writer.limited 0 "sink full") .empty = some r ∧
        r.result = .error ⟨.ioError, some 2, none, "sink full"⟩ ∧
        (∃ r' : Run String, r.machine.run 2 never Writer.text "" = some r' ∧ r'.output = "2\n") ∧
        ¬ Over r.machine := by
  intro p printing
  have hrun : ((start p false).run 1 never (Writer.limited 0 "sink full") .empty).map
      (fun r => (r.result, (r.machine.run 2 never Writer.text "").map (·.output))) =
      some (.error ⟨.ioError, some 2, none, "sink full"⟩, some "2\n") := by decide +kernel
  obtain ⟨r, hr, hvalues⟩ := Option.map_eq_some_iff.mp hrun
  simp only [Prod.mk.injEq, Option.map_eq_some_iff] at hvalues
  obtain ⟨hresult, r', hr', houtput⟩ := hvalues
  refine ⟨by decide +kernel, by decide +kernel, by decide +kernel, r, hr, hresult,
    ⟨r', hr', houtput⟩, fun hover => ?_⟩
  have hnothing := (hover r.machine .here).unwritten _ _ _ _ _ r' hr'
  rw [houtput] at hnothing
  exact absurd hnothing (by decide)

end Machine

end TwoEnded
