/-
TwoEnded.Proofs.Interruption — a run is cut between slices and nowhere else.

## §1 Slices

As long as no event is final, the machine runs, or it has just run off the end of its
program and shown its deque (`afterSlices_cases`).

## §2 Runs

On a writer that takes everything, a run that nobody interrupts and one that is interrupted
later are the same up to there (`run_add`): they end together (`run_of_final`), or the
second is cut (`run_of_interruption`).

## §3 Interruption

The two together, with the output of the run that is cut as the beginning of the output of
the whole run.
-/
import TwoEnded.Proofs.Slices

namespace TwoEnded

/-! ## §1 Slices -/

namespace Machine

/-- As long as no event is final, the machine runs, or it has run off the end of its program
in the last slice. -/
theorem afterSlices_cases {m : Machine} (hs : m.stopped = false) (hi : m.interrupted = false)
    {n : Nat} (hevents : ∀ j < n, (m.sliceEvent j).isFinal = false) :
    ((m.afterSlices n).stopped = false ∧ (m.afterSlices n).interrupted = false) ∨
      ∃ j, n = j + 1 ∧ RanOff (m.sliceEvent j) (m.afterSlices n) := by
  induction n with
  | zero => exact .inl ⟨hs, hi⟩
  | succ n ih =>
    have hevent := hevents n (by omega)
    rcases ih fun j hj => hevents j (by omega) with ⟨hs', hi'⟩ | ⟨j, -, hoff⟩
    · cases execute_aftermath hs' hi' (execute_afterSlices m n) with
      | running _ hs₁ hi₁ => exact .inl ⟨hs₁, hi₁⟩
      | ended hf => rw [hevent] at hf; cases hf
      | ranOff hoff => exact .inr ⟨n, rfl, hoff⟩
    · -- A machine that has stopped would have said so.
      have hstopped : m.sliceEvent n = .stopped := by
        rw [sliceEvent, execute_of_stopped hoff.stopped]
      rw [hstopped] at hevent
      cases hevent

theorem tracing_afterSlices (m : Machine) (n : Nat) : (m.afterSlices n).tracing = m.tracing := by
  induction n with
  | zero => rfl
  | succ n ih => exact (execute_keeps (execute_afterSlices m n)).2.trans ih

/-! ## §2 Runs -/

section Slices

variable {m : Machine} {polls : Nat → Bool} {output : String}

/-- A run whose first slices are neither interrupted nor final goes on after them with what
they told written. -/
theorem run_add {n : Nat} (hpolls : ∀ j < n, polls j = false)
    (hevents : ∀ j < n, (m.sliceEvent j).isFinal = false) (more : Nat) :
    m.run (n + more) polls Writer.text output =
      runFrom Writer.text polls more n (m.afterSlices n) (output ++ Writer.page (m.toldLines n)) :=
  run_add_of_takes hpolls hevents (Writer.takes_text ..) more

theorem run_never_add {n : Nat} (hevents : ∀ j < n, (m.sliceEvent j).isFinal = false)
    (more : Nat) :
    m.run (n + more) never Writer.text output =
      runFrom Writer.text never more n (m.afterSlices n) (output ++ Writer.page (m.toldLines n)) :=
  run_add (fun _ _ => rfl) hevents more

/-- A run that has not been interrupted ends with the first final event. -/
theorem run_of_final {n : Nat} (hpolls : ∀ j ≤ n, polls j = false)
    (hevents : ∀ j < n, (m.sliceEvent j).isFinal = false)
    (hfinal : (m.sliceEvent n).isFinal = true) :
    m.run (n + 1) polls Writer.text output =
      some ⟨(m.sliceEvent n).result, m.afterSlices (n + 1),
        output ++ Writer.page (m.toldLines n)⟩ := by
  have hend : Ending m polls Writer.text n (output ++ Writer.page (m.toldLines n)) _ :=
    .final (hpolls n (Nat.le_refl n)) hfinal
  exact hend.run (fun j hj => hpolls j (by omega)) hevents (Writer.takes_text ..)

/-- A run that is interrupted before any final event is cut: it fails as interrupted, unless
the machine has stopped by itself. -/
theorem run_of_interruption {n : Nat} (hpolls : ∀ j < n, polls j = false) (hyes : polls n = true)
    (hevents : ∀ j < n, (m.sliceEvent j).isFinal = false) :
    m.run (n + 1) polls Writer.text output =
      some (if (m.afterSlices n).stopped then
        ⟨.ok .ended, (m.afterSlices n).interrupt, output ++ Writer.page (m.toldLines n)⟩
      else
        ⟨.error ⟨.interrupted, some (m.afterSlices n).ip, none, ""⟩,
          { m.afterSlices n with interrupted := false, stopped := true },
          output ++ Writer.page (m.toldLines n)⟩) := by
  have hend : Ending m polls Writer.text n (output ++ Writer.page (m.toldLines n)) _ := .cut hyes
  exact hend.run hpolls hevents (Writer.takes_text ..)

/-- A run that is interrupted only after its first final event ends like the one that nobody
interrupts. -/
theorem run_eq_never_of_final {k : Nat} (hno : ∀ j < k, polls j = false)
    (hfinal : ∃ j < k, (m.sliceEvent j).isFinal = true) :
    ∃ r : Run String, m.run k polls Writer.text output = some r ∧
      m.run k never Writer.text output = some r := by
  obtain ⟨j, hj, hf⟩ := hfinal
  obtain ⟨n, hn, hbefore⟩ := exists_first (p := fun i => (m.sliceEvent i).isFinal) ⟨j, hf⟩
  have hlt : n + 1 ≤ k := by
    by_cases hlt : j < n
    · rw [hbefore j hlt] at hf
      cases hf
    · omega
  refine ⟨_, run_of_le hlt (run_of_final ?_ hbefore hn),
    run_of_le hlt (run_of_final (fun _ _ => rfl) hbefore hn)⟩
  exact fun i hi => hno i (by omega)

/-- Whatever the answers, what a run writes are whole lines, with which the output of the run
begins that nobody interrupts. -/
theorem output_of_run {slices slices' : Nat} {r r' : Run String}
    (hr : m.run slices polls Writer.text output = some r)
    (hr' : m.run slices' never Writer.text output = some r') :
    ∃ lines rest : List String, r.output = output ++ Writer.page lines ∧
      r'.output = output ++ Writer.page (lines ++ rest) := by
  have hequal : r = r' → ∃ lines rest : List String, r.output = output ++ Writer.page lines ∧
      r'.output = output ++ Writer.page (lines ++ rest) := by
    rintro rfl
    obtain ⟨lines, event, -, -, hlines⟩ := course_of_runFrom hr'
    exact ⟨lines, [], hlines, by simpa using hlines⟩
  by_cases hno : ∀ j, polls j = false
  · have hsame : polls = never := funext hno
    rw [hsame] at hr
    exact hequal (run_unique hr hr')
  · obtain ⟨k, hyes, hbefore⟩ := exists_first (by simpa using hno)
    by_cases hfinal : ∃ j < k, (m.sliceEvent j).isFinal = true
    · obtain ⟨r₀, hpolled, hwhole⟩ := run_eq_never_of_final hbefore hfinal
      exact hequal ((run_unique hr hpolled).trans (run_unique hr' hwhole).symm)
    · have hevents : ∀ j < k, (m.sliceEvent j).isFinal = false := fun j hj =>
        Bool.eq_false_iff.mpr fun hf => hfinal ⟨j, hj, hf⟩
      have hcut := run_unique hr (run_of_interruption hbefore hyes hevents)
      -- The whole run goes on from the output of the one that is cut.
      have hlong := run_of_le (Nat.le_add_left slices' k) hr'
      rw [run_never_add hevents] at hlong
      obtain ⟨rest, event, -, -, hrest⟩ := course_of_runFrom hlong
      refine ⟨m.toldLines k, rest, ?_, ?_⟩
      · rw [hcut]
        split <;> rfl
      · rw [hrest, Writer.page_append, String.append_assoc]

end Slices

/-! ## §3 Interruption -/

/-- In this slice the machine ran off the end of its program with tracing, so that it showed
its deque and stopped. -/
structure ShowsEnd (m : Machine) (n : Nat) : Prop where
  tracing : m.tracing = true
  ranOff : RanOff (m.sliceEvent n) (m.afterSlices (n + 1))

/-- The machine that no final event has stopped is stopped only by having shown its end. -/
theorem stopped_iff_showsEnd {m : Machine} (hs : m.stopped = false) (hi : m.interrupted = false)
    {n : Nat} (hevents : ∀ j < n, (m.sliceEvent j).isFinal = false) :
    (m.afterSlices n).stopped = true ↔ ∃ j, n = j + 1 ∧ m.ShowsEnd j := by
  constructor
  · intro hstopped
    rcases afterSlices_cases hs hi hevents with ⟨hs', -⟩ | ⟨j, rfl, hoff⟩
    · rw [hstopped] at hs'
      cases hs'
    · refine ⟨j, rfl, ?_, hoff⟩
      -- Without tracing the event would be final.
      have hevent := hevents j (by omega)
      rw [hoff.told, tracing_afterSlices] at hevent
      cases htr : m.tracing with
      | true => rfl
      | false => rw [htr] at hevent; cases hevent
  · rintro ⟨j, rfl, hend⟩
    exact hend.ranOff.stopped

/-- **Interruption between slices.** For a machine that runs, a writer that takes everything
and any answers to the questions before the slices:

* if no answer is yes, the run is that which nobody interrupts;
* if the first yes comes after a final event, the two runs end in the same way;
* if it comes before any final event, the run ends there. It has written the lines told so
  far, and the machine is stopped where it was. It fails as interrupted, unless the machine
  has shown its end in the last slice, in which case the run has ended well. The run that
  nobody interrupts goes on from the same machine and the same output;
* what the run has written, in whole lines, is the beginning of what the run writes that
  nobody interrupts. -/
theorem interruption_between_slices {m : Machine} (hs : m.stopped = false)
    (hi : m.interrupted = false) (polls : Nat → Bool) (output : String) :
    ((∀ j, polls j = false) → ∀ slices : Nat,
      m.run slices polls Writer.text output = m.run slices never Writer.text output) ∧
    (∀ k : Nat, (∀ j < k, polls j = false) → polls k = true →
      ((∃ j < k, (m.sliceEvent j).isFinal = true) →
        ∃ r : Run String, m.run k polls Writer.text output = some r ∧
          m.run k never Writer.text output = some r) ∧
      ((∀ j < k, (m.sliceEvent j).isFinal = false) →
        ∃ r : Run String, m.run (k + 1) polls Writer.text output = some r ∧
          r.output = output ++ Writer.page (m.toldLines k) ∧
          r.machine.ip = (m.afterSlices k).ip ∧ r.machine.deque = (m.afterSlices k).deque ∧
          r.machine.stopped = true ∧
          ((∃ j, k = j + 1 ∧ m.ShowsEnd j) → r.result = .ok .ended) ∧
          ((¬ ∃ j, k = j + 1 ∧ m.ShowsEnd j) →
            r.result = .error ⟨.interrupted, some (m.afterSlices k).ip, none, ""⟩) ∧
          ∀ more : Nat, m.run (k + more) never Writer.text output =
            runFrom Writer.text never more k (m.afterSlices k) r.output)) ∧
    ∀ (slices slices' : Nat) (r r' : Run String),
      m.run slices polls Writer.text output = some r →
      m.run slices' never Writer.text output = some r' →
        ∃ lines rest : List String, r.output = output ++ Writer.page lines ∧
          r'.output = output ++ Writer.page (lines ++ rest) := by
  refine ⟨?_, ?_, ?_⟩
  · intro hno slices
    have hsame : polls = never := funext hno
    rw [hsame]
  · intro k hno hyes
    refine ⟨run_eq_never_of_final hno, ?_⟩
    intro hevents
    refine ⟨_, run_of_interruption hno hyes hevents, ?_⟩
    have hstopped := stopped_iff_showsEnd hs hi hevents
    cases hcase : (m.afterSlices k).stopped with
    | true =>
      have hshown := hstopped.mp hcase
      exact ⟨rfl, rfl, rfl, hcase, fun _ => rfl, fun hnot => absurd hshown hnot,
        run_never_add hevents⟩
    | false =>
      have hnot : ¬ ∃ j, k = j + 1 ∧ m.ShowsEnd j := by
        intro hshown
        rw [hstopped.mpr hshown] at hcase
        cases hcase
      exact ⟨rfl, rfl, rfl, rfl, fun hshown => absurd hshown hnot, fun _ => rfl,
        run_never_add hevents⟩
  · intro slices slices' r r' hr hr'
    exact output_of_run hr hr'

/-- Both runs are interrupted before their second slice: the first has printed a line and
fails, the second has shown its end and has ended. -/
theorem interruption_between_slices_second :
    let printing : Program := { tokens := #[⟨"1!"⟩, ⟨"print!"⟩, ⟨"exit"⟩], labels := ∅ }
    let ending : Program := { tokens := #[], labels := ∅ }
    let polls : Nat → Bool := fun j => j == 1
    (∃ r : Run String, (start printing false).run 2 polls Writer.text "" = some r ∧
      r.output = "1\n" ∧ r.machine.ip = 2 ∧ r.machine.stopped = true ∧
      r.result = .error ⟨.interrupted, some 2, none, ""⟩) ∧
    ∃ r : Run String, (start ending true).run 2 polls Writer.text "" = some r ∧
      r.output = "[]\n" ∧ r.machine.ip = 0 ∧ r.machine.stopped = true ∧
      r.result = .ok .ended := by
  intro printing ending polls
  have hno : ∀ j < 1, polls j = false := by decide
  constructor
  · have hevents : ∀ j < 1, ((start printing false).sliceEvent j).isFinal = false := by
      decide +kernel
    obtain ⟨r, hr, hout, hip, -, hstop, -, hfail, -⟩ :=
      ((interruption_between_slices rfl rfl polls "").2.1 1 hno rfl).2 hevents
    have htold : (start printing false).toldLines 1 = ["1"] := by decide +kernel
    have haddress : ((start printing false).afterSlices 1).ip = 2 := by decide +kernel
    have hnot : ¬ ∃ j, 1 = j + 1 ∧ (start printing false).ShowsEnd j := by
      rintro ⟨j, -, hend⟩
      cases hend.tracing
    rw [htold] at hout
    rw [haddress] at hip hfail
    exact ⟨r, hr, hout, hip, hstop, hfail hnot⟩
  · have hevents : ∀ j < 1, ((start ending true).sliceEvent j).isFinal = false := by
      decide +kernel
    obtain ⟨r, hr, hout, hip, -, hstop, hwell, -, -⟩ :=
      ((interruption_between_slices rfl rfl polls "").2.1 1 hno rfl).2 hevents
    have htold : (start ending true).toldLines 1 = ["[]"] := by decide +kernel
    have haddress : ((start ending true).afterSlices 1).ip = 0 := by decide +kernel
    have hshown : ∃ j, 1 = j + 1 ∧ (start ending true).ShowsEnd j :=
      ⟨0, rfl, rfl, by decide +kernel, by decide +kernel, by decide +kernel⟩
    rw [htold] at hout
    rw [haddress] at hip
    exact ⟨r, hr, hout, hip, hstop, hwell hshown⟩

end Machine

end TwoEnded
