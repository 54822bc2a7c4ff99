/-
TwoEnded.Proofs.Slices — a run slice by slice, on any writer.

## §1 Slices

`m.afterSlices n` is the machine after `n` slices that nobody has interrupted,
`m.sliceEvent n` what it tells in the next one, and `m.toldLines n` the lines among its
first `n` events. A line is told in the last cycle of its slice (`exists_tick_of_line`), and
after a final event nothing is told any more (`sliceEvent_of_lt`).

## §2 Lines on a writer

`writer.takes lines output` is the output after the lines, or `none` if the writer refuses
one of them.

## §3 Runs

A run whose first slices are neither interrupted nor final, and whose writer takes the lines
that they told, goes on from the machine after them (`run_add_of_takes`). It then ends in one
of three ways, an `Ending`: with a final event, by an interruption, or with a line that
the writer refuses. Every run that ends does so (`run_ending`).
-/
import Mathlib.Data.Nat.Find
import TwoEnded.Proofs.Course
import TwoEnded.Proofs.Finality

namespace TwoEnded

/-! ## §1 Slices -/

/-- The line that the event tells. -/
def Event.line? : Event → Option String
  | .line text => some text
  | _ => none

theorem Writer.page_append (a b : List String) : page (a ++ b) = page a ++ page b := by
  induction a with
  | nil => simp
  | cons text a ih => simp [ih, String.append_assoc]

namespace Machine

/-- The machine after so many slices. -/
def afterSlices (m : Machine) : Nat → Machine
  | 0 => m
  | n + 1 => ((m.afterSlices n).execute sliceCycles).2

/-- What the machine tells in a slice, the slices being counted from zero. -/
def sliceEvent (m : Machine) (n : Nat) : Event := ((m.afterSlices n).execute sliceCycles).1

/-- The lines told in the first slices. -/
def toldLines (m : Machine) (n : Nat) : List String :=
  (List.range n).filterMap fun j => (m.sliceEvent j).line?

theorem execute_afterSlices (m : Machine) (n : Nat) :
    (m.afterSlices n).execute sliceCycles = (m.sliceEvent n, m.afterSlices (n + 1)) := rfl

theorem slice_afterSlices (m : Machine) (n : Nat) :
    (m.afterSlices n).slice false = (m.sliceEvent n, m.afterSlices (n + 1)) := rfl

@[simp] theorem toldLines_zero (m : Machine) : m.toldLines 0 = [] := rfl

theorem toldLines_succ (m : Machine) (n : Nat) :
    m.toldLines (n + 1) = m.toldLines n ++ (m.sliceEvent n).line?.toList := by
  rw [toldLines, List.range_succ, List.filterMap_append]
  cases h : (m.sliceEvent n).line? <;> simp [toldLines, h]

/-- What has been told stays told. -/
theorem toldLines_prefix (m : Machine) {n n' : Nat} (h : n ≤ n') :
    m.toldLines n <+: m.toldLines n' := by
  induction h with
  | refl => exact List.prefix_refl _
  | step _ ih =>
    rw [toldLines_succ]
    exact ih.trans (List.prefix_append ..)

/-- After a final event the machine says in every slice that it has stopped. -/
theorem sliceEvent_of_lt {m : Machine} {n j : Nat} (hf : (m.sliceEvent n).isFinal = true)
    (hlt : n < j) : m.sliceEvent j = .stopped := by
  have hstopped : ∀ more, (m.afterSlices (n + 1 + more)).stopped = true := by
    intro more
    induction more with
    | zero => exact stopped_of_isFinal (execute_afterSlices m n) hf
    | succ more ih => rw [← Nat.add_assoc, afterSlices, execute_of_stopped ih]; exact ih
  obtain ⟨more, rfl⟩ : ∃ more, j = n + 1 + more := ⟨j - (n + 1), by omega⟩
  rw [sliceEvent, execute_of_stopped (hstopped more)]

/-- Nothing is told after a final event. -/
theorem toldLines_of_lt {m : Machine} {n j : Nat} (hf : (m.sliceEvent n).isFinal = true)
    (hlt : n < j) : m.toldLines j = m.toldLines n := by
  induction j with
  | zero => omega
  | succ j ih =>
    rw [toldLines_succ]
    rcases Nat.lt_succ_iff_lt_or_eq.mp hlt with h | rfl
    · rw [ih h, sliceEvent_of_lt hf h]
      simp [Event.line?]
    · cases he : m.sliceEvent n with
      | line text => rw [he] at hf; cases hf
      | _ => simp [Event.line?]

/-- A line is told in the last cycle of the budget; the cycles before are silent. -/
theorem exists_tick_of_line {m m' : Machine} {budget : Nat} {text : String}
    (h : m.execute budget = (.line text, m')) :
    ∃ (spent : Nat) (m₀ : Machine), m.execute spent = (.running, m₀) ∧
      m₀.stopped = false ∧ m₀.tick = (.line text, m') := by
  induction budget generalizing m with
  | zero =>
    -- Without a cycle there is no line.
    unfold execute at h
    split at h
    · cases h
    · split at h <;> cases h
  | succ budget ih =>
    rw [Nat.add_comm, execute_add] at h
    split at h
    · next m₁ hfirst =>
      obtain ⟨spent, m₀, hspent, hs, htick⟩ := ih h
      refine ⟨1 + spent, m₀, ?_, hs, htick⟩
      rw [execute_add, hfirst]
      exact hspent
    · next hfirst =>
      have hruns : m.stopped = false ∧ m.interrupted = false := by
        unfold execute at h
        split at h
        · cases h
        · split at h
          · cases h
          · simp_all
      refine ⟨0, m, ?_, hruns.1, ?_⟩
      · rw [execute_of_running hruns.1 hruns.2, cycle]
      · rw [← execute_one hruns.1 hruns.2, h]

end Machine

/-! ## §2 Lines on a writer -/

namespace Writer

variable {σ : Type}

/-- The output after these lines, each with a line feed behind it; `none` if the writer
refuses one. -/
def takes (writer : Writer σ) : List String → σ → Option σ
  | [], output => some output
  | text :: lines, output =>
    match writer.write (text ++ "\n") output with
    | (none, output) => writer.takes lines output
    | (some _, _) => none

theorem takes_append (writer : Writer σ) (a b : List String) (output : σ) :
    writer.takes (a ++ b) output = (writer.takes a output).bind (writer.takes b) := by
  induction a generalizing output with
  | nil => rfl
  | cons text a ih =>
    simp only [List.cons_append, takes]
    split
    · exact ih _
    · rfl

/-- A writer that keeps the text takes every line. -/
@[simp] theorem takes_text (lines : List String) (output : String) :
    text.takes lines output = some (output ++ page lines) := by
  induction lines generalizing output with
  | nil => simp [takes]
  | cons line lines ih => simp [takes, text] at ih ⊢; simp [ih, String.append_assoc]

end Writer

/-! ## §3 Runs -/

namespace Machine

/-- If an answer is ever yes, there is a first one. -/
theorem exists_first {p : Nat → Bool} (h : ∃ j, p j = true) :
    ∃ k, p k = true ∧ ∀ j < k, p j = false :=
  ⟨Nat.find h, Nat.find_spec h, fun _ hj => Bool.eq_false_iff.mpr (Nat.find_min h hj)⟩

section Runs

variable {σ : Type} {m : Machine} {polls : Nat → Bool} {writer : Writer σ} {output written : σ}

theorem run_unique {slices slices' : Nat} {r r' : Run σ}
    (h : m.run slices polls writer output = some r)
    (h' : m.run slices' polls writer output = some r') : r = r' := by
  rcases Nat.le_total slices slices' with hle | hle
  · exact Option.some.inj ((run_of_le hle h).symm.trans h')
  · exact Option.some.inj (h.symm.trans (run_of_le hle h'))

/-- A run whose first slices are neither interrupted nor final, and whose writer takes what
they told, goes on after them. -/
theorem run_add_of_takes {n : Nat} (hpolls : ∀ j < n, polls j = false)
    (hevents : ∀ j < n, (m.sliceEvent j).isFinal = false)
    (htakes : writer.takes (m.toldLines n) output = some written) (more : Nat) :
    m.run (n + more) polls writer output =
      runFrom writer polls more n (m.afterSlices n) written := by
  induction n generalizing more written with
  | zero =>
    cases htakes
    simp [run, afterSlices]
  | succ n ih =>
    have hevent := hevents n (by omega)
    rw [toldLines_succ, Writer.takes_append, Option.bind_eq_some_iff] at htakes
    obtain ⟨before, hbefore, hlast⟩ := htakes
    rw [Nat.add_assoc, Nat.add_comm 1 more,
      ih (fun j hj => hpolls j (by omega)) (fun j hj => hevents j (by omega)) hbefore, runFrom,
      hpolls n (by omega), slice_afterSlices]
    cases he : m.sliceEvent n with
    | running =>
      rw [he] at hlast
      cases hlast
      rfl
    | line text =>
      simp only [he, Event.line?, Option.toList_some, Writer.takes] at hlast
      dsimp only
      cases hwrite : writer.write (text ++ "\n") before with
      | mk refusal after =>
        rw [hwrite] at hlast
        cases refusal with
        | none => cases hlast; rfl
        | some reason => cases hlast
    | _ => rw [he] at hevent; cases hevent

/-- The run that is cut before the next slice: it fails as interrupted, unless the machine has
stopped by itself. -/
def cutRun (m : Machine) (written : σ) : Run σ :=
  if m.stopped then ⟨.ok .ended, m.interrupt, written⟩
  else
    ⟨.error ⟨.interrupted, some m.ip, none, ""⟩,
      { m with interrupted := false, stopped := true }, written⟩

/-- How a run ends after so many slices that were neither interrupted nor final, with so much
written. -/
inductive Ending (m : Machine) (polls : Nat → Bool) (writer : Writer σ) (n : Nat) (written : σ) :
    Run σ → Prop
  | final (hno : polls n = false) (hf : (m.sliceEvent n).isFinal = true) :
      Ending m polls writer n written
        ⟨(m.sliceEvent n).result, m.afterSlices (n + 1), written⟩
  | cut (hyes : polls n = true) : Ending m polls writer n written ((m.afterSlices n).cutRun written)
  | refused {text reason : String} {refused : σ} (hno : polls n = false)
      (hline : m.sliceEvent n = .line text)
      (hwrite : writer.write (text ++ "\n") written = (some reason, refused)) :
      Ending m polls writer n written
        ⟨.error ((m.afterSlices (n + 1)).outputFault reason), m.afterSlices (n + 1), refused⟩

/-- The slice in which a run ends. -/
theorem Ending.runFrom {n : Nat} {r : Run σ} (h : Ending m polls writer n written r)
    (more : Nat) :
    runFrom writer polls (more + 1) n (m.afterSlices n) written = some r := by
  rw [Machine.runFrom]
  cases h with
  | final hno hf =>
    rw [hno, slice_afterSlices]
    cases he : m.sliceEvent n with
    | running => rw [he] at hf; cases hf
    | line text => rw [he] at hf; cases hf
    | _ => rfl
  | cut hyes =>
    rw [hyes, slice, if_pos rfl]
    cases hs : (m.afterSlices n).stopped with
    | true =>
      rw [execute_of_stopped (m := (m.afterSlices n).interrupt) hs, cutRun, if_pos hs]
    | false =>
      rw [execute_of_interrupted (m := (m.afterSlices n).interrupt) hs rfl, cutRun, hs]
      rfl
  | refused hno hline hwrite =>
    rw [hno, slice_afterSlices, hline]
    simp [hwrite]

/-- A run that has come to its end ends there. -/
theorem Ending.run {n : Nat} {r : Run σ} (h : Ending m polls writer n written r)
    (hpolls : ∀ j < n, polls j = false) (hevents : ∀ j < n, (m.sliceEvent j).isFinal = false)
    (htakes : writer.takes (m.toldLines n) output = some written) :
    m.run (n + 1) polls writer output = some r := by
  rw [run_add_of_takes hpolls hevents htakes]
  exact h.runFrom 0

/-- Every run that ends does so after some slices that were neither interrupted nor final, and
whose lines its writer has taken. -/
theorem run_ending {slices : Nat} {r : Run σ} (h : m.run slices polls writer output = some r) :
    ∃ (n : Nat) (written : σ), n < slices ∧ (∀ j < n, polls j = false) ∧
      (∀ j < n, (m.sliceEvent j).isFinal = false) ∧
      writer.takes (m.toldLines n) output = some written ∧ Ending m polls writer n written r := by
  -- Induction on the slices that are left after the first `n`.
  suffices hgen : ∀ (left n : Nat) (written : σ), (∀ j < n, polls j = false) →
      (∀ j < n, (m.sliceEvent j).isFinal = false) →
      writer.takes (m.toldLines n) output = some written →
      runFrom writer polls left n (m.afterSlices n) written = some r →
      ∃ (k : Nat) (written' : σ), k < n + left ∧ (∀ j < k, polls j = false) ∧
        (∀ j < k, (m.sliceEvent j).isFinal = false) ∧
        writer.takes (m.toldLines k) output = some written' ∧
        Ending m polls writer k written' r by
    simpa using hgen slices 0 output (by simp) (by simp) rfl h
  intro left
  induction left with
  | zero =>
    intro n written _ _ _ hr
    cases hr
  | succ left ih =>
    intro n written hpolls hevents htakes hr
    by_cases hends : ∃ r', Ending m polls writer n written r'
    · obtain ⟨r', hend⟩ := hends
      rw [hend.runFrom left] at hr
      cases hr
      exact ⟨n, written, by omega, hpolls, hevents, htakes, hend⟩
    · -- The slice is neither interrupted nor final, and its line, if any, is taken.
      have hno : polls n = false := Bool.eq_false_iff.mpr fun hyes => hends ⟨_, .cut hyes⟩
      have hgoes : (m.sliceEvent n).isFinal = false :=
        Bool.eq_false_iff.mpr fun hf => hends ⟨_, .final hno hf⟩
      have hlast : ∃ next, writer.takes (m.sliceEvent n).line?.toList written = some next := by
        cases he : m.sliceEvent n with
        | line text =>
          cases hwrite : writer.write (text ++ "\n") written with
          | mk reason next =>
            cases reason with
            | none => exact ⟨next, by simp [Event.line?, Writer.takes, hwrite]⟩
            | some reason => exact absurd ⟨_, .refused hno he hwrite⟩ hends
        | _ => exact ⟨written, rfl⟩
      obtain ⟨next, hnext⟩ := hlast
      have hpolls' : ∀ j < n + 1, polls j = false := fun j hj => by
        rcases Nat.lt_succ_iff_lt_or_eq.mp hj with hj | rfl
        · exact hpolls j hj
        · exact hno
      have hevents' : ∀ j < n + 1, (m.sliceEvent j).isFinal = false := fun j hj => by
        rcases Nat.lt_succ_iff_lt_or_eq.mp hj with hj | rfl
        · exact hevents j hj
        · exact hgoes
      have htakes' : writer.takes (m.toldLines (n + 1)) output = some next := by
        rw [toldLines_succ, Writer.takes_append, htakes]
        exact hnext
      rw [← run_add_of_takes hpolls hevents htakes, ← Nat.add_assoc, Nat.add_right_comm,
        run_add_of_takes hpolls' hevents' htakes'] at hr
      obtain ⟨k, written', hk, hrest⟩ := ih (n + 1) next hpolls' hevents' htakes' hr
      exact ⟨k, written', by omega, hrest⟩

end Runs

end Machine

end TwoEnded
