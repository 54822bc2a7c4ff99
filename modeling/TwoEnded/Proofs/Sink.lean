/-
TwoEnded.Proofs.Sink — a sink that is full cuts the output and nothing else.

A run on a writer that takes so many bytes in all is compared with the run on a writer that
takes everything. Both spend the same slices, so that they can be compared slice by slice.

## §1 Bytes

A writer with a limit takes lines as long as all their bytes fit (`takes_limited`). Of a
text that does not fit it keeps what brings the output to the limit (`limited_refuses`).

## §2 Runs

`m.written n` is what the run has written after `n` slices if its writer takes everything,
whether the run has ended by then or not. As long as it fits, the two runs are the same
(`run_limited_of_le`). If it does not, there is a first line that crosses the limit
(`exists_crossing`), and at this line the run with the limit has failed
(`run_limited_of_crosses`).
-/
import TwoEnded.Proofs.Slices

namespace TwoEnded

/-! ## §1 Bytes -/

namespace Writer

variable {limit : Nat} {reason : String}

theorem extract_of_size_le {bytes : ByteArray} (h : bytes.size ≤ limit) :
    bytes.extract 0 limit = bytes := by
  have hall := ByteArray.extract_zero_max_size (a := bytes) (i := limit)
  rwa [Nat.max_eq_left h] at hall

theorem extract_append_of_le_size {bytes later : ByteArray} (h : limit ≤ bytes.size) :
    (bytes ++ later).extract 0 limit = bytes.extract 0 limit := by
  have hnone : later.extract (0 - bytes.size) (limit - bytes.size) = .empty := by
    rw [ByteArray.extract_eq_empty_iff]
    omega
  rw [ByteArray.extract_append, hnone, ByteArray.append_empty]

theorem limited_takes {text : String} {written : ByteArray}
    (h : (written ++ text.toUTF8).size ≤ limit) :
    (limited limit reason).write text written = (none, written ++ text.toUTF8) := by
  rw [ByteArray.size_append] at h
  simp only [limited]
  rw [if_pos h]

/-- Of a text that does not fit, the beginning is written up to the limit. -/
theorem limited_refuses {text : String} {written : ByteArray} (hroom : written.size ≤ limit)
    (h : limit < (written ++ text.toUTF8).size) :
    (limited limit reason).write text written =
      (some reason, (written ++ text.toUTF8).extract 0 limit) := by
  rw [ByteArray.size_append] at h
  simp only [limited]
  rw [if_neg (by omega), ByteArray.extract_append, extract_of_size_le hroom, Nat.zero_sub]

/-- Lines are taken as long as they fit together. -/
theorem takes_limited {lines : List String} {written : ByteArray}
    (h : (written ++ (page lines).toUTF8).size ≤ limit) :
    (limited limit reason).takes lines written = some (written ++ (page lines).toUTF8) := by
  induction lines generalizing written with
  | nil => simp [takes]
  | cons text lines ih =>
    have hbytes : written ++ (page (text :: lines)).toUTF8 =
        written ++ (text ++ "\n").toUTF8 ++ (page lines).toUTF8 := by
      simp [ByteArray.append_assoc]
    rw [hbytes] at h ⊢
    have hfirst : (written ++ (text ++ "\n").toUTF8).size ≤ limit := by
      rw [ByteArray.size_append] at h
      omega
    rw [takes, limited_takes hfirst]
    exact ih h

end Writer

/-! ## §2 Runs -/

namespace Machine

/-- What the run has written after so many slices if its writer takes everything. -/
def written (m : Machine) (n : Nat) : String := Writer.page (m.toldLines n)

theorem written_eq_append (m : Machine) {n n' : Nat} (h : n ≤ n') :
    ∃ later, m.written n' = m.written n ++ later := by
  obtain ⟨lines, hlines⟩ := m.toldLines_prefix h
  exact ⟨Writer.page lines, by rw [written, written, ← hlines, Writer.page_append]⟩

/-- The run has ended exactly if there was a final event. -/
theorem run_text_eq_none_iff {m : Machine} {n : Nat} {output : String} :
    m.run n never Writer.text output = none ↔ ∀ j < n, (m.sliceEvent j).isFinal = false := by
  constructor
  · intro hnone j hj
    by_contra hf
    obtain ⟨k, hk, hbefore⟩ := exists_first (p := fun i => (m.sliceEvent i).isFinal)
      ⟨j, by simpa using hf⟩
    have hle : k ≤ j := by
      by_contra hlt
      exact hf (hbefore j (by omega))
    have hend : Ending m never Writer.text k (output ++ m.written k) _ := .final rfl hk
    have hsome := hend.run (fun _ _ => rfl) hbefore (Writer.takes_text ..)
    rw [run_of_le (by omega) hsome] at hnone
    cases hnone
  · intro hevents
    exact run_add_of_takes (fun _ _ => rfl) hevents (Writer.takes_text ..) 0

/-- A run on a writer that takes everything has ended with a final event, and has written what
was told before it. -/
theorem run_text_eq_some {m : Machine} {n : Nat} {r : Run String}
    (h : m.run n never Writer.text "" = some r) :
    ∃ k < n, (∀ j < k, (m.sliceEvent j).isFinal = false) ∧ (m.sliceEvent k).isFinal = true ∧
      m.written n = m.written k ∧
      r = ⟨(m.sliceEvent k).result, m.afterSlices (k + 1), m.written k⟩ := by
  obtain ⟨k, output, hk, -, hevents, htakes, hend⟩ := run_ending h
  have houtput : output = m.written k := by simpa [written] using htakes.symm
  cases hend with
  | final _ hf =>
    have htold : m.written n = m.written k := by rw [written, toldLines_of_lt hf hk, written]
    exact ⟨k, hk, hevents, hf, htold, by rw [houtput]⟩
  | cut hyes => cases hyes
  | refused _ _ hwrite => cases hwrite

section Limit

variable {m : Machine} {limit : Nat} {reason : String}

/-- What fits is taken. -/
theorem takes_toldLines {n : Nat} (hfits : (m.written n).toUTF8.size ≤ limit) :
    (Writer.limited limit reason).takes (m.toldLines n) .empty = some (m.written n).toUTF8 := by
  rw [Writer.takes_limited]
  · rw [ByteArray.empty_append, written]
  · rwa [ByteArray.empty_append]

/-- As long as the output fits, the limit makes no difference. -/
theorem run_limited_of_le {n : Nat} {r : Run String} (h : m.run n never Writer.text "" = some r)
    (hfits : (m.written n).toUTF8.size ≤ limit) :
    m.run n never (Writer.limited limit reason) .empty =
      some ⟨r.result, r.machine, r.output.toUTF8⟩ := by
  obtain ⟨k, hk, hevents, hf, htold, rfl⟩ := run_text_eq_some h
  rw [htold] at hfits
  have hend : Ending m never (Writer.limited limit reason) k (m.written k).toUTF8 _ :=
    .final rfl hf
  exact run_of_le hk (hend.run (fun _ _ => rfl) hevents (takes_toldLines hfits))

/-- In this slice the line is told with which the output crosses the limit. -/
structure Crosses (m : Machine) (limit k : Nat) (text : String) : Prop where
  line : m.sliceEvent k = .line text
  before : (m.written k).toUTF8.size ≤ limit
  after : limit < (m.written (k + 1)).toUTF8.size

/-- An output that exceeds the limit has crossed it with some line. -/
theorem exists_crossing {n : Nat} (h : limit < (m.written n).toUTF8.size) :
    ∃ k text, k < n ∧ m.Crosses limit k text := by
  induction n with
  | zero =>
    have hempty : (m.written 0).toUTF8.size = 0 := rfl
    omega
  | succ n ih =>
    by_cases hbefore : limit < (m.written n).toUTF8.size
    · obtain ⟨k, text, hk, hcross⟩ := ih hbefore
      exact ⟨k, text, by omega, hcross⟩
    · cases he : m.sliceEvent n with
      | line text => exact ⟨n, text, by omega, he, by omega, h⟩
      | _ =>
        -- Without a line the output is the same as before.
        rw [written, toldLines_succ, he] at h
        simp only [Event.line?, Option.toList_none, List.append_nil] at h
        exact absurd h hbefore

theorem Crosses.written_succ {k : Nat} {text : String} (h : m.Crosses limit k text) :
    m.written (k + 1) = m.written k ++ (text ++ "\n") := by
  rw [written, toldLines_succ, h.line, Writer.page_append, ← written]
  simp [Event.line?]

/-- No event before the line is final, since nothing is told after a final event. -/
theorem Crosses.events {k : Nat} {text : String} (h : m.Crosses limit k text) :
    ∀ j < k + 1, (m.sliceEvent j).isFinal = false := by
  intro j hj
  by_contra hf
  have hfinal : (m.sliceEvent j).isFinal = true := by simpa using hf
  rcases Nat.lt_succ_iff_lt_or_eq.mp hj with hlt | rfl
  · have hstopped := sliceEvent_of_lt hfinal hlt
    rw [h.line] at hstopped
    cases hstopped
  · rw [h.line] at hfinal
    cases hfinal

/-- At the line that crosses the limit the run fails, with the beginning of the output
written. -/
theorem run_limited_of_crosses {k n : Nat} {text : String} (h : m.Crosses limit k text)
    (hk : k < n) :
    m.run n never (Writer.limited limit reason) .empty =
      some ⟨.error ⟨.ioError, some (m.afterSlices (k + 1)).ip, none, reason⟩,
        m.afterSlices (k + 1), (m.written n).toUTF8.extract 0 limit⟩ := by
  have hbytes : (m.written (k + 1)).toUTF8 = (m.written k).toUTF8 ++ (text ++ "\n").toUTF8 := by
    rw [h.written_succ]
    exact String.toByteArray_append
  have hcut : (m.written n).toUTF8.extract 0 limit =
      (m.written (k + 1)).toUTF8.extract 0 limit := by
    obtain ⟨later, hlater⟩ := m.written_eq_append hk
    have hsplit : (m.written n).toUTF8 = (m.written (k + 1)).toUTF8 ++ later.toUTF8 := by
      rw [hlater]
      exact String.toByteArray_append
    rw [hsplit, Writer.extract_append_of_le_size (Nat.le_of_lt h.after)]
  have hrefused : (Writer.limited limit reason).write (text ++ "\n") (m.written k).toUTF8 =
      (some reason, (m.written n).toUTF8.extract 0 limit) := by
    have hafter := h.after
    rw [hbytes] at hafter
    rw [Writer.limited_refuses h.before hafter, hcut, hbytes]
  have hend : Ending m never (Writer.limited limit reason) k (m.written k).toUTF8 _ :=
    .refused rfl h.line hrefused
  have hevents : ∀ j < k, (m.sliceEvent j).isFinal = false := fun j hj => h.events j (by omega)
  exact run_of_le hk (hend.run (fun _ _ => rfl) hevents (takes_toldLines h.before))

end Limit

/-- **A full sink truncates.** For a machine in any state and any limit, the run with the limit
compared with the run whose writer takes everything:

* that run has written `m.written n` after `n` slices, whether it has ended or goes on;
* if it has ended and its output fits, both have the same result, machine and output;
* as soon as its output exceeds the limit, the run with the limit has failed. It has written
  the output up to the limit, and its machine is that of the other run right after the cycle
  in which the line was told that crosses the limit. -/
theorem full_sink_truncates (m : Machine) (limit : Nat) :
    (∀ (n : Nat) (r : Run String), m.run n never Writer.text "" = some r →
      r.output = m.written n ∧
      (r.output.toUTF8.size ≤ limit →
        m.run n never (Writer.limited limit "sink full") .empty =
          some ⟨r.result, r.machine, r.output.toUTF8⟩)) ∧
    (∀ n : Nat, m.run n never Writer.text "" = none → ∀ more : Nat,
      m.run (n + more) never Writer.text "" =
        runFrom Writer.text never more n (m.afterSlices n) (m.written n)) ∧
    ∀ n : Nat, limit < (m.written n).toUTF8.size →
      ∃ (k : Nat) (text : String), k < n ∧ m.Crosses limit k text ∧
        m.run (k + 1) never Writer.text "" = none ∧
        (∃ (spent : Nat) (m₀ : Machine), (m.afterSlices k).execute spent = (.running, m₀) ∧
          m₀.tick = (.line text, m.afterSlices (k + 1))) ∧
        m.run n never (Writer.limited limit "sink full") .empty =
          some ⟨.error ⟨.ioError, some (m.afterSlices (k + 1)).ip, none, "sink full"⟩,
            m.afterSlices (k + 1), (m.written n).toUTF8.extract 0 limit⟩ := by
  refine ⟨?_, ?_, ?_⟩
  · intro n r hr
    obtain ⟨k, -, -, -, htold, hrun⟩ := run_text_eq_some hr
    have houtput : r.output = m.written n := by rw [hrun, htold]
    refine ⟨houtput, fun hfits => ?_⟩
    rw [houtput] at hfits
    exact run_limited_of_le hr hfits
  · intro n hnone more
    have hevents := run_text_eq_none_iff.mp hnone
    exact run_add_of_takes (fun _ _ => rfl) hevents (by simp [written]) more
  · intro n hn
    obtain ⟨k, text, hk, hcross⟩ := exists_crossing hn
    obtain ⟨spent, m₀, hspent, -, htick⟩ :=
      exists_tick_of_line ((execute_afterSlices m k).trans (by rw [hcross.line]))
    exact ⟨k, text, hk, hcross, run_text_eq_none_iff.mpr hcross.events,
      ⟨spent, m₀, hspent, htick⟩, run_limited_of_crosses hcross hk⟩

/-- The limit falls into the two bytes of a letter in an announcement. -/
theorem full_sink_truncates_within_letter :
    let p : Program := { tokens := #[⟨"é:"⟩, ⟨"exit"⟩], labels := (∅ : Labels).insert "é" 0 }
    4 < ((start p true).written 1).toUTF8.size ∧
      ∃ r : Run ByteArray,
        (start p true).run 1 never (Writer.limited 4 "sink full") .empty = some r ∧
        r.output = ⟨#[0x30, 0x3a, 0x20, 0xc3]⟩ ∧ r.machine.ip = 0 ∧
        r.result = .error ⟨.ioError, some 0, none, "sink full"⟩ := by
  intro p
  have hlong : 4 < ((start p true).written 1).toUTF8.size := by decide +kernel
  obtain ⟨k, text, hk, -, -, -, hrun⟩ := (full_sink_truncates (start p true) 4).2.2 1 hlong
  obtain rfl : k = 0 := by omega
  have hcut : ((start p true).written 1).toUTF8.extract 0 4 = ⟨#[0x30, 0x3a, 0x20, 0xc3]⟩ := by
    decide +kernel
  have haddress : ((start p true).afterSlices 1).ip = 0 := by decide +kernel
  refine ⟨hlong, _, hrun, hcut, haddress, ?_⟩
  rw [haddress]

end Machine

end TwoEnded
