/-
TwoEnded.Proofs.Countdown — a loop that counts down, from its text to its output.

## §1 The source

`Countdown.source n` is the text of a program that prints the number `n`, takes one away, and goes
back as long as something is left.

## §2 The program

The text is in normal form, so that its tokens are its words. It is loaded with one label, and each
of its tokens has become the instruction that `Countdown.code` lists.

## §3 The run

A lap of the loop prints the number it finds, takes one away, and comes back to the label if what
is left is positive, and to the exit if not (`lap`). The laps from a positive number on are counted
by that number (`laps`). Since a lap begins with printing, there is always one, and the number that
it leaves may be out of range.
-/
import TwoEnded.Proofs.LabelJumps
import TwoEnded.Proofs.Literals
import TwoEnded.Proofs.NormalForm
import TwoEnded.Proofs.Slices

namespace TwoEnded

namespace Countdown

/-! ## §1 The source -/

/-- The text of the program that counts down from a number. -/
def source (n : Int64) : String :=
  Numeral.write n.toInt ++ "! loop: dup! print! 1! sub! dup! 0! <! loop! jmpif! exit"

/-- The numbers from `k` down to one, in decimal. -/
def lines : Nat → List String
  | 0 => []
  | k + 1 => Numeral.write (k + 1) :: lines k

/-! ## §2 The program -/

/-- The tokens behind the number. -/
def body : List Token :=
  [⟨"loop:"⟩, ⟨"dup!"⟩, ⟨"print!"⟩, ⟨"1!"⟩, ⟨"sub!"⟩, ⟨"dup!"⟩, ⟨"0!"⟩, ⟨"<!"⟩, ⟨"loop!"⟩,
    ⟨"jmpif!"⟩, ⟨"exit"⟩]

/-- The tokens of the program. -/
def tokens (n : Int64) : List Token := Form.behind.token (Numeral.write n.toInt) :: body

/-- The one label is behind the number. -/
def labels : Labels := (∅ : Labels).insert "loop" 1

/-- The program. -/
def program (n : Int64) : Program where
  tokens := (tokens n).toArray
  labels := labels

/-- The instructions behind the number. -/
def bodyCode : List Instruction :=
  [.landmark, .apply (some .right) .dup, .apply (some .right) .print,
    .push (some .right) (.known 1), .apply (some .right) (.binary .sub),
    .apply (some .right) .dup, .push (some .right) (.known 0),
    .apply (some .right) (.binary .lt), .push (some .right) (.known 1),
    .apply (some .right) .jumpIf, .apply none .exit]

/-- The instructions of the program. -/
def code (n : Int64) : List Instruction := .push (some .right) (.known n) :: bodyCode

theorem source_eq_joined (n : Int64) : source n = Source.joined (tokens n) := by
  have hjoined : Source.joined (tokens n) =
      Numeral.write n.toInt ++ " ".intercalate ("!" :: body.map Token.text) :=
    String.intercalate_cons_append
  rw [hjoined, source]
  rfl

theorem normal_tokens (n : Int64) : Source.Normal (tokens n) := by
  have hbody : ∀ t ∈ body, t.text ≠ "" ∧ ' ' ∉ t.text.toList ∧ '\n' ∉ t.text.toList ∧
      '#' ∉ t.text.toList := by
    decide +kernel
  apply Source.normal_of_plain
  intro t ht
  rcases List.mem_cons.mp ht with rfl | ht
  · simp [Form.token, Numeral.not_mem_write, Char.isDigit]
  · exact hbody t ht

theorem ofSource_source (n : Int64) : Program.ofSource (source n) = .ok (program n) := by
  have hnumber : (Form.behind.token (Numeral.write n.toInt)).label? = none :=
    Form.label?_of_ne (by decide) (Numeral.denotes_write n.toInt).unmarked
  have hlabels : Labels.collect ∅ 0 (tokens n) = .ok labels := by
    rw [tokens, Labels.collect, hnumber]
    rfl
  rw [Program.ofSource, source_eq_joined, Source.tokens_joined (normal_tokens n), Program.load,
    hlabels]
  rfl

theorem map_instruction (n : Int64) : (tokens n).map (Token.instruction labels) = code n := by
  have hbody : body.map (Token.instruction labels) = bodyCode := by decide +kernel
  rw [tokens, List.map_cons, hbody, Form.instruction_number labels (by decide)]
  rfl

/-- The token at an address has become the instruction that is listed there. -/
theorem token?_of_code {n : Int64} {i : Instruction} (ip : Nat) (h : (code n)[ip]? = some i) :
    ∃ t, (program n).token? ip = some t ∧ t.instruction (program n).labels = i := by
  rw [← map_instruction, List.getElem?_map, Option.map_eq_some_iff] at h
  obtain ⟨t, ht, hinstr⟩ := h
  exact ⟨t, by simpa [program, Program.token?] using ht, hinstr⟩

/-! ## §3 The run -/

section Run

open Machine

variable {n v w : Int64} {m : Machine} {ip : Nat} {i : Instruction} {before after : List Value}

theorem advance (hi : (code n)[ip]? = some i) (h : Stands (program n) .right m ip before)
    (hyields : i.perform.Yields .right before (.ok .advance) after) :
    GoesTo (program n) .right m 1 (ip + 1) after := by
  obtain ⟨t, ht, rfl⟩ := token?_of_code ip hi
  exact h.advance ht hyields

/-- A lap begins with printing the number. -/
theorem lap_prints (h : Stands (program n) .right m 1 [.int w]) :
    ∃ m₁ m₂, m.execute 2 = (.running, m₁) ∧ m₁.execute 1 = (.line (Numeral.write w.toInt), m₂) ∧
      Stands (program n) .right m₂ 4 [.int w] := by
  have hdup : GoesTo (program n) .right m 2 3 [.int w, .int w] :=
    (advance rfl h (.pure _)).trans fun m₁ h₁ => advance rfl h₁ (Opcode.yields_dup (by decide))
  obtain ⟨m₁, hsilent, h₁⟩ := hdup
  obtain ⟨t, ht, hinstr⟩ := token?_of_code (n := n) 3 rfl
  obtain ⟨m₂, hline, h₂⟩ := h₁.say ht (by rw [hinstr]; exact Opcode.yields_print)
  exact ⟨m₁, m₂, hsilent, hline, h₂⟩

/-- One less than the number, as the program takes it away. -/
theorem apply_sub (hv : v.toInt = w.toInt - 1) :
    Operator.sub.apply (.int 1) (.int w) = .ok (.int v) := by
  have hfits : Numeral.fits (w.toInt - 1) = true := hv ▸ Value.fits_toInt (.int v)
  show Value.checked (w.toInt - 1) = .ok (.int v)
  rw [Value.checked, if_pos hfits, ← hv, Int64.ofInt_toInt]

/-- After it has printed, a lap takes one away and compares what is left with zero. -/
theorem lap_compares (h : Stands (program n) .right m 4 [.int w]) (hv : v.toInt = w.toInt - 1) :
    GoesTo (program n) .right m 6 10 [.int 1, .bool (decide (0 < v)), .int v] := by
  have hsub : GoesTo (program n) .right m 2 6 [.int v] :=
    (advance rfl h (Instruction.yields_push (by simp [Deque.capacity]))).trans fun m₁ h₁ =>
      advance rfl h₁ (Opcode.yields_binary (apply_sub hv) (by decide))
  have hzero : GoesTo (program n) .right m 4 8 [.int 0, .int v, .int v] :=
    (hsub.trans fun m₂ h₂ => advance rfl h₂ (Opcode.yields_dup (by decide))).trans fun m₃ h₃ =>
      advance rfl h₃ (Instruction.yields_push (by simp [Deque.capacity]))
  exact (hzero.trans fun m₄ h₄ =>
      advance rfl h₄ (Opcode.yields_binary rfl (by simp [Deque.capacity]))).trans fun m₅ h₅ =>
    advance rfl h₅ (Instruction.yields_push (by simp [Deque.capacity]))

/-- A lap ends with a jump to the label if what is left is positive, and before the exit if it is
not. -/
theorem lap_jumps (h : Stands (program n) .right m 10 [.int 1, .bool (decide (0 < v)), .int v]) :
    GoesTo (program n) .right m 1 (if 0 < v.toInt then 1 else 11) [.int v] := by
  obtain ⟨t, ht, hinstr⟩ := token?_of_code (n := n) 10 rfl
  have hpositive : 0 < v ↔ 0 < v.toInt := Int64.lt_iff_toInt_lt
  have hyields := @Opcode.yields_jumpIf .right (.int 1) (.bool (decide (0 < v))) [.int v]
  by_cases hleft : 0 < v.toInt
  · rw [decide_eq_true (hpositive.mpr hleft)] at h hyields
    rw [if_pos hleft]
    exact h.jump ht (by rw [hinstr]; exact hyields)
  · rw [decide_eq_false (mt hpositive.mp hleft)] at h hyields
    rw [if_neg hleft]
    exact h.advance ht (by rw [hinstr]; exact hyields)

/-- **A lap**: the number is printed, and one less is taken to the next lap, or to the exit. -/
theorem lap (h : Stands (program n) .right m 1 [.int w]) (hv : v.toInt = w.toInt - 1) :
    ∃ m', Stands (program n) .right m' (if 0 < v.toInt then 1 else 11) [.int v] ∧
      ∀ {rest : List String} {event : Event} {last : Machine}, Course m' rest event last →
        Course m (Numeral.write w.toInt :: rest) event last := by
  obtain ⟨m₁, m₂, hsilent, hline, h₂⟩ := lap_prints h
  obtain ⟨m₃, hcounts, h₃⟩ := (lap_compares h₂ hv).trans fun _ h' => lap_jumps h'
  exact ⟨m₃, h₃, fun hrest => .of_silent hsilent (.line hline (.of_silent hcounts hrest))⟩

theorem toList_of_seenFrom_singleton {d : Deque Value} {x : Value} (h : d.seenFrom .right = [x]) :
    d.toList = [x] := by
  have hreverse := congrArg List.reverse h
  simpa [Deque.seenFrom] using hreverse

/-- At the exit the run ends. -/
theorem exits (h : Stands (program n) .right m 11 [.int v]) :
    ∃ m', Course m [] .exit m' ∧ m'.deque.toList = [.int v] ∧ m'.ip = 11 := by
  obtain ⟨t, ht, hinstr⟩ := token?_of_code (n := n) 11 rfl
  obtain ⟨m', hexit, hip, hdeque⟩ := h.exit ht (by rw [hinstr]; exact .pure _)
  exact ⟨m', .final hexit rfl, toList_of_seenFrom_singleton hdeque, hip⟩

/-- The last lap: nothing positive is left. -/
theorem last_lap (h : Stands (program n) .right m 1 [.int w]) (hv : v.toInt = w.toInt - 1)
    (hlow : w.toInt ≤ 1) :
    ∃ m', Course m [Numeral.write w.toInt] .exit m' ∧ m'.deque.toList = [.int v] ∧
      m'.ip = 11 := by
  obtain ⟨m₁, h₁, hcourse⟩ := lap h hv
  rw [if_neg (by omega)] at h₁
  obtain ⟨m', hexit, hdeque, hip⟩ := exits h₁
  exact ⟨m', hcourse hexit, hdeque, hip⟩

/-- From a positive number on there are as many laps as it says. -/
theorem laps {k : Nat} (h : Stands (program n) .right m 1 [.int w]) (hw : w.toInt = k + 1) :
    ∃ m', Course m (lines (k + 1)) .exit m' ∧ m'.deque.toList = [.int 0] ∧ m'.ip = 11 := by
  have hline : Numeral.write w.toInt = Numeral.write (k + 1) := by rw [hw]
  induction k generalizing m w with
  | zero =>
    have hzero : Int64.toInt 0 = w.toInt - 1 := by rw [hw]; rfl
    have hlast := last_lap h hzero (by omega)
    rwa [hline] at hlast
  | succ k ih =>
    have hfits : Numeral.fits (k + 1 : Nat) = true := by
      have hrange := Value.fits_toInt (.int w)
      rw [Numeral.fits_iff, Value.toInt, Value.word, hw] at hrange
      rw [Numeral.fits_iff]
      omega
    have hv : (Int64.ofInt (k + 1 : Nat)).toInt = (k + 1 : Nat) := Value.toInt_ofInt hfits
    obtain ⟨m₁, h₁, hcourse⟩ := lap h (v := Int64.ofInt (k + 1 : Nat)) (by omega)
    rw [if_pos (by omega)] at h₁
    obtain ⟨m', hrest, hend⟩ := ih h₁ hv (by rw [hv]; rfl)
    refine ⟨m', ?_, hend⟩
    rw [lines, ← hline]
    exact hcourse hrest

/-- One less than the least number is out of range. -/
theorem least_fails (h : Stands (program n) .right m 1 [.int w])
    (hw : w.toInt = -9223372036854775808) :
    ∃ m', Course m [Numeral.write w.toInt]
        (.failed ((Fault.ofKind .overflow).located 5 "sub!")) m' ∧ m'.deque.toList = [] := by
  obtain ⟨m₁, m₂, hsilent, hline, h₂⟩ := lap_prints h
  obtain ⟨m₃, hone, h₃⟩ := advance rfl h₂ (Instruction.yields_push (by simp [Deque.capacity]))
  have hout : Operator.sub.apply (.int 1) (.int w) = .error (Fault.ofKind .overflow) := by
    show Value.checked (w.toInt - 1) = .error (Fault.ofKind .overflow)
    rw [hw]
    rfl
  have hsub : (program n).token? 5 = some ⟨"sub!"⟩ := rfl
  obtain ⟨t, ht, hinstr⟩ := token?_of_code (n := n) 5 rfl
  obtain rfl : (⟨"sub!"⟩ : Token) = t := Option.some.inj (hsub.symm.trans ht)
  obtain ⟨m', hfails, hdeque⟩ :=
    h₃.fail ht (by rw [hinstr]; exact Opcode.yields_binary_error hout)
  refine ⟨m', .of_silent hsilent (.line hline (.of_silent hone (.final hfails rfl))), ?_⟩
  exact Deque.toList_of_seenFrom_nil hdeque

/-- The first instruction takes the number to the label. -/
theorem enters (n : Int64) : GoesTo (program n) .right (start (program n) false) 1 1 [.int n] :=
  advance rfl (stands_start (program n) .right) (Instruction.yields_push (by decide))

end Run

/-- **A counted loop runs as often as it should.** The program that counts down from `n` is loaded
from its text, and its run ends.

* If `n` is positive, it has written `n` and all numbers below down to one, each on a line of its
  own, and has come to the exit with zero on the deque.
* If `n` is not positive and not the least number, it has written `n` only, and has come to the
  exit with `n - 1` on the deque.
* If `n` is the least number, it has written `n` and has failed with an overflow at the subtraction,
  and the deque is empty. -/
theorem counted_loop_runs_exactly (n : Int64) :
    ∃ p, Program.ofSource (source n) = .ok p ∧
      ∃ slices r, (Machine.start p false).run slices Machine.never Writer.text "" = some r ∧
        (1 ≤ n.toInt →
          r.result = .ok .exit ∧ r.output = Writer.page (lines n.toInt.toNat) ∧
            r.machine.deque.toList = [.int 0] ∧ r.machine.ip = 11) ∧
        (-9223372036854775808 < n.toInt → n.toInt ≤ 0 →
          r.result = .ok .exit ∧ r.output = Writer.page [Numeral.write n.toInt] ∧
            (∃ v : Int64, v.toInt = n.toInt - 1 ∧ r.machine.deque.toList = [.int v]) ∧
            r.machine.ip = 11) ∧
        (n.toInt = -9223372036854775808 →
          r.result = .error ((Fault.ofKind .overflow).located 5 "sub!") ∧
            r.output = Writer.page [Numeral.write n.toInt] ∧ r.machine.deque.toList = []) := by
  refine ⟨program n, ofSource_source n, ?_⟩
  obtain ⟨m, henters, hstands⟩ := enters n
  by_cases hpositive : 1 ≤ n.toInt
  · obtain ⟨k, hk⟩ : ∃ k : Nat, n.toInt = k + 1 := ⟨(n.toInt - 1).toNat, by omega⟩
    have hcount : n.toInt.toNat = k + 1 := by omega
    obtain ⟨m', hcourse, hdeque, hip⟩ := laps hstands hk
    obtain ⟨slices, hrun⟩ := (Machine.Course.of_silent henters hcourse).run ""
    refine ⟨slices, _, hrun, fun _ => ⟨rfl, ?_, hdeque, hip⟩, by omega, by omega⟩
    rw [hcount, String.empty_append]
  · by_cases hleast : n.toInt = -9223372036854775808
    · obtain ⟨m', hcourse, hdeque⟩ := least_fails hstands hleast
      obtain ⟨slices, hrun⟩ := (Machine.Course.of_silent henters hcourse).run ""
      exact ⟨slices, _, hrun, by omega, by omega, fun _ => ⟨rfl, String.empty_append, hdeque⟩⟩
    · have hfits : Numeral.fits (n.toInt - 1) = true := by
        have hrange := Value.fits_toInt (.int n)
        rw [Numeral.fits_iff, Value.toInt, Value.word] at hrange
        rw [Numeral.fits_iff]
        omega
      have hv : (Int64.ofInt (n.toInt - 1)).toInt = n.toInt - 1 := Value.toInt_ofInt hfits
      obtain ⟨m', hcourse, hdeque, hip⟩ := last_lap hstands hv (by omega)
      obtain ⟨slices, hrun⟩ := (Machine.Course.of_silent henters hcourse).run ""
      exact ⟨slices, _, hrun, by omega,
        fun _ _ => ⟨rfl, String.empty_append, ⟨_, hv, hdeque⟩, hip⟩, by omega⟩

/-- Three laps; one lap, which leaves a negative number; and the lap that fails. -/
theorem counted_loop_runs_exactly_three_zero_least :
    (∃ p, Program.ofSource "3! loop: dup! print! 1! sub! dup! 0! <! loop! jmpif! exit" = .ok p ∧
      ∃ slices r, (Machine.start p false).run slices Machine.never Writer.text "" = some r ∧
        r.result = .ok .exit ∧ r.output = "3\n2\n1\n" ∧
        r.machine.deque.toList = [.int 0] ∧ r.machine.ip = 11) ∧
    (∃ p, Program.ofSource "0! loop: dup! print! 1! sub! dup! 0! <! loop! jmpif! exit" = .ok p ∧
      ∃ slices r, (Machine.start p false).run slices Machine.never Writer.text "" = some r ∧
        r.result = .ok .exit ∧ r.output = "0\n" ∧
        r.machine.deque.toList = [.int (-1)] ∧ r.machine.ip = 11) ∧
    ∃ p, Program.ofSource
        "-9223372036854775808! loop: dup! print! 1! sub! dup! 0! <! loop! jmpif! exit" = .ok p ∧
      ∃ slices r, (Machine.start p false).run slices Machine.never Writer.text "" = some r ∧
        r.result = .error ((Fault.ofKind .overflow).located 5 "sub!") ∧
        r.output = "-9223372036854775808\n" ∧ r.machine.deque.toList = [] := by
  refine ⟨?_, ?_, ?_⟩
  · obtain ⟨p, hload, slices, r, hrun, hpositive, -⟩ := counted_loop_runs_exactly 3
    obtain ⟨hresult, houtput, hend⟩ := hpositive (by decide)
    exact ⟨p, hload, slices, r, hrun, hresult, houtput.trans (by decide +kernel), hend⟩
  · obtain ⟨p, hload, slices, r, hrun, -, hzero, -⟩ := counted_loop_runs_exactly 0
    obtain ⟨hresult, houtput, ⟨v, hv, hdeque⟩, hip⟩ := hzero (by decide) (by decide)
    obtain rfl : v = -1 := Int64.toInt_inj.mp hv
    exact ⟨p, hload, slices, r, hrun, hresult, houtput.trans (by decide +kernel), hdeque, hip⟩
  · obtain ⟨p, hload, slices, r, hrun, -, -, hleast⟩ :=
      counted_loop_runs_exactly (-9223372036854775808)
    obtain ⟨hresult, houtput, hdeque⟩ := hleast (by decide)
    exact ⟨p, hload, slices, r, hrun, hresult, houtput.trans (by decide +kernel), hdeque⟩

end Countdown

end TwoEnded
