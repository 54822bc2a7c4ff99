/-
TwoEnded.Proofs.Summation — a program that adds up numbers, from its text to its output.

## §1 The source

`Summation.source s vs` is the text of a program that pushes the numbers `vs` at the end `s`, then
adds the two values next to that end as often as there are two, and prints what is left.

## §2 The program

The text is in normal form, so its tokens are the words that it was made of; none of them is a
label, so it can be loaded; and each of them does what its word says.

## §3 The run

The numbers are pushed in their order and added from the last one backwards: after `k` additions
there stands at the end the sum of the last `k + 1` numbers. So it is these sums that have to be
in range, and not those of the numbers from the first one on.
-/
import TwoEnded.Proofs.Ends
import TwoEnded.Proofs.Literals
import TwoEnded.Proofs.NormalForm
import TwoEnded.Proofs.Slices

namespace TwoEnded

namespace Summation

/-! ## §1 The source -/

/-- The word with the mark for an end. -/
def mark (s : Side) (word : String) : String :=
  match s with
  | .left => "!" ++ word
  | .right => word ++ "!"

/-- The words of the program: the numbers in decimal, the additions, and the print. -/
def words (vs : List Int64) : List String :=
  vs.map (fun v => Numeral.write v.toInt) ++ (List.replicate (vs.length - 1) "add" ++ ["print"])

/-- The text of the program that adds up the numbers at an end. -/
def source (s : Side) (vs : List Int64) : String := " ".intercalate ((words vs).map (mark s))

/-- The sum of the numbers. -/
def total : List Int64 → Int
  | [] => 0
  | v :: vs => v.toInt + total vs

/-- The sum of the last `j + 1` numbers. -/
def suffixSum (vs : List Int64) (j : Nat) : Int := total (vs.drop (vs.length - 1 - j))

/-! ## §2 The program -/

/-- The tokens of the program. -/
def tokens (s : Side) (vs : List Int64) : List Token := (words vs).map fun word => ⟨mark s word⟩

/-- The program. -/
def program (s : Side) (vs : List Int64) : Program where
  tokens := (tokens s vs).toArray
  labels := ∅

theorem mem_words {vs : List Int64} {word : String} (h : word ∈ words vs) :
    (∃ n, word = Numeral.write n) ∨ ∃ op : Opcode, word = op.name := by
  simp only [words, List.mem_append, List.mem_map, List.mem_replicate, List.mem_singleton] at h
  rcases h with ⟨v, -, rfl⟩ | ⟨-, rfl⟩ | rfl
  · exact .inl ⟨_, rfl⟩
  · exact .inr ⟨.binary .add, rfl⟩
  · exact .inr ⟨.print, rfl⟩

theorem unmarked_of_mem {vs : List Int64} {word : String} (h : word ∈ words vs) :
    Unmarked word := by
  rcases mem_words h with ⟨n, rfl⟩ | ⟨op, rfl⟩
  · exact (Numeral.denotes_write n).unmarked
  · exact op.unmarked_name

/-- The words have neither a blank to be cut at nor the sign of a remark. -/
theorem plain_of_mem {vs : List Int64} {word : String} (h : word ∈ words vs) :
    ' ' ∉ word.toList ∧ '\n' ∉ word.toList ∧ '#' ∉ word.toList := by
  rcases mem_words h with ⟨n, rfl⟩ | ⟨op, rfl⟩
  · exact ⟨Numeral.not_mem_write (by decide), Numeral.not_mem_write (by decide),
      Numeral.not_mem_write (by decide)⟩
  · cases op with
    | binary op => cases op <;> decide
    | _ => decide

/-- The form of the tokens that are marked for an end. -/
def form : Side → Form
  | .left => .front
  | .right => .behind

theorem token_form (s : Side) (word : String) : (form s).token word = ⟨mark s word⟩ := by
  cases s <;> rfl

theorem form_ne (s : Side) : form s ≠ .definition := by
  cases s <;> decide

theorem side_form (s : Side) : (form s).side = some s := by
  cases s <;> rfl

theorem mem_mark {s : Side} {word : String} {c : Char} :
    c ∈ (mark s word).toList ↔ c = '!' ∨ c ∈ word.toList := by
  cases s <;> simp [mark, or_comm]

theorem source_eq_joined (s : Side) (vs : List Int64) :
    source s vs = Source.joined (tokens s vs) := by
  simp [source, Source.joined, tokens, Function.comp_def]

theorem normal_tokens (s : Side) (vs : List Int64) : Source.Normal (tokens s vs) := by
  apply Source.normal_of_plain
  intro t ht
  obtain ⟨word, hword, rfl⟩ := List.mem_map.mp ht
  obtain ⟨hspace, hfeed, hsign⟩ := plain_of_mem hword
  refine ⟨?_, ?_, ?_, ?_⟩
  · cases s <;> simp [mark]
  · rw [mem_mark]
    simpa using hspace
  · rw [mem_mark]
    simpa using hfeed
  · rw [mem_mark]
    simpa using hsign

end Summation

/-- Tokens that define no label add none to the table. -/
theorem Labels.collect_of_no_label (labels : Labels) (address : Nat) {tokens : List Token}
    (h : ∀ t ∈ tokens, t.label? = none) : collect labels address tokens = .ok labels := by
  induction tokens generalizing address with
  | nil => rfl
  | cons t rest ih =>
    rw [collect, h t (by simp)]
    exact ih (address + 1) fun u hu => h u (by simp [hu])

namespace Summation

theorem ofSource_source (s : Side) (vs : List Int64) :
    Program.ofSource (source s vs) = .ok (program s vs) := by
  have hlabels : Labels.collect ∅ 0 (tokens s vs) = .ok ∅ := by
    apply Labels.collect_of_no_label
    intro t ht
    obtain ⟨word, hword, rfl⟩ := List.mem_map.mp ht
    rw [← token_form]
    exact Form.label?_of_ne (form_ne s) (unmarked_of_mem hword)
  rw [Program.ofSource, source_eq_joined, Source.tokens_joined (normal_tokens s vs), Program.load,
    hlabels]
  rfl

section Instructions

variable (s : Side) (labels : Labels)

theorem instruction_opcode (op : Opcode) :
    Token.instruction labels ⟨mark s op.name⟩ = .apply (some s) op := by
  rw [← token_form, Form.instruction_of_ne labels (form_ne s) op.unmarked_name,
    Opcode.ofWord?_name, side_form]

theorem instruction_number (v : Int64) :
    Token.instruction labels ⟨mark s (Numeral.write v.toInt)⟩ = .push (some s) (.known v) := by
  rw [← token_form, Form.instruction_number labels (form_ne s), side_form]

end Instructions

section Addresses

variable {s : Side} {vs : List Int64} {i : Nat}

theorem token?_eq (s : Side) (vs : List Int64) (i : Nat) :
    (program s vs).token? i = (words vs)[i]?.map fun word => ⟨mark s word⟩ := by
  simp [program, Program.token?, tokens]

theorem token?_number (h : i < vs.length) :
    (program s vs).token? i = some ⟨mark s (Numeral.write vs[i].toInt)⟩ := by
  simp [token?_eq, words, List.getElem?_append_left, h]

theorem token?_add (hlow : vs.length ≤ i) (hhigh : i + 1 < 2 * vs.length) :
    (program s vs).token? i = some ⟨mark s (Opcode.binary .add).name⟩ := by
  have hnumbers : ¬ i < vs.length := by omega
  have hadditions : i - vs.length < vs.length - 1 := by omega
  have hname : (Opcode.binary .add).name = "add" := rfl
  simp [token?_eq, words, List.getElem?_append, hnumbers, hadditions, hname]

theorem token?_print (h : i + 1 = 2 * vs.length) :
    (program s vs).token? i = some ⟨mark s Opcode.print.name⟩ := by
  have hnumbers : ¬ i < vs.length := by omega
  have hadditions : ¬ i - vs.length < vs.length - 1 := by omega
  have hlast : i - vs.length - (vs.length - 1) = 0 := by omega
  have hname : Opcode.print.name = "print" := rfl
  simp [token?_eq, words, List.getElem?_append, hnumbers, hadditions, hlast, hname]

theorem token?_end (hne : vs ≠ []) : (program s vs).token? (2 * vs.length) = none := by
  have hpos : 0 < vs.length := List.length_pos_iff.mpr hne
  have hlength : (words vs).length = 2 * vs.length := by
    simp [words]
    omega
  rw [token?_eq, ← hlength, List.getElem?_length]
  rfl

end Addresses

/-! ## §3 The run -/

section Run

open Machine

variable {s : Side} {vs : List Int64}

/-- The first numbers as they lie on the deque, seen from the end. -/
def pile (vs : List Int64) (k : Nat) : List Value := (vs.take k).reverse.map .int

theorem length_pile {k : Nat} (h : k ≤ vs.length) : (pile vs k).length = k := by
  simp [pile, h]

theorem pile_succ {k : Nat} (h : k < vs.length) : pile vs (k + 1) = .int vs[k] :: pile vs k := by
  rw [pile, pile, List.take_succ_eq_append_getElem h, List.reverse_append, List.map_append]
  rfl

theorem total_drop {k : Nat} (h : k < vs.length) :
    total (vs.drop k) = vs[k].toInt + total (vs.drop (k + 1)) := by
  rw [List.drop_eq_getElem_cons h, total]

/-- One number more is pushed. -/
theorem push_number {m : Machine} {k : Nat} (hk : k < vs.length)
    (hroom : vs.length ≤ Deque.capacity) (h : Stands (program s vs) s m k (pile vs k)) :
    ∃ m', m.execute 1 = (.running, m') ∧
      Stands (program s vs) s m' (k + 1) (pile vs (k + 1)) := by
  apply h.advance (token?_number hk)
  have hlength := length_pile (Nat.le_of_lt hk)
  rw [instruction_number, pile_succ hk]
  exact Instruction.yields_push (by omega)

/-- The first `k` instructions push `k` numbers. -/
theorem run_pushes (hroom : vs.length ≤ Deque.capacity) {k : Nat} (hk : k ≤ vs.length) :
    ∃ m, (start (program s vs) false).execute k = (.running, m) ∧
      Stands (program s vs) s m k (pile vs k) := by
  induction k with
  | zero => exact ⟨_, rfl, stands_start (program s vs) s⟩
  | succ k ih =>
    obtain ⟨m, hrun, hstands⟩ := ih (by omega)
    obtain ⟨m', hstep, hstands'⟩ := push_number hk hroom hstands
    refine ⟨m', ?_, hstands'⟩
    rw [execute_add, hrun]
    exact hstep

/-- What the machine is after `k` additions: the sum of the last `k + 1` numbers has taken their
place. -/
structure Added (s : Side) (vs : List Int64) (k : Nat) (m : Machine) : Prop where
  run : (start (program s vs) false).execute (vs.length + k) = (.running, m)
  sum : ∃ w : Int64, w.toInt = suffixSum vs k ∧
    Stands (program s vs) s m (vs.length + k) (.int w :: pile vs (vs.length - 1 - k))

/-- The next addition has the sum and the number before it as its operands. -/
theorem suffixSum_succ {k : Nat} (hk : k + 1 < vs.length) {w : Int64}
    (hw : w.toInt = suffixSum vs k) :
    ∃ v : Int64, pile vs (vs.length - 1 - k) = .int v :: pile vs (vs.length - 1 - (k + 1)) ∧
      Operator.add.apply (.int w) (.int v) = Value.checked (suffixSum vs (k + 1)) := by
  have hindex : vs.length - 1 - k = vs.length - 1 - (k + 1) + 1 := by omega
  have hlt : vs.length - 1 - (k + 1) < vs.length := by omega
  refine ⟨vs[vs.length - 1 - (k + 1)], ?_, ?_⟩
  · rw [hindex, pile_succ hlt]
  · have hsum : suffixSum vs (k + 1) = w.toInt + vs[vs.length - 1 - (k + 1)].toInt := by
      rw [suffixSum, total_drop hlt, hw, suffixSum, hindex, Int.add_comm]
    rw [hsum]
    rfl

/-- One more addition whose sum is in range. -/
theorem Added.next {k : Nat} {m : Machine} (h : Added s vs k m) (hk : k + 1 < vs.length)
    (hroom : vs.length ≤ Deque.capacity)
    (hfits : Numeral.fits (suffixSum vs (k + 1)) = true) : ∃ m', Added s vs (k + 1) m' := by
  obtain ⟨w, hw, hstands⟩ := h.sum
  obtain ⟨v, hpile, happly⟩ := suffixSum_succ hk hw
  rw [Value.checked, if_pos hfits] at happly
  rw [hpile] at hstands
  have hlength : (pile vs (vs.length - 1 - (k + 1))).length < Deque.capacity := by
    rw [length_pile (by omega)]
    omega
  obtain ⟨m', hstep, hstands'⟩ := hstands.advance (token?_add (by omega) (by omega)) <| by
    rw [instruction_opcode]
    exact Opcode.yields_binary happly hlength
  refine ⟨m', ?_, _, ?_, hstands'⟩
  · rw [← Nat.add_assoc, execute_add, h.run]
    exact hstep
  · exact Value.toInt_ofInt hfits

/-- All additions go through as long as the sums are in range. -/
theorem run_additions (hroom : vs.length ≤ Deque.capacity) {k : Nat} (hk : k < vs.length)
    (hfits : ∀ j, 1 ≤ j → j ≤ k → Numeral.fits (suffixSum vs j) = true) :
    ∃ m, Added s vs k m := by
  induction k with
  | zero =>
    have hlast : vs.length - 1 < vs.length := by omega
    have hlength : vs.length - 1 + 1 = vs.length := by omega
    obtain ⟨m, hrun, hstands⟩ := run_pushes hroom (Nat.le_refl vs.length)
    refine ⟨m, hrun, vs[vs.length - 1], ?_, ?_⟩
    · rw [suffixSum, Nat.sub_zero, total_drop hlast, hlength, List.drop_length, total, Int.add_zero]
    · rwa [← hlength, pile_succ hlast, hlength] at hstands
  | succ k ih =>
    obtain ⟨m, hadded⟩ := ih (by omega) fun j hlow hhigh => hfits j hlow (by omega)
    exact hadded.next hk hroom (hfits (k + 1) (by omega) (Nat.le_refl _))

/-- If all sums are in range, the total is printed and nothing is left. -/
theorem Added.course {m : Machine} (h : Added s vs (vs.length - 1) m) (hne : vs ≠ []) :
    ∃ m', Course (start (program s vs) false) [Numeral.write (total vs)] .stopped m' ∧
      m'.deque.toList = [] ∧ m'.ip = 2 * vs.length := by
  have hpos : 0 < vs.length := List.length_pos_iff.mpr hne
  have haddress : vs.length + (vs.length - 1) + 1 = 2 * vs.length := by omega
  obtain ⟨w, hw, hstands⟩ := h.sum
  have hempty : pile vs (vs.length - 1 - (vs.length - 1)) = [] := by
    rw [Nat.sub_self]
    rfl
  have htotal : suffixSum vs (vs.length - 1) = total vs := by
    rw [suffixSum, Nat.sub_self]
    rfl
  rw [hempty] at hstands
  obtain ⟨m₁, hprint, hstands₁⟩ := hstands.say (token?_print haddress) <| by
    rw [instruction_opcode]
    exact Opcode.yields_print
  rw [haddress] at hstands₁
  have hline : (Value.int w).text = Numeral.write (total vs) := by
    rw [Value.text, hw, htotal]
  rw [hline] at hprint
  have hfinish := hstands₁.finish (token?_end hne)
  refine ⟨_, .of_silent h.run (.line hprint (.final hfinish rfl)), ?_, hstands₁.ip⟩
  exact Deque.toList_of_seenFrom_nil hstands₁.stack

/-- If a sum is out of range, its addition fails. -/
theorem Added.fails {k : Nat} {m : Machine} (h : Added s vs k m) (hk : k + 1 < vs.length)
    (hfits : Numeral.fits (suffixSum vs (k + 1)) = false) :
    ∃ m', Course (start (program s vs) false) []
      (.failed ((Fault.ofKind .overflow).located (vs.length + k) (mark s "add"))) m' := by
  obtain ⟨w, hw, hstands⟩ := h.sum
  obtain ⟨v, hpile, happly⟩ := suffixSum_succ hk hw
  rw [Value.checked, hfits] at happly
  rw [hpile] at hstands
  obtain ⟨m', hstep, -⟩ := hstands.fail (token?_add (by omega) (by omega)) <| by
    rw [instruction_opcode]
    exact Opcode.yields_binary_error happly
  exact ⟨m', .of_silent h.run (.final hstep rfl)⟩

end Run

/-- **Summation at either end**: let there be at least one number and at most 2 to the 24th. The
program that adds them up is loaded from its text and its run ends. If the sums of the last two,
three and so on up to all numbers are in range, it has written the total and a line feed, the
deque is empty, and the machine is at the end of the program. Otherwise it has written nothing,
and it has failed with an overflow at the addition whose sum is the first one out of range. -/
theorem summation_at_either_end (s : Side) (vs : List Int64) (hne : vs ≠ [])
    (hlength : vs.length ≤ 16777216) :
    ∃ p, Program.ofSource (source s vs) = .ok p ∧
      ∃ slices r, (Machine.start p false).run slices Machine.never Writer.text "" = some r ∧
        (((∀ j, 1 ≤ j → j < vs.length → Numeral.fits (suffixSum vs j) = true) ∧
            r.result = .ok .ended ∧ r.output = Numeral.write (total vs) ++ "\n" ∧
            r.machine.deque.toList = [] ∧ r.machine.ip = 2 * vs.length) ∨
          ∃ j, 1 ≤ j ∧ j < vs.length ∧ Numeral.fits (suffixSum vs j) = false ∧
            (∀ i, 1 ≤ i → i < j → Numeral.fits (suffixSum vs i) = true) ∧
            r.result = .error
              ((Fault.ofKind .overflow).located (vs.length + j - 1) (mark s "add")) ∧
            r.output = "") := by
  have hpos : 0 < vs.length := List.length_pos_iff.mpr hne
  refine ⟨program s vs, ofSource_source s vs, ?_⟩
  by_cases hall : ∀ j, 1 ≤ j → j < vs.length → Numeral.fits (suffixSum vs j) = true
  · obtain ⟨m, hadded⟩ := run_additions (s := s) hlength (by omega : vs.length - 1 < vs.length)
      fun j hlow hhigh => hall j hlow (by omega)
    obtain ⟨m', hcourse, hdeque, hip⟩ := hadded.course hne
    obtain ⟨slices, hrun⟩ := hcourse.run ""
    exact ⟨slices, _, hrun, .inl ⟨hall, rfl, by simp, hdeque, hip⟩⟩
  · have hsome : ∃ j,
        decide (1 ≤ j ∧ j < vs.length ∧ Numeral.fits (suffixSum vs j) = false) = true := by
      simpa using hall
    obtain ⟨j, hj, hfirst⟩ := Machine.exists_first hsome
    obtain ⟨hlow, hhigh, hfits⟩ := of_decide_eq_true hj
    have hbefore : ∀ i, 1 ≤ i → i < j → Numeral.fits (suffixSum vs i) = true := by
      intro i hi hij
      have hnot := of_decide_eq_false (hfirst i hij)
      cases h : Numeral.fits (suffixSum vs i) with
      | true => rfl
      | false => exact absurd ⟨hi, by omega, h⟩ hnot
    obtain ⟨k, rfl⟩ : ∃ k, j = k + 1 := ⟨j - 1, by omega⟩
    obtain ⟨m, hadded⟩ := run_additions (s := s) hlength (by omega : k < vs.length)
      fun i hi hik => hbefore i hi (by omega)
    obtain ⟨m', hcourse⟩ := hadded.fails hhigh hfits
    obtain ⟨slices, hrun⟩ := hcourse.run ""
    exact ⟨slices, _, hrun, .inr ⟨k + 1, hlow, hhigh, hfits, hbefore, rfl, rfl⟩⟩

/-- The order of the additions decides. At the right, `max + 1` would leave the range, but the two
numbers behind `max` are added first. At the left, the total is in range, and the sum of the last
two numbers is not. -/
theorem summation_at_either_end_order :
    (∃ p, Program.ofSource "9223372036854775807! 1! -1! add! add! print!" = .ok p ∧
      ∃ slices r, (Machine.start p false).run slices Machine.never Writer.text "" = some r ∧
        r.result = .ok .ended ∧ r.output = "9223372036854775807\n" ∧
        r.machine.deque.toList = [] ∧ r.machine.ip = 6) ∧
    ∃ p, Program.ofSource "!1 !-9223372036854775808 !-1 !add !add !print" = .ok p ∧
      ∃ slices r, (Machine.start p false).run slices Machine.never Writer.text "" = some r ∧
        r.result = .error ((Fault.ofKind .overflow).located 3 "!add") ∧ r.output = "" := by
  constructor
  · let vs : List Int64 := [9223372036854775807, 1, -1]
    have hsource : source .right vs = "9223372036854775807! 1! -1! add! add! print!" := by
      decide +kernel
    have hfits : ∀ j < 3, Numeral.fits (suffixSum vs j) = true := by decide +kernel
    have htotal : Numeral.write (total vs) ++ "\n" = "9223372036854775807\n" := by decide +kernel
    obtain ⟨p, hp, slices, r, hrun, hcases⟩ :=
      summation_at_either_end .right vs (by decide) (by decide)
    rw [hsource] at hp
    obtain ⟨-, hresult, houtput, hdeque, hip⟩ | ⟨j, -, hj, hbad, -⟩ := hcases
    · exact ⟨p, hp, slices, r, hrun, hresult, houtput.trans htotal, hdeque, hip⟩
    · rw [hfits j hj] at hbad
      cases hbad
  · let vs : List Int64 := [1, -9223372036854775808, -1]
    have hsource : source .left vs = "!1 !-9223372036854775808 !-1 !add !add !print" := by
      decide +kernel
    have hbad : Numeral.fits (suffixSum vs 1) = false := by decide +kernel
    have hfault : (Fault.ofKind .overflow).located (vs.length + 1 - 1) (mark .left "add") =
        (Fault.ofKind .overflow).located 3 "!add" := by decide +kernel
    obtain ⟨p, hp, slices, r, hrun, hcases⟩ :=
      summation_at_either_end .left vs (by decide) (by decide)
    rw [hsource] at hp
    obtain ⟨hall, -⟩ | ⟨j, hlow, hhigh, -, hfirst, hresult, houtput⟩ := hcases
    · rw [hall 1 (by decide) (by decide)] at hbad
      cases hbad
    · obtain rfl : j = 1 := by
        by_contra hne
        rw [hfirst 1 (by decide) (by omega)] at hbad
        cases hbad
      rw [hfault] at hresult
      exact ⟨p, hp, slices, r, hrun, hresult, houtput⟩

end Summation

end TwoEnded
