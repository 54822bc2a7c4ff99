/-
TwoEnded.Proofs.Failures — when an instruction fails, and what it has done by then.

## §1 Causes

`Token.failure?` foretells from a token and a deque whether the token fails, with which fault, and
how many values are lost at the end that it works on. It performs nothing: it counts the values,
looks at those that the instruction would take, and asks the causes in the order in which they
are met. `exit` and `trace` have none. An operand is looked at before its end is; any other opcode
needs an end first, then as many values as it takes, then values that it accepts, and `dup` and
`over`, which leave one value more than they found, need room.

## §2 Instructions

Whatever is foretold comes true (`Opcode.meets`, `Operand.meets`). Seen from the end that it works
on, an instruction that fails for want of values has taken all there are; one that refuses its
values has taken them; and one that fails for want of room has put back what it took.

## §3 Machines

The machine stops at the instruction that failed and says so.
-/
import TwoEnded.Proofs.Ends
import TwoEnded.Proofs.Operands
import TwoEnded.Proofs.Refusal
import TwoEnded.Proofs.Shifts

namespace TwoEnded

/-! ## §1 Causes -/

/-- Why an operator refuses two numbers, if it does. -/
def Operator.refusal? (op : Operator) (first second : Int) : Option FaultKind :=
  match op with
  | .add => if Numeral.fits (first + second) then none else some .overflow
  | .sub => if Numeral.fits (second - first) then none else some .overflow
  | .shr => if first < 0 then some .negativeShift else none
  | .shl =>
    if first < 0 then some .negativeShift
    else if second = -1 ∧ first = 63 then some .overflow
    else if Numeral.fits (second * Int.pow 2 first.toNat) then none
    else some .overflow
  | _ => none

/-- The kind and the detail of a fault, and how many values are lost with it. -/
structure Failure where
  kind : FaultKind
  detail : String
  lost : Nat
  deriving DecidableEq, Repr

namespace Failure

/-- The fault, whose place is not known yet. -/
def fault (failure : Failure) : Fault := ⟨failure.kind, none, none, failure.detail⟩

/-- What the failure leaves of a deque: at the end that the instruction works on, so many values
are lost. -/
def Leaves (failure : Failure) (side : Option Side) (d e : Deque Value) : Prop :=
  match side with
  | none => e.toList = d.toList
  | some s => e.seenFrom s = (d.seenFrom s).drop failure.lost

theorem leaves_self {failure : Failure} (h : failure.lost = 0) (side : Option Side)
    (d : Deque Value) : failure.Leaves side d d := by
  cases side with
  | none => rfl
  | some s => rw [Leaves, h, List.drop_zero]

end Failure

namespace Opcode

/-- The number of values that an opcode takes off the deque. -/
def takes : Opcode → Nat
  | .binary _ => 2
  | .dup => 1
  | .swap => 2
  | .move => 1
  | .over => 2
  | .drop => 1
  | .jumpIf => 2
  | .jump => 1
  | .exit => 0
  | .print => 1
  | .trace => 0

/-- The failure of an opcode that has the values it takes: it refuses them, or it lacks room. The
values are listed from the end that it works on. -/
def refusal? (op : Opcode) (stack : List Value) : Option Failure :=
  match op, stack with
  | .binary op, first :: second :: _ =>
    (op.refusal? first.toInt second.toInt).map fun kind => ⟨kind, "", 2⟩
  | .jump, target :: _ =>
    if target.toInt < 0 then
      some ⟨.invalidAddress, "JUMP TO " ++ Numeral.write target.toInt, 1⟩
    else none
  | .jumpIf, target :: condition :: _ =>
    if condition.isTruthy ∧ target.toInt < 0 then
      some ⟨.invalidAddress, "JUMP TO " ++ Numeral.write target.toInt, 2⟩
    else none
  | .dup, stack => if stack.length = Deque.capacity then some ⟨.outOfMemory, "DEQUE FULL", 0⟩ else none
  | .over, stack => if stack.length = Deque.capacity then some ⟨.outOfMemory, "DEQUE FULL", 0⟩ else none
  | _, _ => none

/-- The failure of an opcode at an end of the deque. -/
def failure? (op : Opcode) (side : Option Side) (d : Deque Value) : Option Failure :=
  if op = .exit ∨ op = .trace then none
  else
    match side with
    | none => some ⟨.directionRequired, "", 0⟩
    | some s =>
      if d.size < op.takes then some ⟨.stackUnderflow, "", d.size⟩
      else op.refusal? (d.seenFrom s)

end Opcode

/-- The failure of an operand that is to be added. -/
def Operand.failure? (operand : Operand) (side : Option Side) (d : Deque Value) :
    Option Failure :=
  match operand, side with
  | .overflow, _ => some ⟨.overflow, "", 0⟩
  | .undefined, _ => some ⟨.undefinedLabel, "", 0⟩
  | .known _, none => some ⟨.directionRequired, "", 0⟩
  | .known _, some _ =>
    if d.size = Deque.capacity then some ⟨.outOfMemory, "DEQUE FULL", 0⟩ else none

/-- The failure of a token that is not the definition of a label. -/
def Token.failure? (labels : Labels) (t : Token) (d : Deque Value) : Option Failure :=
  match Opcode.ofWord? t.word with
  | some op => op.failure? t.side d
  | none => (labels.operand t.word).failure? t.side d

/-! ## §2 Instructions -/

/-- An operator gives a value, or refuses the two numbers for the reason foretold. -/
theorem Operator.apply_cases (op : Operator) (first second : Value) :
    (op.refusal? first.toInt second.toInt = none ∧ ∃ v, op.apply first second = .ok v) ∨
    ∃ kind, op.refusal? first.toInt second.toInt = some kind ∧
      op.apply first second = .error (Fault.ofKind kind) := by
  have hchecked : ∀ n : Int,
      ((if Numeral.fits n then none else some FaultKind.overflow) = none ∧
        ∃ v, Value.checked n = .ok v) ∨
      ∃ kind, (if Numeral.fits n then none else some FaultKind.overflow) = some kind ∧
        Value.checked n = .error (Fault.ofKind kind) := by
    intro n
    unfold Value.checked
    split
    · exact .inl ⟨rfl, _, rfl⟩
    · exact .inr ⟨_, rfl, rfl⟩
  cases op with
  | add => exact hchecked _
  | sub => exact hchecked _
  | shr =>
    simp only [refusal?, apply, Value.shr]
    split
    · exact .inr ⟨_, rfl, rfl⟩
    · exact .inl ⟨rfl, _, rfl⟩
  | shl =>
    simp only [refusal?, apply, Value.shl_eq]
    split
    · exact .inr ⟨_, rfl, rfl⟩
    · split
      · exact .inr ⟨_, rfl, rfl⟩
      · exact hchecked _
  | _ => exact .inl ⟨rfl, _, rfl⟩

/-- What is foretold of the action on a deque comes true. -/
def Action.Meets (x : Action Next) (side : Option Side) (d : Deque Value)
    (foretold : Option Failure) : Prop :=
  match foretold with
  | none => ∃ next e, x d = .ok next e
  | some failure => ∃ e, failure.Leaves side d e ∧ x d = .error failure.fault e

section Meets

variable {s : Side} {x : Action Next} {d : Deque Value} {stack : List Value}

theorem Action.Yields.meets_none {next : Next} {after : List Value}
    (h : Action.Yields s x stack (.ok next) after) (hd : d.seenFrom s = stack) :
    x.Meets (some s) d none := by
  obtain ⟨e, -, hx⟩ := h d hd
  exact ⟨next, e, hx⟩

theorem Action.Yields.meets_some {failure : Failure}
    (h : Action.Yields s x stack (.error failure.fault) (stack.drop failure.lost))
    (hd : d.seenFrom s = stack) : x.Meets (some s) d (some failure) := by
  obtain ⟨e, he, hx⟩ := h d hd
  exact ⟨e, he.trans (by rw [hd]), hx⟩

/-- A jump that has taken its values fails if its target is negative. -/
theorem Action.Yields.meets_address {v : Value} {lost : Nat}
    (h : Action.Yields s x stack (v.address.map .jump) (stack.drop lost))
    (hd : d.seenFrom s = stack) :
    x.Meets (some s) d (if v.toInt < 0 then
      some ⟨.invalidAddress, "JUMP TO " ++ Numeral.write v.toInt, lost⟩ else none) := by
  unfold Value.address at h
  by_cases hneg : v.toInt < 0
  · rw [if_pos hneg] at h ⊢
    exact h.meets_some hd
  · rw [if_neg hneg] at h ⊢
    exact h.meets_none hd

end Meets

theorem Deque.seenFrom_of_one_le (s : Side) {d : Deque Value} (h : 1 ≤ d.size) :
    ∃ v vs, d.seenFrom s = v :: vs :=
  List.exists_cons_of_length_pos (by rw [length_seenFrom]; exact h)

theorem Deque.seenFrom_of_two_le (s : Side) {d : Deque Value} (h : 2 ≤ d.size) :
    ∃ v w vs, d.seenFrom s = v :: w :: vs := by
  obtain ⟨v, rest, hrest⟩ := seenFrom_of_one_le s (d := d) (by omega)
  have hlength := congrArg List.length hrest
  rw [length_seenFrom, List.length_cons] at hlength
  obtain ⟨w, vs, rfl⟩ := List.exists_cons_of_length_pos (l := rest) (by omega)
  exact ⟨v, w, vs, hrest⟩

namespace Opcode

variable {s : Side} {stack : List Value}

/-- Without an end an opcode touches nothing. -/
theorem perform_unmarked {op : Opcode} (h : ¬ (op = .exit ∨ op = .trace)) (d : Deque Value) :
    op.perform none d = .error (Fault.ofKind .directionRequired) d := by
  cases op with
  | exit => exact absurd (.inl rfl) h
  | trace => exact absurd (.inr rfl) h
  | _ => rfl

/-- With too few values an opcode has taken all of them. -/
theorem yields_short {op : Opcode} (h : stack.length < op.takes) :
    Action.Yields s (op.perform (some s)) stack (.error (Fault.ofKind .stackUnderflow)) [] := by
  have hone : stack.length < 1 →
      Action.Yields s (Deque.pop (some s)) stack (.error (Fault.ofKind .stackUnderflow)) [] := by
    intro hlt
    rw [List.eq_nil_of_length_eq_zero (Nat.lt_one_iff.mp hlt)]
    exact Deque.yields_pop_nil
  cases op with
  | binary op => exact .bind_error (Deque.yields_popTwo_short h)
  | dup => exact .bind_error (hone h)
  | swap => exact .bind_error (Deque.yields_popTwo_short h)
  | move => exact .bind_error (hone h)
  | «over» => exact .bind_error (Deque.yields_popTwo_short h)
  | drop => exact .bind_error (hone h)
  | jumpIf => exact .bind_error (Deque.yields_popTwo_short h)
  | jump => exact .bind_error (hone h)
  | exit => cases h
  | print => exact .bind_error (hone h)
  | trace => cases h

/-- With the values that it takes, an opcode succeeds or fails as foretold. -/
theorem meets_refusal {op : Opcode} {d : Deque Value} (hroom : d.Roomy) (h : op.takes ≤ d.size) :
    (op.perform (some s)).Meets (some s) d (op.refusal? (d.seenFrom s)) := by
  -- A deque within the capacity has room for as many values as were taken; only `dup` and `over`
  -- put back one more, and they do it last.
  have hlength : (d.seenFrom s).length ≤ Deque.capacity := by
    rw [Deque.length_seenFrom]
    exact hroom
  cases op with
  | binary op =>
    obtain ⟨v, w, vs, hd⟩ := Deque.seenFrom_of_two_le s h
    rw [hd, List.length_cons, List.length_cons] at hlength
    obtain ⟨hnone, result, happly⟩ | ⟨kind, hsome, happly⟩ := op.apply_cases v w
    · simp only [refusal?, hd, hnone, Option.map_none]
      exact (yields_binary happly (by omega)).meets_none hd
    · simp only [refusal?, hd, hsome, Option.map_some]
      exact (yields_binary_error happly).meets_some hd
  | dup =>
    obtain ⟨v, vs, hd⟩ := Deque.seenFrom_of_one_le s h
    rw [hd, List.length_cons] at hlength
    simp only [refusal?, hd, List.length_cons]
    split
    · next hfull => exact (yields_dup_full hfull).meets_some hd
    · exact (yields_dup (by omega)).meets_none hd
  | swap =>
    obtain ⟨v, w, vs, hd⟩ := Deque.seenFrom_of_two_le s h
    rw [hd, List.length_cons, List.length_cons] at hlength
    exact (yields_swap (by omega)).meets_none hd
  | move =>
    obtain ⟨v, vs, hd⟩ := Deque.seenFrom_of_one_le s h
    rw [hd, List.length_cons] at hlength
    exact (yields_move (by omega)).meets_none hd
  | «over» =>
    obtain ⟨v, w, vs, hd⟩ := Deque.seenFrom_of_two_le s h
    rw [hd, List.length_cons, List.length_cons] at hlength
    simp only [refusal?, hd, List.length_cons]
    split
    · next hfull => exact (yields_over_full hfull).meets_some hd
    · exact (yields_over (by omega)).meets_none hd
  | drop =>
    obtain ⟨v, vs, hd⟩ := Deque.seenFrom_of_one_le s h
    exact yields_drop.meets_none hd
  | jumpIf =>
    obtain ⟨v, w, vs, hd⟩ := Deque.seenFrom_of_two_le s h
    have hyields := @yields_jumpIf s v w vs
    cases htruthy : w.isTruthy with
    | false =>
      simp only [refusal?, hd, htruthy, Bool.false_eq_true, false_and, if_false]
      rw [htruthy] at hyields
      exact hyields.meets_none hd
    | true =>
      simp only [refusal?, hd, htruthy, true_and]
      rw [htruthy] at hyields
      exact hyields.meets_address hd
  | jump =>
    obtain ⟨v, vs, hd⟩ := Deque.seenFrom_of_one_le s h
    simp only [refusal?, hd]
    exact yields_jump.meets_address hd
  | exit => exact ⟨_, _, rfl⟩
  | print =>
    obtain ⟨v, vs, hd⟩ := Deque.seenFrom_of_one_le s h
    exact yields_print.meets_none hd
  | trace => exact ⟨_, _, rfl⟩

/-- An opcode fails exactly as foretold. -/
theorem meets (op : Opcode) (side : Option Side) {d : Deque Value} (hroom : d.Roomy) :
    (op.perform side).Meets side d (op.failure? side d) := by
  unfold failure?
  split
  · next hfree =>
    obtain rfl | rfl := hfree
    · exact ⟨_, _, rfl⟩
    · exact ⟨_, _, rfl⟩
  · next hop =>
    cases side with
    | none => exact ⟨d, Failure.leaves_self rfl _ d, perform_unmarked hop d⟩
    | some s =>
      dsimp only
      split
      · next hshort =>
        have hyields : Action.Yields s (op.perform (some s)) (d.seenFrom s)
            (.error (Fault.ofKind .stackUnderflow)) ((d.seenFrom s).drop d.size) := by
          rw [List.drop_eq_nil_of_le (by simp)]
          exact yields_short (by simpa using hshort)
        exact hyields.meets_some rfl
      · next hle => exact meets_refusal hroom (by omega)

end Opcode

/-- So does an operand that is to be added. -/
theorem Operand.meets (operand : Operand) (side : Option Side) {d : Deque Value}
    (hroom : d.Roomy) :
    (Instruction.push side operand).perform.Meets side d (operand.failure? side d) := by
  cases operand with
  | overflow => exact ⟨d, Failure.leaves_self rfl side d, rfl⟩
  | undefined => exact ⟨d, Failure.leaves_self rfl side d, rfl⟩
  | known n =>
    cases side with
    | none => exact ⟨d, Failure.leaves_self rfl none d, rfl⟩
    | some s =>
      simp only [failure?]
      split
      · next hfull =>
        have hyields : Action.Yields s (Instruction.push (some s) (.known n)).perform
            (d.seenFrom s) (.error Deque.fullFault) (d.seenFrom s) :=
          .bind (.ofExcept (.ok _)) (.bind_error (Deque.yields_push_full (by simp [hfull])))
        exact hyields.meets_some rfl
      · next hfull =>
        have hlength : (d.seenFrom s).length < Deque.capacity := by
          rw [Deque.length_seenFrom]
          exact Nat.lt_of_le_of_ne hroom hfull
        exact (Instruction.yields_push hlength).meets_none rfl

/-- A token that is not the definition of a label fails exactly as foretold. -/
theorem Token.meets (labels : Labels) {t : Token} (h : (t.side.isNone && t.label?.isSome) = false)
    {d : Deque Value} (hroom : d.Roomy) :
    (t.instruction labels).perform.Meets t.side d (t.failure? labels d) := by
  rw [instruction_of_word labels h, failure?]
  cases Opcode.ofWord? t.word with
  | some op => exact op.meets t.side hroom
  | none => exact (labels.operand t.word).meets t.side hroom

/-! ## §3 Machines -/

namespace Machine

/-- An instruction that has come to no fault does not fail the run. -/
theorem settle_ok_ne_failed (m : Machine) (next : Next) (d : Deque Value) (fault : Fault) :
    (m.settle (.ok next d)).1 ≠ .failed fault := by
  cases next <;> exact Event.noConfusion

/-- **Every failure is foretold, and it takes no more than it says.** Let a machine be about to
perform a token that is not the definition of a label: it runs, no interruption has been asked for,
and if it traces it has announced the token. Its deque has not outgrown the capacity, as no deque
does that was empty once.

* If no failure is foretold, the run does not fail in this cycle.
* If one is, the run fails in this cycle, whatever the budget, with the cause and the detail
  foretold and with the address and the text of this very token. The machine has stopped, at the
  address where it was; at the end that the token works on its deque has lost as many values as
  foretold, and nothing else has changed. -/
theorem instruction_failure_exact {m : Machine} {t : Token} (hs : m.stopped = false)
    (hi : m.interrupted = false) (hann : (m.tracing && !m.announced) = false)
    (hroom : m.deque.Roomy) (htoken : m.program.token? m.ip = some t)
    (hword : (t.side.isNone && t.label?.isSome) = false) :
    (t.failure? m.program.labels m.deque = none → ∀ fault, (m.execute 1).1 ≠ .failed fault) ∧
    ∀ failure, t.failure? m.program.labels m.deque = some failure → ∀ budget : Nat,
      ∃ e, failure.Leaves t.side m.deque e ∧
        m.execute (budget + 1) =
          (.failed ⟨failure.kind, some m.ip, some t.text, failure.detail⟩,
            { m with deque := e, announced := false, stopped := true }) := by
  have hexecute : m.execute 1 =
      m.settle ((t.instruction m.program.labels).perform m.deque) := by
    rw [execute_one hs hi, tick_of_some (instruction?_of_token? htoken) hann]
  have hmeets := Token.meets m.program.labels hword hroom
  refine ⟨fun hnone fault => ?_, fun failure hsome budget => ?_⟩
  · rw [hnone] at hmeets
    obtain ⟨next, e, hperform⟩ := hmeets
    rw [hexecute, hperform]
    exact settle_ok_ne_failed m next e fault
  · rw [hsome] at hmeets
    obtain ⟨e, hleaves, hperform⟩ := hmeets
    have htext : m.tokenText m.ip = t.text := by rw [tokenText, htoken]
    have hone : m.execute 1 =
        (.failed ⟨failure.kind, some m.ip, some t.text, failure.detail⟩,
          { m with deque := e, announced := false, stopped := true }) := by
      rw [hexecute, hperform, settle, htext]
      rfl
    refine ⟨e, hleaves, ?_⟩
    -- The first cycle tells it, so that no other is spent.
    rw [execute_of_isFinal (by rw [hone]; rfl), hone]

/-- A conditional jump of a machine that traces: to a negative address it fails only if the
condition is true, and then both its values are lost. -/
theorem instruction_failure_exact_jump_back :
    let deque (condition : Bool) : Deque Value :=
      ((Deque.empty.insert .right (.int 7)).insert .right (.bool condition)).insert .right (.int (-3))
    ∃ p, Program.load [⟨"loop:"⟩, ⟨"jmpif!"⟩] = .ok p ∧
      (∀ fault, (execute 1 ⟨p, true, deque false, 1, true, false, false⟩).1 ≠ .failed fault) ∧
      ∃ e, e.seenFrom .right = [.int 7] ∧
        execute 500 ⟨p, true, deque true, 1, true, false, false⟩ =
          (.failed ⟨.invalidAddress, some 1, some "jmpif!", "JUMP TO -3"⟩,
            ⟨p, true, e, 1, false, true, false⟩) := by
  intro deque
  obtain ⟨p, hload⟩ : ∃ p, Program.load [⟨"loop:"⟩, ⟨"jmpif!"⟩] = .ok p := ⟨_, rfl⟩
  have htoken : p.token? 1 = some ⟨"jmpif!"⟩ := by
    cases hload
    rfl
  have hroom (condition : Bool) : (deque condition).Roomy := by
    cases condition <;> exact Nat.le_of_ble_eq_true rfl
  have hop : Opcode.ofWord? (Token.word ⟨"jmpif!"⟩) = some .jumpIf := by decide +kernel
  have hforetold (condition : Bool) : Token.failure? p.labels ⟨"jmpif!"⟩ (deque condition) =
      if condition then some ⟨.invalidAddress, "JUMP TO -3", 2⟩ else none := by
    simp only [Token.failure?, hop]
    cases condition <;> decide +kernel
  have hexact (condition : Bool) :=
    instruction_failure_exact (m := ⟨p, true, deque condition, 1, true, false, false⟩) rfl rfl rfl
      (hroom condition) htoken (by decide +kernel)
  refine ⟨p, hload, (hexact false).1 (hforetold false), ?_⟩
  exact (hexact true).2 _ (hforetold true) 499

end Machine

end TwoEnded
