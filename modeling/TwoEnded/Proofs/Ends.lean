/-
TwoEnded.Proofs.Ends — from one of its ends a deque is a stack.

## §1 The view from an end

`d.seenFrom s` lists the elements of a deque from the end `s` inwards. Insertions and removals at
that end are the push and the pop of a stack, whichever end it is, so that what is said through
this view is said for both ends at once.

## §2 Actions

`Action.Yields s x before r after`: on every deque that holds `before`, seen from `s`, the action
`x` comes to the result `r`, a value or a fault, and leaves `after`. It goes through `bind`, so
that each opcode yields what its insertions and removals do one after the other.

## §3 Machines

`Machine.Stands p s m ip stack`: the machine runs the program `p` without tracing and is at the
address `ip` with this view of its deque. What the token there yields is what the next cycle does.
-/
import TwoEnded.Proofs.Frame

namespace TwoEnded

/-! ## §1 The view from an end -/

namespace Deque

variable {α : Type}

/-- The elements from the given end inwards. -/
def seenFrom (s : Side) (d : Deque α) : List α :=
  match s with
  | .left => d.toList
  | .right => d.toList.reverse

@[simp] theorem seenFrom_empty (s : Side) : (empty : Deque α).seenFrom s = [] := by
  cases s <;> rfl

@[simp] theorem length_seenFrom (s : Side) (d : Deque α) : (d.seenFrom s).length = d.size := by
  cases s <;> simp [seenFrom]

@[simp] theorem seenFrom_insert (s : Side) (x : α) (d : Deque α) :
    (d.insert s x).seenFrom s = x :: d.seenFrom s := by
  cases s <;> simp [seenFrom]

@[simp] theorem seenFrom_insert_opposite (s : Side) (x : α) (d : Deque α) :
    (d.insert s.opposite x).seenFrom s = d.seenFrom s ++ [x] := by
  cases s <;> simp [seenFrom, Side.opposite]

theorem toList_of_seenFrom_nil {s : Side} {d : Deque α} (h : d.seenFrom s = []) :
    d.toList = [] := by
  cases s with
  | left => exact h
  | right => exact List.reverse_eq_nil_iff.mp h

theorem take?_of_seenFrom {s : Side} {d : Deque Value} {v : Value} {vs : List Value}
    (h : d.seenFrom s = v :: vs) :
    ∃ e : Deque Value, d.take? s = some (v, e) ∧ e.seenFrom s = vs := by
  cases s with
  | left =>
    cases htake : d.take? .left with
    | none =>
      rw [take?_eq_none_iff] at htake
      rw [htake] at h
      cases h
    | some p =>
      rw [seenFrom, take?_left_eq_some htake] at h
      cases h
      exact ⟨p.2, rfl, rfl⟩
  | right =>
    have hlist : d.toList = vs.reverse ++ [v] := by
      have hreverse := congrArg List.reverse h
      simpa [seenFrom] using hreverse
    obtain ⟨e, htake, he⟩ := take?_right_of_toList hlist
    exact ⟨e, htake, by simp [seenFrom, he]⟩

end Deque

/-! ## §2 Actions -/

namespace Action

variable {α β : Type} {s : Side} {before middle after : List Value}

/-- On a deque that holds `before`, seen from the end, the action comes to this result and
leaves `after`. -/
def Yields (s : Side) (x : Action α) (before : List Value) (r : Except Fault α)
    (after : List Value) : Prop :=
  ∀ d : Deque Value, d.seenFrom s = before →
    ∃ e : Deque Value, e.seenFrom s = after ∧ x d = Action.ofExcept r e

theorem Yields.ofExcept (r : Except Fault α) : Yields s (Action.ofExcept r) before r before :=
  fun d hd => ⟨d, hd, rfl⟩

theorem Yields.pure (a : α) : Yields s (Pure.pure a : Action α) before (.ok a) before :=
  .ofExcept (.ok a)

theorem Yields.bind {x : Action α} {f : α → Action β} {a : α} {r : Except Fault β}
    (hx : Yields s x before (.ok a) middle) (hf : Yields s (f a) middle r after) :
    Yields s (x >>= f) before r after := by
  intro d hd
  obtain ⟨e, he, hfirst⟩ := hx d hd
  rw [bind_of_ok hfirst]
  exact hf e he

/-- Nothing is done after a fault. -/
theorem Yields.bind_error {x : Action α} {f : α → Action β} {fault : Fault}
    (hx : Yields s x before (.error fault) after) :
    Yields s (x >>= f) before (.error fault) after := by
  intro d hd
  obtain ⟨e, he, hfirst⟩ := hx d hd
  refine ⟨e, he, ?_⟩
  simp only [Bind.bind, EStateM.bind, hfirst, Action.ofExcept]

end Action

section Yields

variable {s : Side} {v w : Value} {vs : List Value}

theorem Deque.yields_push (hroom : vs.length < capacity) :
    Action.Yields s (push (some s) v) vs (.ok ()) (v :: vs) := by
  intro d hd
  have hsize : ¬ capacity ≤ d.size := by
    rw [← length_seenFrom s d, hd]
    omega
  refine ⟨d.insert s v, by rw [seenFrom_insert, hd], ?_⟩
  simp only [push, if_neg hsize, Action.ofExcept]

/-- An insertion at the other end comes last, seen from this one. -/
theorem Deque.yields_push_opposite (hroom : vs.length < capacity) :
    Action.Yields s (push (some s.opposite) v) vs (.ok ()) (vs ++ [v]) := by
  intro d hd
  have hsize : ¬ capacity ≤ d.size := by
    rw [← length_seenFrom s d, hd]
    omega
  refine ⟨d.insert s.opposite v, by rw [seenFrom_insert_opposite, hd], ?_⟩
  simp only [push, if_neg hsize, Action.ofExcept]

theorem Deque.yields_push_full (hfull : capacity ≤ vs.length) :
    Action.Yields s (push (some s) v) vs (.error fullFault) vs := by
  intro d hd
  have hsize : capacity ≤ d.size := by
    rwa [← length_seenFrom s d, hd]
  exact ⟨d, hd, by simp only [push, if_pos hsize, Action.ofExcept]⟩

theorem Deque.yields_pop : Action.Yields s (pop (some s)) (v :: vs) (.ok v) vs := by
  intro d hd
  obtain ⟨e, htake, he⟩ := take?_of_seenFrom hd
  exact ⟨e, he, by simp only [pop, htake, Action.ofExcept]⟩

theorem Deque.yields_popTwo : Action.Yields s (popTwo (some s)) (v :: w :: vs) (.ok (v, w)) vs :=
  .bind yields_pop (.bind yields_pop (.pure _))

theorem Deque.yields_pop_nil :
    Action.Yields s (pop (some s)) [] (.error (Fault.ofKind .stackUnderflow)) [] := by
  intro d hd
  have hempty : d = empty := (toList_eq_nil_iff d).mp (toList_of_seenFrom_nil hd)
  have htake : d.take? s = none := take?_eq_none_iff.mpr hempty
  exact ⟨empty, seenFrom_empty s, by simp only [pop, htake, Action.ofExcept]⟩

/-- One value is not enough for two removals, and is gone. -/
theorem Deque.yields_popTwo_short (hshort : vs.length < 2) :
    Action.Yields s (popTwo (some s)) vs (.error (Fault.ofKind .stackUnderflow)) [] := by
  match vs, hshort with
  | [], _ => exact .bind_error yields_pop_nil
  | [_], _ => exact .bind yields_pop (.bind_error yields_pop_nil)

/-- An operand whose worth is known is added. -/
theorem Instruction.yields_push {n : Int64} (hroom : vs.length < Deque.capacity) :
    Action.Yields s (Instruction.push (some s) (.known n)).perform vs (.ok .advance)
      (.int n :: vs) :=
  .bind (.ofExcept (.ok _)) (.bind (Deque.yields_push hroom) (.pure _))

/-- An operator replaces its operands by their result. -/
theorem Opcode.yields_binary {op : Operator} {result : Value} (h : op.apply v w = .ok result)
    (hroom : vs.length < Deque.capacity) :
    Action.Yields s ((Opcode.binary op).perform (some s)) (v :: w :: vs) (.ok .advance)
      (result :: vs) := by
  refine .bind Deque.yields_popTwo ?_
  dsimp only
  rw [h]
  exact .bind (.ofExcept (.ok _)) (.bind (Deque.yields_push hroom) (.pure _))

/-- An operator that fails has taken its operands away. -/
theorem Opcode.yields_binary_error {op : Operator} {f : Fault} (h : op.apply v w = .error f) :
    Action.Yields s ((Opcode.binary op).perform (some s)) (v :: w :: vs) (.error f) vs := by
  refine .bind Deque.yields_popTwo ?_
  dsimp only
  rw [h]
  exact .bind_error (.ofExcept (.error f))

theorem Opcode.yields_dup (hroom : vs.length + 1 < Deque.capacity) :
    Action.Yields s (Opcode.dup.perform (some s)) (v :: vs) (.ok .advance) (v :: v :: vs) :=
  .bind Deque.yields_pop (.bind (Deque.yields_push (by omega))
    (.bind (Deque.yields_push hroom) (.pure _)))

/-- On a full deque `dup` fails when it has put its value back. -/
theorem Opcode.yields_dup_full (hfull : vs.length + 1 = Deque.capacity) :
    Action.Yields s (Opcode.dup.perform (some s)) (v :: vs) (.error Deque.fullFault) (v :: vs) :=
  .bind Deque.yields_pop (.bind (Deque.yields_push (by omega))
    (.bind_error (Deque.yields_push_full (Nat.le_of_eq hfull.symm))))

theorem Opcode.yields_swap (hroom : vs.length + 1 < Deque.capacity) :
    Action.Yields s (Opcode.swap.perform (some s)) (v :: w :: vs) (.ok .advance) (w :: v :: vs) :=
  .bind Deque.yields_popTwo (.bind (Deque.yields_push (by omega))
    (.bind (Deque.yields_push hroom) (.pure _)))

theorem Opcode.yields_move (hroom : vs.length < Deque.capacity) :
    Action.Yields s (Opcode.move.perform (some s)) (v :: vs) (.ok .advance) (vs ++ [v]) :=
  .bind Deque.yields_pop (.bind (Deque.yields_push_opposite hroom) (.pure _))

theorem Opcode.yields_over (hroom : vs.length + 2 < Deque.capacity) :
    Action.Yields s (Opcode.over.perform (some s)) (v :: w :: vs) (.ok .advance)
      (w :: v :: w :: vs) :=
  .bind Deque.yields_popTwo (.bind (Deque.yields_push (by omega))
    (.bind (Deque.yields_push (by simp only [List.length_cons]; omega))
      (.bind (Deque.yields_push hroom) (.pure _))))

/-- On a full deque `over` fails when it has put its values back. -/
theorem Opcode.yields_over_full (hfull : vs.length + 2 = Deque.capacity) :
    Action.Yields s (Opcode.over.perform (some s)) (v :: w :: vs) (.error Deque.fullFault)
      (v :: w :: vs) :=
  .bind Deque.yields_popTwo (.bind (Deque.yields_push (by omega))
    (.bind (Deque.yields_push (by simp only [List.length_cons]; omega))
      (.bind_error (Deque.yields_push_full (Nat.le_of_eq hfull.symm)))))

theorem Opcode.yields_drop :
    Action.Yields s (Opcode.drop.perform (some s)) (v :: vs) (.ok .advance) vs :=
  .bind Deque.yields_pop (.pure _)

/-- A jump goes where its target says, or fails as the target does. -/
theorem Opcode.yields_jump :
    Action.Yields s (Opcode.jump.perform (some s)) (v :: vs) (v.address.map .jump) vs := by
  refine .bind Deque.yields_pop ?_
  cases haddress : v.address with
  | ok address => exact .bind (.ofExcept (.ok address)) (.pure _)
  | error f => exact .bind_error (.ofExcept (.error f))

/-- A conditional jump is a jump if its condition is true, and else it looks at no target. -/
theorem Opcode.yields_jumpIf :
    Action.Yields s (Opcode.jumpIf.perform (some s)) (v :: w :: vs)
      (if w.isTruthy then v.address.map .jump else .ok .advance) vs := by
  refine .bind Deque.yields_popTwo ?_
  dsimp only
  split
  · cases haddress : v.address with
    | ok address => exact .bind (.ofExcept (.ok address)) (.pure _)
    | error f => exact .bind_error (.ofExcept (.error f))
  · exact .pure _

theorem Opcode.yields_print :
    Action.Yields s (Opcode.print.perform (some s)) (v :: vs) (.ok (.say v.text)) vs :=
  .bind Deque.yields_pop (.pure _)

end Yields

/-! ## §3 Machines -/

namespace Machine

/-- The machine runs this program without tracing, and is at this address with this deque, seen
from the end. -/
structure Stands (p : Program) (s : Side) (m : Machine) (ip : Nat) (stack : List Value) : Prop where
  program : m.program = p
  tracing : m.tracing = false
  stopped : m.stopped = false
  interrupted : m.interrupted = false
  ip : m.ip = ip
  stack : m.deque.seenFrom s = stack

theorem stands_start (p : Program) (s : Side) : Stands p s (start p false) 0 [] :=
  ⟨rfl, rfl, rfl, rfl, rfl, Deque.seenFrom_empty s⟩

namespace Stands

variable {p : Program} {s : Side} {m : Machine} {ip : Nat} {before after : List Value} {t : Token}

/-- The next cycle settles what the token yields. -/
theorem execute_one {r : Except Fault Next} (h : Stands p s m ip before)
    (ht : p.token? ip = some t)
    (hyields : (t.instruction p.labels).perform.Yields s before r after) :
    ∃ e : Deque Value, e.seenFrom s = after ∧ m.execute 1 = m.settle (Action.ofExcept r e) := by
  obtain ⟨e, he, hperform⟩ := hyields m.deque h.stack
  have hinstr : m.program.instruction? m.ip = some (t.instruction p.labels) := by
    rw [h.program, h.ip]
    exact instruction?_of_token? ht
  refine ⟨e, he, ?_⟩
  rw [Machine.execute_one h.stopped h.interrupted, tick_of_some hinstr (by simp [h.tracing]),
    hperform]

theorem advance (h : Stands p s m ip before) (ht : p.token? ip = some t)
    (hyields : (t.instruction p.labels).perform.Yields s before (.ok .advance) after) :
    ∃ m', m.execute 1 = (.running, m') ∧ Stands p s m' (ip + 1) after := by
  obtain ⟨e, he, hexecute⟩ := h.execute_one ht hyields
  exact ⟨_, hexecute, h.program, h.tracing, h.stopped, h.interrupted, by rw [← h.ip], he⟩

theorem jump {address : Nat} (h : Stands p s m ip before) (ht : p.token? ip = some t)
    (hyields : (t.instruction p.labels).perform.Yields s before (.ok (.jump address)) after) :
    ∃ m', m.execute 1 = (.running, m') ∧ Stands p s m' address after := by
  obtain ⟨e, he, hexecute⟩ := h.execute_one ht hyields
  exact ⟨_, hexecute, h.program, h.tracing, h.stopped, h.interrupted, rfl, he⟩

theorem say {text : String} (h : Stands p s m ip before) (ht : p.token? ip = some t)
    (hyields : (t.instruction p.labels).perform.Yields s before (.ok (.say text)) after) :
    ∃ m', m.execute 1 = (.line text, m') ∧ Stands p s m' (ip + 1) after := by
  obtain ⟨e, he, hexecute⟩ := h.execute_one ht hyields
  exact ⟨_, hexecute, h.program, h.tracing, h.stopped, h.interrupted, by rw [← h.ip], he⟩

theorem fail {f : Fault} (h : Stands p s m ip before) (ht : p.token? ip = some t)
    (hyields : (t.instruction p.labels).perform.Yields s before (.error f) after) :
    ∃ m', m.execute 1 = (.failed (f.located ip t.text), m') ∧ m'.deque.seenFrom s = after := by
  obtain ⟨e, he, hexecute⟩ := h.execute_one ht hyields
  have htext : m.tokenText m.ip = t.text := by
    rw [tokenText, h.program, h.ip, ht]
  refine ⟨{ m with deque := e, announced := false, stopped := true }, ?_, he⟩
  rw [hexecute, Action.ofExcept, settle, htext, h.ip]

theorem exit (h : Stands p s m ip before) (ht : p.token? ip = some t)
    (hyields : (t.instruction p.labels).perform.Yields s before (.ok .exit) after) :
    ∃ m', m.execute 1 = (.exit, m') ∧ m'.ip = ip ∧ m'.deque.seenFrom s = after := by
  obtain ⟨e, he, hexecute⟩ := h.execute_one ht hyields
  exact ⟨_, hexecute, h.ip, he⟩

/-- Past the end of the program the machine stops. -/
theorem finish (h : Stands p s m ip before) (ht : p.token? ip = none) :
    m.execute 1 = (.stopped, { m with stopped := true }) := by
  have hinstr : m.program.instruction? m.ip = none := by
    rw [h.program, h.ip]
    exact instruction?_of_token?_none ht
  rw [Machine.execute_one h.stopped h.interrupted, tick_of_none hinstr, Machine.finish, h.tracing]
  rfl

end Stands

end Machine

end TwoEnded
