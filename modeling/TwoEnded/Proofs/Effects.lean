/-
TwoEnded.Proofs.Effects — what no instruction can do, whatever the deque.

## §1 Actions

`Action.Keeps I F x`: on a deque with the property `I` the action `x` leaves a deque
with the property `I`, whether it succeeds or fails, and if it fails its fault has the
property `F`. `Action.Returns V x`: a result of `x` has the property `V`. Both go
through `bind`, so that an instruction is as good as its single steps.

## §2 Instructions

A property of the deque that removals keep, and insertions where there is room
(`Deque.Stable`), is kept by every instruction, even by one that fails halfway; and no
instruction raises a fault that is about the world outside the program
(`Instruction.keeps`). To be within the capacity is such a property. An instruction that
jumps takes its target from the end of the deque that it names
(`Instruction.perform_jump`).
-/
import TwoEnded.Instruction

namespace TwoEnded

/-! ## §1 Actions -/

namespace Action

variable {α β : Type} {I : Deque Value → Prop} {F : Fault → Prop} {V : β → Prop}

/-- The action keeps a property of the deque, and its faults are of a kind. -/
def Keeps (I : Deque Value → Prop) (F : Fault → Prop) (x : Action α) : Prop :=
  ∀ d, I d →
    match x d with
    | .ok _ d' => I d'
    | .error f d' => I d' ∧ F f

theorem Keeps.pure (a : α) : Keeps I F (Pure.pure a : Action α) :=
  fun _ hd => hd

theorem Keeps.bind {x : Action α} {f : α → Action β} (hx : Keeps I F x)
    (hf : ∀ a, Keeps I F (f a)) : Keeps I F (x >>= f) := by
  intro d hd
  have hfirst := hx d hd
  simp only [Bind.bind, EStateM.bind]
  cases hr : x d with
  | ok a e =>
    rw [hr] at hfirst
    exact hf a e hfirst
  | error f e =>
    rw [hr] at hfirst
    exact hfirst

theorem Keeps.ofExcept {r : Except Fault α} (h : ∀ f, r = .error f → F f) :
    Keeps I F (Action.ofExcept r) := by
  intro d hd
  cases r with
  | ok a => exact hd
  | error f => exact ⟨hd, h f rfl⟩

/-- The results of the action have a property. -/
def Returns (V : β → Prop) (x : Action β) : Prop :=
  ∀ d b d', x d = .ok b d' → V b

theorem Returns.pure {b : β} (h : V b) : Returns V (Pure.pure b : Action β) := by
  intro d b' d' hr
  cases hr
  exact h

/-- The results of two actions in a row are those of the second. -/
theorem Returns.bind {x : Action α} {f : α → Action β} (h : ∀ a, Returns V (f a)) :
    Returns V (x >>= f) := by
  intro d b d' hr
  simp only [Bind.bind, EStateM.bind] at hr
  split at hr
  · next a e _ => exact h a e b d' hr
  · cases hr

/-- Two actions in a row succeed only if both do. -/
theorem bind_eq_ok {x : Action α} {f : α → Action β} {d d' : Deque Value} {b : β}
    (h : (x >>= f) d = .ok b d') : ∃ a e, x d = .ok a e ∧ f a e = .ok b d' := by
  simp only [Bind.bind, EStateM.bind] at h
  split at h
  · next a e hx => exact ⟨a, e, hx, h⟩
  · cases h

theorem ofExcept_eq_ok {r : Except Fault α} {d d' : Deque Value} {a : α}
    (h : Action.ofExcept r d = .ok a d') : r = .ok a ∧ d' = d := by
  cases r with
  | ok b => cases h; exact ⟨rfl, rfl⟩
  | error f => cases h

end Action

/-! ## §2 Instructions -/

/-- Whether a program can bring about the fault by what it does to the deque. -/
def FaultKind.isInner : FaultKind → Bool
  | .undefinedLabel => true
  | .directionRequired => true
  | .stackUnderflow => true
  | .overflow => true
  | .outOfMemory => true
  | .negativeShift => true
  | .invalidAddress => true
  | _ => false

/-- The faults that instructions raise. -/
def Fault.Inner (f : Fault) : Prop := f.kind.isInner = true

namespace Deque

theorem size_of_take? {α : Type} {s : Side} {d d' : Deque α} {x : α}
    (h : d.take? s = some (x, d')) : d.size = d'.size + 1 := by
  rw [← length_toList, ← length_toList]
  cases s with
  | left => rw [take?_left_eq_some h, List.length_cons]
  | right => rw [take?_right_eq_some h, List.length_append, List.length_singleton]

theorem mem_of_take? {α : Type} {s : Side} {d d' : Deque α} {x : α}
    (h : d.take? s = some (x, d')) : x ∈ d.toList := by
  cases s with
  | left => simp [take?_left_eq_some h]
  | right => simp [take?_right_eq_some h]

/-- Neither a removal nor an insertion where there is room breaks the property. -/
structure Stable (I : Deque Value → Prop) : Prop where
  empty : I .empty
  insert : ∀ {d : Deque Value} {s : Side} {v : Value}, I d → d.size < capacity → I (d.insert s v)
  take : ∀ {d d' : Deque Value} {s : Side} {v : Value}, I d → d.take? s = some (v, d') → I d'

/-- The deque is within its capacity. -/
def Roomy (d : Deque Value) : Prop := d.size ≤ capacity

theorem stable_roomy : Stable Roomy where
  empty := Nat.zero_le _
  insert := by
    intro d s v _ hroom
    rw [Roomy, size_insert]
    omega
  take := by
    intro d d' s v hd htake
    have hsize := size_of_take? htake
    simp only [Roomy] at hd ⊢
    omega

theorem stable_any : Stable fun _ => True :=
  ⟨trivial, fun _ _ => trivial, fun _ _ => trivial⟩

section Stable

variable {I : Deque Value → Prop} (hI : Stable I)

include hI

/-- An insertion is refused before it would exceed the capacity. -/
theorem keeps_push (side : Option Side) (v : Value) :
    Action.Keeps I Fault.Inner (push side v) := by
  intro d hd
  cases side with
  | none => exact ⟨hd, rfl⟩
  | some s =>
    by_cases hfull : capacity ≤ d.size
    · simp only [push, if_pos hfull]
      exact ⟨hd, rfl⟩
    · simp only [push, if_neg hfull]
      exact hI.insert hd (by omega)

theorem keeps_pop (side : Option Side) : Action.Keeps I Fault.Inner (pop side) := by
  intro d hd
  cases side with
  | none => exact ⟨hd, rfl⟩
  | some s =>
    simp only [pop]
    cases htake : d.take? s with
    | none => exact ⟨hI.empty, rfl⟩
    | some p => exact hI.take hd htake

theorem keeps_popTwo (side : Option Side) : Action.Keeps I Fault.Inner (popTwo side) :=
  .bind (keeps_pop hI side) fun _ => .bind (keeps_pop hI side) fun _ => .pure _

end Stable

theorem pop_eq_ok {side : Option Side} {d d' : Deque Value} {v : Value}
    (h : pop side d = .ok v d') : ∃ s, side = some s ∧ d.take? s = some (v, d') := by
  cases side with
  | none => cases h
  | some s =>
    simp only [pop] at h
    split at h
    · next htake => cases h; exact ⟨s, rfl, htake⟩
    · cases h

theorem popTwo_eq_ok {side : Option Side} {d d' : Deque Value} {v w : Value}
    (h : popTwo side d = .ok (v, w) d') :
    ∃ s e, side = some s ∧ d.take? s = some (v, e) ∧ e.take? s = some (w, d') := by
  obtain ⟨v', e, hfirst, hrest⟩ := Action.bind_eq_ok h
  obtain ⟨w', e', hsecond, hpair⟩ := Action.bind_eq_ok hrest
  cases hpair
  obtain ⟨s, hs, htake⟩ := pop_eq_ok hfirst
  obtain ⟨s', hs', htake'⟩ := pop_eq_ok hsecond
  rw [hs] at hs'
  cases hs'
  exact ⟨s, e, hs, htake, htake'⟩

end Deque

theorem Value.checked_inner {n : Int} {f : Fault} (h : Value.checked n = .error f) :
    f.Inner := by
  unfold Value.checked at h
  split at h
  · cases h
  · cases h; rfl

/-- The faults of an operator: an overflow or a negative count. -/
theorem Operator.apply_inner {op : Operator} {a b : Value} {f : Fault}
    (h : op.apply a b = .error f) : f.Inner := by
  cases op with
  | add => exact Value.checked_inner h
  | sub => exact Value.checked_inner h
  | shr =>
    simp only [apply, Value.shr] at h
    split at h
    · cases h; rfl
    · cases h
  | shl =>
    simp only [apply, Value.shl] at h
    split at h
    · cases h; rfl
    · split at h
      · cases h
      · split at h
        · cases h; rfl
        · exact Value.checked_inner h
  | _ => cases h

theorem Value.address_inner {v : Value} {f : Fault} (h : v.address = .error f) : f.Inner := by
  unfold Value.address at h
  split at h
  · cases h; rfl
  · cases h

theorem Operand.value_inner {operand : Operand} {f : Fault} (h : operand.value = .error f) :
    f.Inner := by
  cases operand with
  | known n => cases h
  | overflow => cases h; rfl
  | undefined => cases h; rfl

section Stable

variable {I : Deque Value → Prop} (hI : Deque.Stable I)

include hI

open Deque in
theorem Opcode.keeps (op : Opcode) (side : Option Side) :
    Action.Keeps I Fault.Inner (op.perform side) := by
  cases op with
  | binary op =>
    refine .bind (keeps_popTwo hI side) fun _ => ?_
    refine .bind (.ofExcept fun _ => Operator.apply_inner) fun v => ?_
    exact .bind (keeps_push hI side v) fun _ => .pure _
  | dup =>
    refine .bind (keeps_pop hI side) fun v => .bind (keeps_push hI side v) fun _ => ?_
    exact .bind (keeps_push hI side v) fun _ => .pure _
  | swap =>
    refine .bind (keeps_popTwo hI side) fun p => .bind (keeps_push hI side p.1) fun _ => ?_
    exact .bind (keeps_push hI side p.2) fun _ => .pure _
  | move =>
    refine .bind (keeps_pop hI side) fun v => ?_
    exact .bind (keeps_push hI _ v) fun _ => .pure _
  | «over» =>
    refine .bind (keeps_popTwo hI side) fun p => .bind (keeps_push hI side p.2) fun _ => ?_
    refine .bind (keeps_push hI side p.1) fun _ => ?_
    exact .bind (keeps_push hI side p.2) fun _ => .pure _
  | drop => exact .bind (keeps_pop hI side) fun _ => .pure _
  | jumpIf =>
    refine .bind (keeps_popTwo hI side) fun p => ?_
    dsimp only
    split
    · exact .bind (.ofExcept fun _ => Value.address_inner) fun _ => .pure _
    · exact .pure _
  | jump =>
    refine .bind (keeps_pop hI side) fun v => ?_
    exact .bind (.ofExcept fun _ => Value.address_inner) fun _ => .pure _
  | exit => exact .pure _
  | print => exact .bind (keeps_pop hI side) fun _ => .pure _
  | trace => exact fun d hd => hd

/-- An instruction keeps what insertions and removals keep, also if it fails halfway, and
raises inner faults only. -/
theorem Instruction.keeps (i : Instruction) : Action.Keeps I Fault.Inner i.perform := by
  cases i with
  | landmark => exact .pure _
  | apply side op => exact op.keeps hI side
  | push side operand =>
    refine .bind (.ofExcept fun _ => Operand.value_inner) fun v => ?_
    exact .bind (Deque.keeps_push hI side v) fun _ => .pure _

end Stable

theorem Instruction.perform_inner {i : Instruction} {d d' : Deque Value} {f : Fault}
    (h : i.perform d = .error f d') : f.Inner := by
  have hkeeps := i.keeps Deque.stable_any d trivial
  rw [h] at hkeeps
  exact hkeeps.2

/-- What an opcode can lead to: only `jmp` and `jmpif` jump, only `print` and `trace` say a line,
and only `exit` ends the run. -/
def Opcode.LeadsTo (op : Opcode) : Next → Prop
  | .advance => True
  | .jump _ => op = .jump ∨ op = .jumpIf
  | .say _ => op = .print ∨ op = .trace
  | .exit => op = .exit

theorem Opcode.returns_leadsTo (op : Opcode) (side : Option Side) :
    Action.Returns op.LeadsTo (op.perform side) := by
  cases op with
  | binary op => exact .bind fun _ => .bind fun _ => .bind fun _ => .pure trivial
  | dup => exact .bind fun _ => .bind fun _ => .bind fun _ => .pure trivial
  | swap => exact .bind fun _ => .bind fun _ => .bind fun _ => .pure trivial
  | move => exact .bind fun _ => .bind fun _ => .pure trivial
  | «over» => exact .bind fun _ => .bind fun _ => .bind fun _ => .bind fun _ => .pure trivial
  | drop => exact .bind fun _ => .pure trivial
  | jumpIf =>
    refine .bind fun pair => ?_
    dsimp only
    split
    · exact .bind fun _ => .pure (.inr rfl)
    · exact .pure trivial
  | jump => exact .bind fun _ => .bind fun _ => .pure (.inl rfl)
  | exit => exact .pure rfl
  | print => exact .bind fun _ => .pure (.inl rfl)
  | trace =>
    intro d next d' h
    cases h
    exact .inr rfl

/-- Whether what comes next is a jump. -/
def Next.isJump : Next → Bool
  | .jump _ => true
  | _ => false

theorem Opcode.returns_no_jump {op : Opcode} (hjump : op ≠ .jump) (hjumpIf : op ≠ .jumpIf)
    (side : Option Side) : Action.Returns (fun next => next.isJump = false) (op.perform side) := by
  intro d next d' h
  have hleads := op.returns_leadsTo side d next d' h
  cases next with
  | jump address => exact (hleads.elim hjump hjumpIf).elim
  | _ => rfl

theorem Opcode.perform_jump_eq_ok {side : Option Side} {d d' : Deque Value} {next : Next}
    (h : Opcode.jump.perform side d = .ok next d') :
    ∃ s v address, side = some s ∧ d.take? s = some (v, d') ∧ v.address = .ok address ∧
      next = .jump address := by
  obtain ⟨v, e, hpop, hrest⟩ := Action.bind_eq_ok h
  obtain ⟨address, e', haddress, hnext⟩ := Action.bind_eq_ok hrest
  obtain ⟨s, hs, htake⟩ := Deque.pop_eq_ok hpop
  obtain ⟨hvalue, rfl⟩ := Action.ofExcept_eq_ok haddress
  cases hnext
  exact ⟨s, v, address, hs, htake, hvalue, rfl⟩

theorem Opcode.perform_jumpIf_eq_ok {side : Option Side} {d d' : Deque Value} {next : Next}
    (h : Opcode.jumpIf.perform side d = .ok next d') :
    ∃ s v e condition, side = some s ∧ d.take? s = some (v, e) ∧
      e.take? s = some (condition, d') ∧
      ((condition.isTruthy = true ∧ ∃ address, v.address = .ok address ∧ next = .jump address) ∨
        (condition.isTruthy = false ∧ next = .advance)) := by
  obtain ⟨⟨v, condition⟩, e₁, hpops, hrest⟩ := Action.bind_eq_ok h
  obtain ⟨s, e, hs, htake, htake'⟩ := Deque.popTwo_eq_ok hpops
  dsimp only at hrest
  split at hrest
  · next htrue =>
    obtain ⟨address, e', haddress, hnext⟩ := Action.bind_eq_ok hrest
    obtain ⟨hvalue, rfl⟩ := Action.ofExcept_eq_ok haddress
    cases hnext
    exact ⟨s, v, e, condition, hs, htake, htake', .inl ⟨htrue, address, hvalue, rfl⟩⟩
  · next hfalse =>
    cases hrest
    exact ⟨s, v, e, condition, hs, htake, htake', .inr ⟨by simpa using hfalse, rfl⟩⟩

/-- Only `jmp` and `jmpif` jump, and they jump where the value says that they find at
the end they name. -/
theorem Instruction.perform_jump {i : Instruction} {d d' : Deque Value} {address : Nat}
    (h : i.perform d = .ok (.jump address) d') :
    ∃ (s : Side) (op : Opcode) (v : Value) (e : Deque Value),
      i = .apply (some s) op ∧ (op = .jump ∨ op = .jumpIf) ∧ d.take? s = some (v, e) ∧
        v.address = .ok address := by
  cases i with
  | landmark => cases h
  | push side operand =>
    obtain ⟨v, e, -, hpush⟩ := Action.bind_eq_ok h
    obtain ⟨u, e', -, hnext⟩ := Action.bind_eq_ok hpush
    cases hnext
  | apply side op =>
    by_cases hjump : op = .jump
    · subst hjump
      obtain ⟨s, v, a, rfl, htake, hvalue, hnext⟩ := Opcode.perform_jump_eq_ok h
      cases hnext
      exact ⟨s, .jump, v, d', rfl, .inl rfl, htake, hvalue⟩
    · by_cases hjumpIf : op = .jumpIf
      · subst hjumpIf
        obtain ⟨s, v, e, condition, rfl, htake, -, hcases⟩ := Opcode.perform_jumpIf_eq_ok h
        obtain ⟨-, a, hvalue, hnext⟩ | ⟨-, hnext⟩ := hcases
        · cases hnext
          exact ⟨s, .jumpIf, v, e, rfl, .inr rfl, htake, hvalue⟩
        · cases hnext
      · have hnone := Opcode.returns_no_jump hjump hjumpIf side d _ d' h
        cases hnone

end TwoEnded
