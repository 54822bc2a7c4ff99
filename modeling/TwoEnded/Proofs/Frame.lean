/-
TwoEnded.Proofs.Frame — work at the right end does not see what lies at the left.

## §1 Actions

`Action.Frames E x`: if `x` succeeds on a deque and there is room for the values `E` besides
what it leaves, then it does the same on the deque with `E` added at the left, and leaves `E`
where it is. Room is needed by insertions only, and the room at the end is enough for all of
them if nothing is removed after them. So an action is taken apart into removals, which need
no room (`Frames.pop_bind`), and insertions after them, which only make the deque longer
(`Inserts`).

## §2 Instructions

Every instruction that is not marked for the left end is such an action, but for `move`, which
adds to the left end, and `trace`, which shows the whole deque (`Instruction.frames`).

## §3 Machines

The same for a cycle (`Extended.execute_one`), and for any number of cycles.
-/
import TwoEnded.Proofs.Effects
import TwoEnded.Proofs.Reach

namespace TwoEnded

/-! ## §1 Actions -/

namespace Action

variable {α β : Type} {E : List Value}

/-- What the action does it does also with `E` added at the left, if there is room. -/
def Frames (E : List Value) (x : Action α) : Prop :=
  ∀ (d d' : Deque Value) (a : α) (e : Deque Value), d'.toList = E ++ d.toList →
    x d = .ok a e → e.size + E.length ≤ Deque.capacity →
    ∃ e' : Deque Value, x d' = .ok a e' ∧ e'.toList = E ++ e.toList

/-- The action does so and does not make the deque shorter. -/
structure Inserts (E : List Value) (x : Action α) : Prop where
  frames : Frames E x
  grows : ∀ (d : Deque Value) (a : α) (e : Deque Value), x d = .ok a e → d.size ≤ e.size

theorem bind_of_ok {x : Action α} {f : α → Action β} {d e : Deque Value} {a : α}
    (h : x d = .ok a e) : (x >>= f) d = f a e := by
  simp only [Bind.bind, EStateM.bind, h]

/-- A result that does not touch the deque. -/
theorem Inserts.ofExcept (r : Except Fault α) : Inserts E (Action.ofExcept r) where
  frames := by
    intro d d' a e hd h _
    obtain ⟨rfl, rfl⟩ := ofExcept_eq_ok h
    exact ⟨d', rfl, hd⟩
  grows := by
    intro d a e h
    obtain ⟨-, rfl⟩ := ofExcept_eq_ok h
    exact Nat.le_refl _

theorem Inserts.pure (a : α) : Inserts E (Pure.pure a : Action α) := .ofExcept (.ok a)

theorem Inserts.bind {x : Action α} {f : α → Action β} (hx : Inserts E x)
    (hf : ∀ a, Inserts E (f a)) : Inserts E (x >>= f) where
  frames := by
    intro d d' b e hd h hroom
    obtain ⟨a, e₁, hfirst, hsecond⟩ := bind_eq_ok h
    -- The first action leaves no more than the second one.
    have hsize := (hf a).grows e₁ b e hsecond
    obtain ⟨e₁', hfirst', he₁⟩ := hx.frames d d' a e₁ hd hfirst (by omega)
    rw [bind_of_ok hfirst']
    exact (hf a).frames e₁ e₁' b e he₁ hsecond hroom
  grows := by
    intro d b e h
    obtain ⟨a, e₁, hfirst, hsecond⟩ := bind_eq_ok h
    exact Nat.le_trans (hx.grows d a e₁ hfirst) ((hf a).grows e₁ b e hsecond)

end Action

namespace Deque

variable {E : List Value} {side : Option Side}

/-- The value at the right end can be removed. -/
theorem take?_right_of_toList {d : Deque Value} {vs : List Value} {v : Value}
    (h : d.toList = vs ++ [v]) :
    ∃ e : Deque Value, d.take? .right = some (v, e) ∧ e.toList = vs := by
  cases htake : d.take? .right with
  | none =>
    rw [take?_eq_none_iff, ← toList_eq_nil_iff, h] at htake
    simp at htake
  | some p =>
    obtain ⟨w, e⟩ := p
    rw [take?_right_eq_some htake] at h
    obtain ⟨hvs, hv⟩ := List.append_inj' h rfl
    cases hv
    exact ⟨e, rfl, hvs⟩

theorem push_eq_ok {v : Value} {d e : Deque Value} {u : Unit} (h : push side v d = .ok u e) :
    ∃ s, side = some s ∧ e = d.insert s v := by
  cases side with
  | none => cases h
  | some s =>
    simp only [push] at h
    split at h
    · cases h
    · cases h
      exact ⟨s, rfl, rfl⟩

theorem inserts_push (hside : side ≠ some .left) (v : Value) :
    Action.Inserts E (push side v) where
  frames := by
    intro d d' u e hd h hroom
    obtain ⟨s, rfl, rfl⟩ := push_eq_ok h
    cases s with
    | left => exact absurd rfl hside
    | right =>
      have hsize : d'.size = E.length + d.size := by
        rw [← length_toList, hd, List.length_append, length_toList]
      rw [size_insert] at hroom
      refine ⟨d'.insert .right v, ?_, by simp [hd]⟩
      simp only [push]
      rw [if_neg (by omega)]
  grows := by
    intro d u e h
    obtain ⟨s, -, rfl⟩ := push_eq_ok h
    rw [size_insert]
    omega

/-- A removal at the right end finds the same value, and needs no room. -/
theorem pop_extended (hside : side ≠ some .left) {d d' e : Deque Value} {v : Value}
    (hd : d'.toList = E ++ d.toList) (h : pop side d = .ok v e) :
    ∃ e' : Deque Value, pop side d' = .ok v e' ∧ e'.toList = E ++ e.toList := by
  obtain ⟨s, rfl, htake⟩ := pop_eq_ok h
  cases s with
  | left => exact absurd rfl hside
  | right =>
    rw [take?_right_eq_some htake, ← List.append_assoc] at hd
    obtain ⟨e', htake', he'⟩ := take?_right_of_toList hd
    exact ⟨e', by simp [pop, htake'], he'⟩

end Deque

namespace Action

variable {β : Type} {E : List Value} {side : Option Side}

theorem Frames.pop_bind (hside : side ≠ some .left) {f : Value → Action β}
    (hf : ∀ v, Frames E (f v)) : Frames E (Deque.pop side >>= f) := by
  intro d d' b e hd h hroom
  obtain ⟨v, e₁, hpop, hrest⟩ := bind_eq_ok h
  obtain ⟨e₁', hpop', he₁⟩ := Deque.pop_extended hside hd hpop
  rw [bind_of_ok hpop']
  exact hf v e₁ e₁' b e he₁ hrest hroom

theorem Frames.popTwo_bind (hside : side ≠ some .left) {f : Value × Value → Action β}
    (hf : ∀ p, Frames E (f p)) : Frames E (Deque.popTwo side >>= f) := by
  have hpops : Deque.popTwo side >>= f =
      Deque.pop side >>= fun v => Deque.pop side >>= fun w => f (v, w) := by
    simp [Deque.popTwo]
  rw [hpops]
  exact .pop_bind hside fun v => .pop_bind hside fun w => hf (v, w)

end Action

/-! ## §2 Instructions -/

open Deque in
theorem Opcode.frames {E : List Value} {side : Option Side} (hside : side ≠ some .left)
    {op : Opcode} (hmove : op ≠ .move) (htrace : op ≠ .trace) :
    Action.Frames E (op.perform side) := by
  have hpush : ∀ v, Action.Inserts E (push side v) := inserts_push hside
  cases op with
  | binary op =>
    refine .popTwo_bind hside fun p => Action.Inserts.frames ?_
    refine .bind (.ofExcept _) fun v => ?_
    exact .bind (hpush v) fun _ => .pure _
  | dup =>
    refine .pop_bind hside fun v => Action.Inserts.frames ?_
    refine .bind (hpush v) fun _ => ?_
    exact .bind (hpush v) fun _ => .pure _
  | swap =>
    refine .popTwo_bind hside fun p => Action.Inserts.frames ?_
    refine .bind (hpush p.1) fun _ => ?_
    exact .bind (hpush p.2) fun _ => .pure _
  | move => exact absurd rfl hmove
  | «over» =>
    refine .popTwo_bind hside fun p => Action.Inserts.frames ?_
    refine .bind (hpush p.2) fun _ => ?_
    refine .bind (hpush p.1) fun _ => ?_
    exact .bind (hpush p.2) fun _ => .pure _
  | drop => exact .pop_bind hside fun _ => (Action.Inserts.pure _).frames
  | jumpIf =>
    refine .popTwo_bind hside fun p => ?_
    dsimp only
    split
    · exact (Action.Inserts.bind (.ofExcept _) fun _ => .pure _).frames
    · exact (Action.Inserts.pure _).frames
  | jump =>
    refine .pop_bind hside fun v => Action.Inserts.frames ?_
    exact .bind (.ofExcept _) fun _ => .pure _
  | exit => exact (Action.Inserts.pure _).frames
  | print => exact .pop_bind hside fun _ => (Action.Inserts.pure _).frames
  | trace => exact absurd rfl htrace

/-- The instruction has nothing to do with the left end. -/
def Instruction.SparesLeft : Instruction → Prop
  | .landmark => True
  | .apply side op => side ≠ some .left ∧ op ≠ .move ∧ op ≠ .trace
  | .push side _ => side ≠ some .left

/-- An instruction that has nothing to do with the left end does not see what is added there. -/
theorem Instruction.frames {E : List Value} {i : Instruction} (h : i.SparesLeft) :
    Action.Frames E i.perform := by
  cases i with
  | landmark => exact (Action.Inserts.pure _).frames
  | apply side op => exact Opcode.frames h.1 h.2.1 h.2.2
  | push side operand =>
    refine Action.Inserts.frames ?_
    refine .bind (.ofExcept _) fun v => ?_
    exact .bind (Deque.inserts_push h v) fun _ => .pure _

/-- The token has nothing to do with the left end: it is not marked for it, and its word is
neither `move` nor `trace`. -/
structure Token.SparesLeft (t : Token) : Prop where
  side : t.side ≠ some .left
  move : t.word ≠ "move"
  trace : t.word ≠ "trace"

instance (t : Token) : Decidable t.SparesLeft :=
  decidable_of_iff (t.side ≠ some .left ∧ t.word ≠ "move" ∧ t.word ≠ "trace")
    ⟨fun ⟨hside, hmove, htrace⟩ => ⟨hside, hmove, htrace⟩, fun h => ⟨h.side, h.move, h.trace⟩⟩

theorem Token.SparesLeft.instruction {t : Token} (h : t.SparesLeft) (labels : Labels) :
    (t.instruction labels).SparesLeft := by
  have hsplit : t.split = (t.side, t.word) := rfl
  simp only [Token.instruction, hsplit]
  split
  · trivial
  · split
    · next op hop =>
      have hname := Opcode.name_of_ofWord? hop
      refine ⟨h.side, ?_, ?_⟩
      · rintro rfl
        exact h.move hname.symm
      · rintro rfl
        exact h.trace hname.symm
    · exact h.side

/-! ## §3 Machines -/

namespace Machine

/-- The machine after so many cycles, spent one by one. -/
def afterCycles (m : Machine) : Nat → Machine
  | 0 => m
  | n + 1 => ((m.afterCycles n).execute 1).2

/-- What the machine tells in a cycle, the cycles being counted from zero. -/
def cycleEvent (m : Machine) (n : Nat) : Event := ((m.afterCycles n).execute 1).1

/-- The second machine is the first with `E` added at the left of its deque. -/
structure Extended (E : List Value) (m m' : Machine) : Prop where
  same : m' = { m with deque := m'.deque }
  deque : m'.deque.toList = E ++ m.deque.toList

/-- The machine runs, and performs in its next cycle an instruction that has nothing to do with
the left end and does not fail. It leaves room for so many more values. -/
structure RightStep (room : Nat) (m : Machine) : Prop where
  running : m.stopped = false
  token : ∃ t, m.program.token? m.ip = some t ∧ t.SparesLeft
  succeeds : ∀ f, (m.execute 1).1 ≠ .failed f
  room : (m.execute 1).2.deque.toList.length + room ≤ Deque.capacity

theorem RightStep.interrupted {room : Nat} {m : Machine} (h : RightStep room m) :
    m.interrupted = false := by
  cases hi : m.interrupted with
  | false => rfl
  | true =>
    have hfails := h.succeeds
    rw [execute_of_interrupted h.running hi] at hfails
    exact absurd rfl (hfails _)

/-- What comes of the instruction is settled in the same way on both machines. -/
theorem Extended.settle {E : List Value} {m m' : Machine} (h : Extended E m m')
    {e e' : Deque Value} (he : e'.toList = E ++ e.toList) (next : Next) :
    (m'.settle (.ok next e')).1 = (m.settle (.ok next e)).1 ∧
      Extended E (m.settle (.ok next e)).2 (m'.settle (.ok next e')).2 := by
  rw [h.same]
  cases next with
  | advance => exact ⟨rfl, rfl, he⟩
  | jump address => exact ⟨rfl, rfl, he⟩
  | say line => exact ⟨rfl, rfl, he⟩
  | exit => exact ⟨rfl, rfl, he⟩

theorem deque_settle (m : Machine) (next : Next) (e : Deque Value) :
    (m.settle (.ok next e)).2.deque = e := by
  cases next <;> rfl

/-- One instruction on both machines. -/
theorem Extended.execute_one {E : List Value} {m m' : Machine} (h : Extended E m m')
    (htr : m.tracing = false) (hstep : RightStep E.length m) :
    (m'.execute 1).1 = (m.execute 1).1 ∧ Extended E (m.execute 1).2 (m'.execute 1).2 := by
  have hs := hstep.running
  have hi := hstep.interrupted
  have hsucceeds := hstep.succeeds
  have hroom := hstep.room
  obtain ⟨t, ht, hspares⟩ := hstep.token
  have hinstr := instruction?_of_token? ht
  have htick : m.execute 1 = m.settle ((t.instruction m.program.labels).perform m.deque) := by
    rw [Machine.execute_one hs hi, tick_of_some hinstr (by simp [htr])]
  have htick' : m'.execute 1 = m'.settle ((t.instruction m.program.labels).perform m'.deque) := by
    have hsame := h.same
    rw [Machine.execute_one (by rw [hsame, hs]) (by rw [hsame, hi]),
      tick_of_some (by rw [hsame, hinstr]) (by rw [hsame]; simp [htr])]
  rw [htick] at hsucceeds hroom ⊢
  rw [htick']
  cases hr : (t.instruction m.program.labels).perform m.deque with
  | error f e =>
    rw [hr] at hsucceeds
    exact absurd rfl (hsucceeds _)
  | ok next e =>
    rw [hr, deque_settle, Deque.length_toList] at hroom
    obtain ⟨e', hr', he⟩ :=
      Instruction.frames (hspares.instruction _) m.deque m'.deque next e h.deque hr hroom
    rw [hr']
    exact h.settle he next

theorem afterCycles_keeps (m : Machine) (n : Nat) :
    (m.afterCycles n).program = m.program ∧ (m.afterCycles n).tracing = m.tracing := by
  induction n with
  | zero => exact ⟨rfl, rfl⟩
  | succ n ih =>
    obtain ⟨hprogram, htracing⟩ := execute_keeps (m := m.afterCycles n) (Prod.ext rfl rfl)
    exact ⟨hprogram.trans ih.1, htracing.trans ih.2⟩

/-- **Work at the right end does not see what lies at the left.** Let a machine without tracing
perform so many instructions, none of which fails or has to do with the left end, and each of
which leaves room for the values `E`. Then the machine with `E` added at the left performs the
same instructions: after each of them it is the first machine with `E` added at the left, and
it tells the same. -/
theorem right_end_frame {E : List Value} {m m' : Machine} (h : Extended E m m')
    (htr : m.tracing = false) {n : Nat}
    (hsteps : ∀ j < n, RightStep E.length (m.afterCycles j)) :
    (∀ j ≤ n, Extended E (m.afterCycles j) (m'.afterCycles j)) ∧
      ∀ j < n, m'.cycleEvent j = m.cycleEvent j := by
  have hstates : ∀ j ≤ n, Extended E (m.afterCycles j) (m'.afterCycles j) := by
    intro j
    induction j with
    | zero => exact fun _ => h
    | succ j ih =>
      intro hj
      have htr' := (afterCycles_keeps m j).2.trans htr
      exact ((ih (by omega)).execute_one htr' (hsteps j (by omega))).2
  refine ⟨hstates, fun j hj => ?_⟩
  have htr' := (afterCycles_keeps m j).2.trans htr
  exact ((hstates j (by omega)).execute_one htr' (hsteps j hj)).1

/-- A loop that counts down at the right end and then exits, with and without two values at the
left. -/
theorem right_end_frame_countdown :
    let p : Program :=
      { tokens := #[⟨"l:"⟩, ⟨"dup!"⟩, ⟨"print!"⟩, ⟨"1!"⟩, ⟨"sub!"⟩, ⟨"dup!"⟩, ⟨"l!"⟩, ⟨"jmpif!"⟩,
          ⟨"exit"⟩],
        labels := (∅ : Labels).insert "l" 0 }
    let E : List Value := [.bool true, .int 7]
    let m : Machine := { start p false with deque := .ofList [.int 2] }
    let m' : Machine := { start p false with deque := .ofList [.bool true, .int 7, .int 2] }
    (∀ j < 17, RightStep E.length (m.afterCycles j)) ∧
      m'.cycleEvent 2 = .line "2" ∧ m'.cycleEvent 10 = .line "1" ∧
      m'.cycleEvent 16 = .exit ∧ (m'.afterCycles 17).ip = 8 ∧
      (m'.afterCycles 17).deque.toList = E ++ [.int 0] := by
  intro p E m m'
  have hextended : Extended E m m' := ⟨rfl, by decide +kernel⟩
  have hruns : ∀ j < 17, (m.afterCycles j).stopped = false := by decide +kernel
  have htokens : ∀ j < 17, (p.token? (m.afterCycles j).ip).any (fun t => t.SparesLeft) = true := by
    decide +kernel
  have hevents : ∀ j < 17, m.cycleEvent j ∈ [.running, .line "2", .line "1", .exit] := by
    decide +kernel
  have hrooms : ∀ j < 17,
      ((m.afterCycles j).execute 1).2.deque.toList.length + E.length ≤ Deque.capacity := by
    decide +kernel
  have hsteps : ∀ j < 17, RightStep E.length (m.afterCycles j) := by
    intro j hj
    refine ⟨hruns j hj, ?_, ?_, hrooms j hj⟩
    · rw [(afterCycles_keeps m j).1]
      obtain ⟨t, ht, hspares⟩ := (Option.any_eq_true ..).mp (htokens j hj)
      exact ⟨t, ht, by simpa using hspares⟩
    · intro f hf
      have hevent := hevents j hj
      rw [cycleEvent, hf] at hevent
      simp at hevent
  obtain ⟨hstates, hsame⟩ := right_end_frame hextended rfl hsteps
  have hlast := hstates 17 (by omega)
  refine ⟨hsteps, ?_, ?_, ?_, ?_, ?_⟩
  · rw [hsame 2 (by omega)]
    decide +kernel
  · rw [hsame 10 (by omega)]
    decide +kernel
  · rw [hsame 16 (by omega)]
    decide +kernel
  · rw [hlast.same]
    decide +kernel
  · rw [hlast.deque]
    decide +kernel

end Machine

end TwoEnded
