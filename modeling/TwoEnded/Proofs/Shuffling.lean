/-
TwoEnded.Proofs.Shuffling — the opcodes that rearrange the deque undo each other.

## §1 Sequences

`Rearranges s before ops after`: on a deque that holds `before`, seen from `s`, the opcodes, each at
an end of its own, succeed one after the other and leave `after`. An opcode at the other end works
on the same values in reverse (`Action.Yields.of_opposite`).

## §2 Laws

`swap` and `move` put back what they take away and so need no room. `dup` and `over` need one place,
which `drop` or `eq` gives back. As many moves as there are values before some place bring all of
them behind the others (`Rearranges.moves`), and moves from the other end bring them back
(`Rearranges.moves_back`, by induction on their number, from the outside in).

## §3 Machines

A machine that has these opcodes ahead performs them, with tracing or without; nothing but its
address and its deque is changed.
-/
import TwoEnded.Proofs.Independence

namespace TwoEnded

/-! ## §1 Sequences -/

/-- What an action does seen from the other end. -/
theorem Action.Yields.of_opposite {α : Type} {s : Side} {x : Action α} {before after : List Value}
    {r : Except Fault α} (h : Yields s.opposite x before r after) :
    Yields s x before.reverse r after.reverse := by
  intro d hd
  have hopposite : d.seenFrom s.opposite = before := by
    rw [Deque.seenFrom_opposite, hd, List.reverse_reverse]
  obtain ⟨e, he, hx⟩ := h d hopposite
  refine ⟨e, ?_, hx⟩
  rw [← he, Deque.seenFrom_opposite, List.reverse_reverse]

/-- A move from the other end takes the last value, seen from this end, and makes it the first. -/
theorem Opcode.yields_move_opposite {s : Side} {v : Value} {vs : List Value}
    (hroom : vs.length < Deque.capacity) :
    Action.Yields s (Opcode.move.perform (some s.opposite)) (vs ++ [v]) (.ok .advance)
      (v :: vs) := by
  have hmove := @yields_move s.opposite v vs.reverse (by simpa using hroom)
  simpa using hmove.of_opposite

/-- The opcodes, each at its end, succeed one after the other on a deque that holds `before`, seen
from `s`, and leave `after`. -/
inductive Rearranges (s : Side) : List Value → List (Side × Opcode) → List Value → Prop
  | nil (l : List Value) : Rearranges s l [] l
  | cons {before middle after : List Value} {place : Side} {op : Opcode}
      {ops : List (Side × Opcode)}
      (first : (op.perform (some place)).Yields s before (.ok .advance) middle)
      (rest : Rearranges s middle ops after) : Rearranges s before ((place, op) :: ops) after

namespace Rearranges

variable {s : Side} {l before middle after : List Value} {ops ops' : List (Side × Opcode)}

theorem one {place : Side} {op : Opcode}
    (h : (op.perform (some place)).Yields s before (.ok .advance) after) :
    Rearranges s before [(place, op)] after :=
  .cons h (.nil after)

theorem append (h : Rearranges s before ops middle) (h' : Rearranges s middle ops' after) :
    Rearranges s before (ops ++ ops') after := by
  induction h with
  | nil _ => exact h'
  | cons first _ ih => exact .cons first (ih h')

/-! ## §2 Laws -/

variable {v w : Value} {vs : List Value}

theorem swap_swap (hroom : vs.length + 2 ≤ Deque.capacity) :
    Rearranges s (v :: w :: vs) [(s, .swap), (s, .swap)] (v :: w :: vs) :=
  .cons (Opcode.yields_swap hroom) (.one (Opcode.yields_swap hroom))

/-- As many moves as there are values in front bring them behind the others. -/
theorem moves (front back : List Value) (hroom : front.length + back.length ≤ Deque.capacity) :
    Rearranges s (front ++ back) (List.replicate front.length (s, .move)) (back ++ front) := by
  induction front generalizing back with
  | nil =>
    rw [List.append_nil]
    exact .nil back
  | cons v front ih =>
    have hlength : front.length + (back ++ [v]).length ≤ Deque.capacity := by
      simp only [List.length_cons, List.length_append, List.length_nil] at hroom ⊢
      omega
    have hfree : (front ++ back).length < Deque.capacity := by
      simp only [List.length_cons, List.length_append] at hroom ⊢
      omega
    have hrest := ih (back ++ [v]) hlength
    rw [← List.append_assoc, List.append_assoc back, List.singleton_append] at hrest
    exact .cons (Opcode.yields_move hfree) hrest

/-- Moves from this end and as many from the other one restore a deque that is not empty. -/
theorem moves_back (k : Nat) (hl : l ≠ []) (hroom : l.length ≤ Deque.capacity) :
    Rearranges s l (List.replicate k (s, .move) ++ List.replicate k (s.opposite, .move)) l := by
  induction k generalizing l with
  | zero => exact .nil l
  | succ k ih =>
    obtain ⟨v, vs, rfl⟩ := List.exists_cons_of_ne_nil hl
    have hfree : vs.length < Deque.capacity := hroom
    have hinner := ih (l := vs ++ [v]) (by simp) (by simpa using hroom)
    have hback := hinner.append (.one (Opcode.yields_move_opposite hfree))
    rw [List.replicate_succ, List.replicate_succ', List.cons_append, ← List.append_assoc]
    exact .cons (Opcode.yields_move hfree) hback

theorem dup_drop (hroom : vs.length + 1 < Deque.capacity) :
    Rearranges s (v :: vs) [(s, .dup), (s, .drop)] (v :: vs) :=
  .cons (Opcode.yields_dup hroom) (.one Opcode.yields_drop)

theorem over_drop (hroom : vs.length + 2 < Deque.capacity) :
    Rearranges s (v :: w :: vs) [(s, .over), (s, .drop)] (v :: w :: vs) :=
  .cons (Opcode.yields_over hroom) (.one Opcode.yields_drop)

/-- Every value is equal to itself. -/
theorem dup_eq (hroom : vs.length + 1 < Deque.capacity) :
    Rearranges s (v :: vs) [(s, .dup), (s, .binary .eq)] (.bool true :: vs) := by
  have happly : Operator.eq.apply v v = .ok (.bool true) := by
    simp [Operator.apply, Value.equal]
  exact .cons (Opcode.yields_dup hroom) (.one (Opcode.yields_binary happly (by omega)))

end Rearranges

/-! ## §3 Machines -/

namespace Machine

/-- The machine runs and is between two instructions. -/
structure Between (m : Machine) : Prop where
  stopped : m.stopped = false
  interrupted : m.interrupted = false
  announced : m.announced = false

/-- The opcodes, each marked for its end, are next in the program. -/
def Ahead (m : Machine) (ops : List (Side × Opcode)) : Prop :=
  ops.map (fun o => (some o.1, o.2.name)) <+: (m.program.tokens.toList.drop m.ip).map Token.split

/-- The cycles that so many instructions take: with tracing each of them is announced before. -/
def cyclesFor (m : Machine) (n : Nat) : Nat := (if m.tracing then 2 else 1) * n

/-- If the opcodes are ahead, the machine performs them without a fault. Its deque then holds
`after`, seen from `s`, and all else is as it was. -/
def Performs (m : Machine) (s : Side) (ops : List (Side × Opcode)) (after : List Value) : Prop :=
  m.Ahead ops → ∃ e : Deque Value, e.seenFrom s = after ∧
    m.afterCycles (m.cyclesFor ops.length) = { m with deque := e, ip := m.ip + ops.length }

theorem afterCycles_add (m : Machine) (n k : Nat) :
    m.afterCycles (n + k) = (m.afterCycles n).afterCycles k := by
  induction k with
  | zero => rfl
  | succ k ih => rw [← Nat.add_assoc, afterCycles, afterCycles, ih]

/-- The first of the opcodes ahead is the next instruction, and the others are ahead after it. -/
theorem Ahead.next {m : Machine} {s : Side} {op : Opcode} {ops : List (Side × Opcode)}
    (h : m.Ahead ((s, op) :: ops)) :
    m.program.instruction? m.ip = some (.apply (some s) op) ∧
      ∀ e : Deque Value, Ahead { m with deque := e, ip := m.ip + 1 } ops := by
  unfold Ahead at h
  cases hdrop : m.program.tokens.toList.drop m.ip with
  | nil =>
    rw [hdrop] at h
    simp at h
  | cons t rest =>
    rw [hdrop, List.map_cons, List.map_cons, List.cons_prefix_cons] at h
    have htoken : m.program.token? m.ip = some t := by
      rw [Program.token?, ← Array.getElem?_toList, ← List.head?_drop, hdrop]
      rfl
    refine ⟨?_, fun e => ?_⟩
    · rw [instruction?_of_token? htoken, Token.instruction_of_opcode _ h.1.symm]
    · rw [Ahead, ← List.tail_drop, hdrop]
      exact h.2

/-- The cycles of one instruction perform it. -/
theorem Between.advance {m : Machine} (h : m.Between) {i : Instruction} {e : Deque Value}
    (hi : m.program.instruction? m.ip = some i) (hperform : i.perform m.deque = .ok .advance e) :
    m.afterCycles (m.cyclesFor 1) = { m with deque := e, ip := m.ip + 1 } := by
  -- Whether or not it has been announced, the instruction does the same once it is performed.
  have hperformed : ∀ announced, (m.tracing && !announced) = false →
      (Machine.execute 1 { m with announced := announced }).2 =
        { m with deque := e, ip := m.ip + 1 } := by
    intro announced hann
    rw [execute_one (m := { m with announced := announced }) h.stopped h.interrupted,
      tick_of_some (m := { m with announced := announced }) hi hann, hperform, settle, h.announced]
  unfold cyclesFor
  split
  · next htracing =>
    have hannounce : (m.execute 1).2 = { m with announced := true } := by
      rw [execute_one h.stopped h.interrupted, tick, hi]
      simp [htracing, h.announced, announce]
    change ((m.execute 1).2.execute 1).2 = _
    rw [hannounce]
    exact hperformed true (by simp)
  · next htracing => exact hperformed m.announced (by simp [htracing])

/-- What the opcodes do to the deque the machine does. -/
theorem Between.performs {m : Machine} (h : m.Between) {s : Side} {ops : List (Side × Opcode)}
    {before after : List Value} (hops : Rearranges s before ops after)
    (hdeque : m.deque.seenFrom s = before) : m.Performs s ops after := by
  induction hops generalizing m with
  | nil l => exact fun _ => ⟨m.deque, hdeque, rfl⟩
  | @cons before middle after place op ops first rest ih =>
    intro hahead
    obtain ⟨hi, hnext⟩ := hahead.next
    obtain ⟨e, he, hperform⟩ := first m.deque hdeque
    have hone := h.advance hi hperform
    obtain ⟨e', he', hrest⟩ := ih (m := { m with deque := e, ip := m.ip + 1 })
      ⟨h.stopped, h.interrupted, h.announced⟩ he (hnext e)
    refine ⟨e', he', ?_⟩
    have hcycles : m.cyclesFor ((place, op) :: ops).length =
        m.cyclesFor 1 + cyclesFor { m with deque := e, ip := m.ip + 1 } ops.length := by
      rw [cyclesFor, cyclesFor, cyclesFor, List.length_cons, Nat.add_comm ops.length, Nat.mul_add]
    rw [hcycles, afterCycles_add, hone, hrest, List.length_cons, Nat.add_assoc, Nat.add_comm 1]

/-- **Shuffling laws**: on a deque that is not above the limit, at either end,

* `swap` exchanges the two outermost values and `move` takes the outermost one to the other end,
  also if the deque is full;
* two swaps, a move and one back, as many moves as there are values, and any number of moves and as
  many back restore the deque;
* `dup` and `drop`, and `over` and `drop`, restore it if one place is free;
* `dup` and `eq` replace the outermost value by true and change nothing else. -/
theorem shuffling_laws {m : Machine} (hm : m.Between) (s : Side)
    (hsize : m.deque.size ≤ 16777216) :
    (∀ v w vs, m.deque.seenFrom s = v :: w :: vs → m.Performs s [(s, .swap)] (w :: v :: vs)) ∧
    (∀ v vs, m.deque.seenFrom s = v :: vs → m.Performs s [(s, .move)] (vs ++ [v])) ∧
    (2 ≤ m.deque.size → m.Performs s [(s, .swap), (s, .swap)] (m.deque.seenFrom s)) ∧
    (1 ≤ m.deque.size → m.Performs s [(s, .move), (s.opposite, .move)] (m.deque.seenFrom s)) ∧
    m.Performs s (List.replicate m.deque.size (s, .move)) (m.deque.seenFrom s) ∧
    (1 ≤ m.deque.size → ∀ k, m.Performs s
      (List.replicate k (s, .move) ++ List.replicate k (s.opposite, .move))
      (m.deque.seenFrom s)) ∧
    (1 ≤ m.deque.size → m.deque.size < 16777216 →
      m.Performs s [(s, .dup), (s, .drop)] (m.deque.seenFrom s)) ∧
    (2 ≤ m.deque.size → m.deque.size < 16777216 →
      m.Performs s [(s, .over), (s, .drop)] (m.deque.seenFrom s)) ∧
    (1 ≤ m.deque.size → m.deque.size < 16777216 →
      m.Performs s [(s, .dup), (s, .binary .eq)]
        (.bool true :: (m.deque.seenFrom s).tail)) := by
  have hlength : (m.deque.seenFrom s).length = m.deque.size := Deque.length_seenFrom s m.deque
  rw [← hlength] at hsize ⊢
  have hperforms {ops : List (Side × Opcode)} {after : List Value}
      (hops : Rearranges s (m.deque.seenFrom s) ops after) := hm.performs hops rfl
  generalize m.deque.seenFrom s = l at *
  have hback (k : Nat) (hne : 1 ≤ l.length) :=
    hperforms (Rearranges.moves_back k (List.ne_nil_of_length_pos hne) hsize)
  refine ⟨?_, ?_, ?_, hback 1, ?_, fun hne k => hback k hne, ?_, ?_, ?_⟩
  · rintro v w vs rfl
    exact hperforms (.one (Opcode.yields_swap hsize))
  · rintro v vs rfl
    exact hperforms (.one (Opcode.yields_move hsize))
  · intro htwo
    match l, htwo with
    | v :: w :: vs, _ => exact hperforms (.swap_swap hsize)
  · have hmoves := Rearranges.moves (s := s) l [] hsize
    rw [List.append_nil, List.nil_append] at hmoves
    exact hperforms hmoves
  · intro hne hfree
    match l, hne with
    | v :: vs, _ => exact hperforms (.dup_drop hfree)
  · intro htwo hfree
    match l, htwo with
    | v :: w :: vs, _ => exact hperforms (.over_drop hfree)
  · intro hne hfree
    match l, hne with
    | v :: vs, _ => exact hperforms (.dup_eq hfree)

/-- Three values are moved round from the left, with tracing, and the rightmost one is compared to
itself. -/
theorem shuffling_laws_round :
    let values : Deque Value := .ofList [.int 1, .int 2, .bool false]
    let p : Program := { tokens := #[⟨"!move"⟩, ⟨"!move"⟩, ⟨"!move"⟩], labels := ∅ }
    let q : Program := { tokens := #[⟨"dup!"⟩, ⟨"eq!"⟩], labels := ∅ }
    let m : Machine := { start p true with deque := values }
    let m' : Machine := { start q false with deque := values }
    (∃ e : Deque Value, e.toList = [.int 1, .int 2, .bool false] ∧
      m.afterCycles 6 = { m with deque := e, ip := 3 }) ∧
    ∃ e : Deque Value, e.toList = [.int 1, .int 2, .bool true] ∧
      m'.afterCycles 2 = { m' with deque := e, ip := 2 } := by
  intro values p q m m'
  obtain ⟨-, -, -, -, hround, -⟩ := shuffling_laws (m := m) ⟨rfl, rfl, rfl⟩ .left (by decide)
  obtain ⟨-, -, -, -, -, -, -, -, hequal⟩ :=
    shuffling_laws (m := m') ⟨rfl, rfl, rfl⟩ .right (by decide)
  have hmoves : m.Ahead (List.replicate 3 (.left, .move)) := by
    unfold Ahead
    decide +kernel
  have hcompare : m'.Ahead [(.right, .dup), (.right, .binary .eq)] := by
    unfold Ahead
    decide +kernel
  obtain ⟨e, he, hafter⟩ := hround hmoves
  obtain ⟨e', he', hafter'⟩ := hequal (by decide) (by decide) hcompare
  exact ⟨⟨e, he, hafter⟩, e', List.reverse_injective he', hafter'⟩

end Machine

end TwoEnded
