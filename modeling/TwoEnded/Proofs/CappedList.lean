/-
TwoEnded.Proofs.CappedList — a deque is a list that may not grow too long.

## §1 Lists

`CappedList.push`, `CappedList.pop` and `CappedList.popTwo` are the operations of a deque on a
plain list, which knows nothing of two parts that grow and shrink in place. `Deque.Refines x y`
says that the list operation `y` does to the view of a deque what `x` does to the deque, and
answers the same, also if both fail.

## §2 Histories

`Deque.Operation` is any of the three operations, and a `Turn` is an operation as it was
performed, with the contents before and after it. A sequence of operations has the same history
on a deque and on the list of its elements (`Deque.history_eq`).

## §3 Conservation

An operation moves values and does nothing else to them: what was there and what is pushed is
what is given back, what is lost and what is there afterwards (`CappedList.Turned.perm`).
Nothing is lost but by a double pop that finds one value only. Added up along a history, this
says where everything is that was ever pushed.
-/
import TwoEnded.Deque

namespace TwoEnded

/-! ## §1 Lists -/

namespace CappedList

variable {α : Type}

/-- The list with one more element at the given end. -/
def insert (s : Side) (x : α) (xs : List α) : List α :=
  match s with
  | .left => x :: xs
  | .right => xs ++ [x]

/-- The element at the given end and the list without it. -/
def take? (s : Side) (xs : List α) : Option (α × List α) :=
  match s with
  | .left => xs.head?.map fun x => (x, xs.tail)
  | .right => xs.getLast?.map fun x => (x, xs.dropLast)

/-- Adds an element at the given end of a list that has room for it. -/
def push (side : Option Side) (x : α) : EStateM Fault (List α) Unit := fun xs =>
  match side with
  | none => .error (Fault.ofKind .directionRequired) xs
  | some s =>
    if xs.length < Deque.capacity then .ok () (insert s x xs)
    else .error ((Fault.ofKind .outOfMemory).withDetail "DEQUE FULL") xs

/-- Removes the element at the given end. -/
def pop (side : Option Side) : EStateM Fault (List α) α := fun xs =>
  match side with
  | none => .error (Fault.ofKind .directionRequired) xs
  | some s =>
    match take? s xs with
    | some (x, rest) => .ok x rest
    | none => .error (Fault.ofKind .stackUnderflow) xs

/-- Two removals, the first one first. -/
def popTwo (side : Option Side) : EStateM Fault (List α) (α × α) := do
  let first ← pop side
  let second ← pop side
  return (first, second)

theorem take?_eq_none_iff {s : Side} {xs : List α} : take? s xs = none ↔ xs = [] := by
  cases s <;> simp [take?]

/-- A removal at either end takes one element away. -/
theorem perm_of_take? {s : Side} {xs rest : List α} {x : α} (h : take? s xs = some (x, rest)) :
    xs.Perm (x :: rest) := by
  cases s with
  | left =>
    cases xs with
    | nil => cases h
    | cons y ys => cases h; exact .refl _
  | right =>
    simp only [take?, Option.map_eq_some_iff, Prod.mk.injEq] at h
    obtain ⟨y, hy, rfl, rfl⟩ := h
    obtain ⟨ys, rfl⟩ := List.getLast?_eq_some_iff.mp hy
    rw [List.dropLast_concat]
    exact List.perm_append_singleton y ys

theorem perm_insert (s : Side) (x : α) (xs : List α) : (insert s x xs).Perm (x :: xs) := by
  cases s with
  | left => exact .refl _
  | right => exact List.perm_append_singleton x xs

end CappedList

namespace Deque

variable {α β γ : Type}

/-- The result with the view of the deque in place of the deque. -/
def viewResult : EStateM.Result Fault (Deque α) β → EStateM.Result Fault (List α) β
  | .ok b d => .ok b d.toList
  | .error f d => .error f d.toList

/-- The first operation does to a deque what the second one does to its view. -/
def Refines (x : EStateM Fault (Deque α) β) (y : EStateM Fault (List α) β) : Prop :=
  ∀ d, viewResult (x d) = y d.toList

theorem Refines.pure (b : β) :
    Refines (Pure.pure b : EStateM Fault (Deque α) β) (Pure.pure b) :=
  fun _ => rfl

theorem Refines.bind {x : EStateM Fault (Deque α) β} {y : EStateM Fault (List α) β}
    {f : β → EStateM Fault (Deque α) γ} {g : β → EStateM Fault (List α) γ}
    (hxy : Refines x y) (hfg : ∀ b, Refines (f b) (g b)) : Refines (x >>= f) (y >>= g) := by
  intro d
  have hfirst := hxy d
  simp only [Bind.bind, EStateM.bind]
  cases hx : x d with
  | ok b e =>
    rw [hx] at hfirst
    rw [← hfirst]
    exact hfg b e
  | error f e =>
    rw [hx] at hfirst
    rw [← hfirst]
    rfl

theorem toList_insert (s : Side) (x : α) (d : Deque α) :
    (d.insert s x).toList = CappedList.insert s x d.toList := by
  cases s with
  | left => exact toList_insert_left x d
  | right => exact toList_insert_right x d

theorem take?_toList (s : Side) (d : Deque α) :
    CappedList.take? s d.toList = (d.take? s).map fun p => (p.1, p.2.toList) := by
  cases htake : d.take? s with
  | none =>
    rw [take?_eq_none_iff] at htake
    rw [htake]
    exact CappedList.take?_eq_none_iff.mpr rfl
  | some p =>
    cases s with
    | left => simp [CappedList.take?, take?_left_eq_some htake]
    | right => simp [CappedList.take?, take?_right_eq_some htake]

theorem refines_push (side : Option Side) (x : α) :
    Refines (push side x) (CappedList.push side x) := by
  intro d
  cases side with
  | none => rfl
  | some s =>
    simp only [push, CappedList.push, length_toList]
    by_cases hroom : d.size < capacity
    · rw [if_neg (by omega), if_pos hroom, viewResult, toList_insert]
    · rw [if_pos (by omega), if_neg hroom]
      rfl

theorem refines_pop (side : Option Side) :
    Refines (pop side : EStateM Fault (Deque α) α) (CappedList.pop side) := by
  intro d
  cases side with
  | none => rfl
  | some s =>
    simp only [pop, CappedList.pop, take?_toList]
    cases htake : d.take? s with
    | none =>
      -- The deque that a failed removal leaves is a fresh one; it had to be empty before.
      rw [take?_eq_none_iff] at htake
      rw [htake]
      rfl
    | some p => rfl

theorem refines_popTwo (side : Option Side) :
    Refines (popTwo side : EStateM Fault (Deque α) (α × α)) (CappedList.popTwo side) :=
  .bind (refines_pop side) fun _ => .bind (refines_pop side) fun _ => .pure _

/-! ## §2 Histories -/

/-- An operation on a deque, at the end that it names if it names one. -/
inductive Operation (α : Type) where
  | push (side : Option Side) (x : α)
  | pop (side : Option Side)
  | popTwo (side : Option Side)
  deriving DecidableEq, Repr

namespace Operation

/-- The operation on a deque, with the values that it gives back in their order. -/
def onDeque : Operation α → EStateM Fault (Deque α) (List α)
  | .push side x => do
    Deque.push side x
    return []
  | .pop side => do
    let first ← Deque.pop side
    return [first]
  | .popTwo side => do
    let (first, second) ← Deque.popTwo side
    return [first, second]

/-- The operation on a list. -/
def onList : Operation α → EStateM Fault (List α) (List α)
  | .push side x => do
    CappedList.push side x
    return []
  | .pop side => do
    let first ← CappedList.pop side
    return [first]
  | .popTwo side => do
    let (first, second) ← CappedList.popTwo side
    return [first, second]

theorem refines (op : Operation α) : Refines op.onDeque op.onList := by
  cases op with
  | push side x => exact .bind (refines_push side x) fun _ => .pure _
  | pop side => exact .bind (refines_pop side) fun _ => .pure _
  | popTwo side => exact .bind (refines_popTwo side) fun _ => .pure _

end Operation

end Deque

/-- An operation as it was performed: the contents before it, the values that it gave back or
the fault, and the contents after it. -/
structure Turn (α : Type) where
  operation : Deque.Operation α
  before : List α
  answer : Except Fault (List α)
  after : List α

namespace Turn

variable {α : Type}

/-- The turn in which the operation on these contents had this result. -/
def ofResult (op : Deque.Operation α) (before : List α) :
    EStateM.Result Fault (List α) (List α) → Turn α
  | .ok values after => ⟨op, before, .ok values, after⟩
  | .error f after => ⟨op, before, .error f, after⟩

/-- The values that the turn added. -/
def pushed (t : Turn α) : List α :=
  match t.operation, t.answer with
  | .push _ x, .ok _ => [x]
  | _, _ => []

/-- The values that the turn gave back. -/
def returned (t : Turn α) : List α :=
  match t.answer with
  | .ok values => values
  | .error _ => []

/-- The value that the turn lost: a double pop with a side has failed on it. -/
def lost (t : Turn α) : List α :=
  match t.operation, t.answer, t.before with
  | .popTwo (some _), .error _, [x] => [x]
  | _, _, _ => []

end Turn

namespace CappedList

variable {α : Type}

/-- The turn of an operation on a list. -/
def turn (op : Deque.Operation α) (xs : List α) : Turn α := .ofResult op xs (op.onList xs)

/-- The turns of the operations on a list, each on what the one before has left. -/
def history (xs : List α) : List (Deque.Operation α) → List (Turn α)
  | [] => []
  | op :: ops => turn op xs :: history (turn op xs).after ops

end CappedList

namespace Deque

variable {α : Type}

/-- The turns of the operations on a deque, each on what the one before has left. -/
def history (d : Deque α) : List (Operation α) → List (Turn α)
  | [] => []
  | op :: ops =>
    match op.onDeque d with
    | .ok values e => ⟨op, d.toList, .ok values, e.toList⟩ :: e.history ops
    | .error f e => ⟨op, d.toList, .error f, e.toList⟩ :: e.history ops

/-- A deque and the list of its elements have the same history. -/
theorem history_eq (d : Deque α) (ops : List (Operation α)) :
    d.history ops = CappedList.history d.toList ops := by
  induction ops generalizing d with
  | nil => rfl
  | cons op ops ih =>
    have hturn : CappedList.turn op d.toList =
        .ofResult op d.toList (viewResult (op.onDeque d)) := by
      rw [CappedList.turn, op.refines d]
    rw [history, CappedList.history, hturn]
    cases op.onDeque d with
    | ok values e => exact congrArg _ (ih e)
    | error f e => exact congrArg _ (ih e)

end Deque

/-! ## §3 Conservation -/

namespace CappedList

variable {α : Type}

/-- What an operation on a list can be: it fails and leaves the list as it is, it is a push or a
removal that succeeds, or it is a double pop that fails on one element and loses it. -/
inductive Turned (xs : List α) : Turn α → Prop
  | failed (op : Deque.Operation α) (f : Fault)
      (hkept : ∀ s x, op = .popTwo (some s) → xs ≠ [x]) :
      Turned xs ⟨op, xs, .error f, xs⟩
  | pushed (s : Side) (x : α) (hroom : xs.length < Deque.capacity) :
      Turned xs ⟨.push (some s) x, xs, .ok [], insert s x xs⟩
  | popped {s : Side} {x : α} {rest : List α} (h : take? s xs = some (x, rest)) :
      Turned xs ⟨.pop (some s), xs, .ok [x], rest⟩
  | poppedTwo {s : Side} {x y : α} {middle rest : List α} (hx : take? s xs = some (x, middle))
      (hy : take? s middle = some (y, rest)) :
      Turned xs ⟨.popTwo (some s), xs, .ok [x, y], rest⟩
  | lost {s : Side} {x : α} (h : xs = [x]) :
      Turned xs ⟨.popTwo (some s), xs, .error (Fault.ofKind .stackUnderflow), []⟩

theorem turned (op : Deque.Operation α) (xs : List α) : Turned xs (turn op xs) := by
  cases op with
  | push side x =>
    cases side with
    | none => exact .failed _ _ (by simp)
    | some s =>
      by_cases hroom : xs.length < Deque.capacity
      · have hpush : push (some s) x xs = .ok () (insert s x xs) := if_pos hroom
        simp only [turn, Deque.Operation.onList, Bind.bind, EStateM.bind, hpush]
        exact .pushed s x hroom
      · have hpush : push (some s) x xs =
            .error ((Fault.ofKind .outOfMemory).withDetail "DEQUE FULL") xs := if_neg hroom
        simp only [turn, Deque.Operation.onList, Bind.bind, EStateM.bind, hpush]
        exact .failed _ _ (by simp)
  | pop side =>
    cases side with
    | none => exact .failed _ _ (by simp)
    | some s =>
      simp only [turn, Deque.Operation.onList, Bind.bind, EStateM.bind, pop]
      cases htake : take? s xs with
      | none => exact .failed _ _ (by simp)
      | some p => exact .popped htake
  | popTwo side =>
    cases side with
    | none => exact .failed _ _ (by simp)
    | some s =>
      simp only [turn, Deque.Operation.onList, popTwo, Bind.bind, EStateM.bind, pop]
      cases htake : take? s xs with
      | none =>
        have hnil := take?_eq_none_iff.mp htake
        exact .failed _ _ (by simp [hnil])
      | some p =>
        cases htake' : take? s p.2 with
        | none =>
          have hnil := take?_eq_none_iff.mp htake'
          have hone : xs = [p.1] := by
            have hperm := perm_of_take? htake
            rwa [hnil, List.perm_singleton] at hperm
          simp only [htake']
          rw [hnil]
          exact .lost hone
        | some q =>
          simp only [htake']
          exact .poppedTwo htake htake'

/-- What was there and what the turn pushed is what it gave back, what it lost and what is there
after it. -/
theorem Turned.perm {xs : List α} {t : Turn α} (h : Turned xs t) :
    (t.pushed ++ xs).Perm (t.returned ++ t.lost ++ t.after) := by
  cases h with
  | failed op f hkept =>
    have hlost : Turn.lost ⟨op, xs, .error f, xs⟩ = [] := by
      unfold Turn.lost
      split
      · next s _ x hop _ hxs => exact absurd hxs (hkept s x hop)
      · rfl
    rw [hlost]
    simp [Turn.pushed, Turn.returned]
  | pushed s x hroom => exact (perm_insert s x xs).symm
  | popped h => exact perm_of_take? h
  | poppedTwo hx hy => exact (perm_of_take? hx).trans ((perm_of_take? hy).cons _)
  | lost h =>
    subst h
    exact .refl _

/-- No turn leaves more than the capacity. -/
theorem Turned.length_le {xs : List α} {t : Turn α} (h : Turned xs t)
    (hxs : xs.length ≤ Deque.capacity) : t.after.length ≤ Deque.capacity := by
  cases h with
  | failed op f hkept => exact hxs
  | pushed s x hroom =>
    show (insert s x xs).length ≤ Deque.capacity
    rw [(perm_insert s x xs).length_eq, List.length_cons]
    exact hroom
  | @popped s x rest h =>
    show rest.length ≤ Deque.capacity
    have hlength := (perm_of_take? h).length_eq
    rw [List.length_cons] at hlength
    omega
  | @poppedTwo s x y middle rest hx hy =>
    show rest.length ≤ Deque.capacity
    have hlength := (perm_of_take? hx).length_eq
    have hlength' := (perm_of_take? hy).length_eq
    rw [List.length_cons] at hlength hlength'
    omega
  | lost h => exact Nat.zero_le _

/-- A turn that fails leaves the contents as they were, except a double pop on one value. -/
theorem Turned.of_failed {xs : List α} {t : Turn α} (h : Turned xs t) {f : Fault}
    (hf : t.answer = .error f) :
    t.after = t.before ∨
      ∃ s x, t.operation = .popTwo (some s) ∧ t.before = [x] ∧ t.after = [] := by
  cases h with
  | failed op f hkept => exact .inl rfl
  | lost h => exact .inr ⟨_, _, rfl, h, rfl⟩
  | _ => cases hf

/-- Every turn of a history is the turn of its operation on the contents before it. -/
theorem turned_of_mem {xs : List α} {ops : List (Deque.Operation α)} {t : Turn α}
    (h : t ∈ history xs ops) : Turned t.before t := by
  induction ops generalizing xs with
  | nil => cases h
  | cons op ops ih =>
    rcases List.mem_cons.mp h with rfl | hrest
    · have hbefore : (turn op xs).before = xs := by
        unfold turn Turn.ofResult
        split <;> rfl
      rw [hbefore]
      exact turned op xs
    · exact ih hrest

/-- What holds along a history up to any turn of it: nothing has been lost on the way, doubled
or made up, and the contents are within the capacity. -/
theorem history_conserves {xs : List α} {ops : List (Deque.Operation α)}
    {earlier later : List (Turn α)} {t : Turn α} (h : history xs ops = earlier ++ t :: later)
    (hxs : xs.length ≤ Deque.capacity) :
    ((earlier ++ [t]).flatMap Turn.pushed ++ xs).Perm
        ((earlier ++ [t]).flatMap Turn.returned ++ (earlier ++ [t]).flatMap Turn.lost ++ t.after) ∧
      t.after.length ≤ Deque.capacity := by
  induction earlier generalizing xs ops with
  | nil =>
    cases ops with
    | nil => cases h
    | cons op ops =>
      cases h
      exact ⟨by simpa using (turned op xs).perm, (turned op xs).length_le hxs⟩
  | cons first earlier ih =>
    cases ops with
    | nil => cases h
    | cons op ops =>
      obtain ⟨rfl, hrest⟩ := List.cons.inj h
      obtain ⟨hperm, hlength⟩ := ih hrest ((turned op xs).length_le hxs)
      refine ⟨?_, hlength⟩
      -- Value by value, the first turn and those after it add up.
      classical
      rw [List.perm_iff_count] at hperm ⊢
      intro x
      have hfirst := (turned op xs).perm.count_eq x
      have hothers := hperm x
      simp only [List.cons_append, List.flatMap_cons, List.count_append] at hfirst hothers ⊢
      omega

end CappedList

namespace Deque

variable {α : Type}

/-- **A deque is a capped list**: on a fresh deque every sequence of operations has the history
that it has on a list. An operation that fails leaves the contents as they were, but a double pop
at an end loses the only value if there is one only. So at every moment what has been pushed is,
up to its order, what has been given back, what has been lost and the contents, and these are at
most 2 to the 24th values. -/
theorem refines_capped_list (ops : List (Operation α)) :
    (empty : Deque α).history ops = CappedList.history [] ops ∧
    (∀ t ∈ (empty : Deque α).history ops, ∀ f, t.answer = .error f →
      t.after = t.before ∨
        ∃ s x, t.operation = .popTwo (some s) ∧ t.before = [x] ∧ t.after = []) ∧
    ∀ (earlier later : List (Turn α)) (t : Turn α),
      (empty : Deque α).history ops = earlier ++ t :: later →
      ((earlier ++ [t]).flatMap Turn.pushed).Perm
          ((earlier ++ [t]).flatMap Turn.returned ++ (earlier ++ [t]).flatMap Turn.lost ++
            t.after) ∧
        t.after.length ≤ 16777216 := by
  have hsame : (empty : Deque α).history ops = CappedList.history [] ops := history_eq empty ops
  refine ⟨hsame, ?_, ?_⟩
  · intro t ht f hf
    rw [hsame] at ht
    exact (CappedList.turned_of_mem ht).of_failed hf
  · intro earlier later t h
    rw [hsame] at h
    obtain ⟨hperm, hlength⟩ := CappedList.history_conserves h (Nat.zero_le _)
    rw [List.append_nil] at hperm
    exact ⟨hperm, hlength⟩

/-- A value is lost by a double pop after one has been pushed at each end and one taken away. -/
theorem refines_capped_list_half_done :
    let ops : List (Operation Nat) :=
      [.push (some .left) 1, .push (some .right) 2, .push none 3, .pop (some .left),
        .popTwo (some .right), .pop (some .left)]
    ∃ (earlier later : List (Turn Nat)) (t : Turn Nat),
      (empty : Deque Nat).history ops = earlier ++ t :: later ∧
      t.answer = .error (Fault.ofKind .stackUnderflow) ∧ t.before = [2] ∧ t.after = [] ∧
      ([1, 2] : List Nat).Perm ([1] ++ [2] ++ []) ∧
      (empty : Deque Nat).history ops = CappedList.history [] ops := by
  intro ops
  let earlier : List (Turn Nat) :=
    [⟨.push (some .left) 1, [], .ok [], [1]⟩, ⟨.push (some .right) 2, [1], .ok [], [1, 2]⟩,
      ⟨.push none 3, [1, 2], .error (Fault.ofKind .directionRequired), [1, 2]⟩,
      ⟨.pop (some .left), [1, 2], .ok [1], [2]⟩]
  let t : Turn Nat :=
    ⟨.popTwo (some .right), [2], .error (Fault.ofKind .stackUnderflow), []⟩
  let later : List (Turn Nat) :=
    [⟨.pop (some .left), [], .error (Fault.ofKind .stackUnderflow), []⟩]
  have hhistory : (empty : Deque Nat).history ops = earlier ++ t :: later := rfl
  obtain ⟨hsame, -, hmoments⟩ := refines_capped_list ops
  exact ⟨earlier, later, t, hhistory, rfl, rfl, rfl, (hmoments earlier later t hhistory).1, hsame⟩

end Deque

end TwoEnded
