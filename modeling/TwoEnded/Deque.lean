/-
TwoEnded.Deque — the double-ended queue, the machine's only memory.

## §1 The queue

A `Deque α` keeps its elements in two arrays, `front` for the left part and
`back` for the right part, each with its outermost element last, so that
both ends grow and shrink in place. When the part asked for is empty, the
other part is cut in half, so that a run of operations on either end costs
constant time per operation on average.

The view is `Deque.toList`, the elements from left to right. Everything
else is said through it:

* `toList_insert` — an insertion adds one element at its end;
* `take?_eq_some` and `take?_eq_none_iff` — a removal splits off the element
  at its end, and fails on the empty deque only.

## §2 Guarded operations

`Deque.push`, `Deque.pop` and `Deque.popTwo` are what instructions use. They
take the end as an option, refuse to work without one, and keep the deque at
`Deque.capacity` elements at most. Each is a state transformer that also says
what is left of the deque after a failure: `popTwo` on one element has lost
that element.
-/
import TwoEnded.Fault
import TwoEnded.Side

namespace TwoEnded

/-! ## §1 The queue -/

/-- A double-ended queue. Both parts have their outermost element last. -/
structure Deque (α : Type) where
  front : Array α
  back : Array α

namespace Deque

variable {α : Type}

/-- No elements. -/
def empty : Deque α := ⟨#[], #[]⟩

instance : Inhabited (Deque α) := ⟨empty⟩

/-- The elements from left to right. -/
def toList (d : Deque α) : List α :=
  d.front.toList.reverse ++ d.back.toList

/-- The deque with these elements from left to right. -/
def ofList (xs : List α) : Deque α := ⟨#[], xs.toArray⟩

/-- The number of elements. -/
def size (d : Deque α) : Nat := d.front.size + d.back.size

/-- Whether there are no elements. -/
def isEmpty (d : Deque α) : Bool := d.size == 0

/-- The deque seen from the other side. -/
def reverse (d : Deque α) : Deque α := ⟨d.back, d.front⟩

/-- The deque with one more element at the given end. -/
@[inline] def insert (s : Side) (x : α) (d : Deque α) : Deque α :=
  match s, d with
  | .left, ⟨front, back⟩ => ⟨front.push x, back⟩
  | .right, ⟨front, back⟩ => ⟨front, back.push x⟩

/-- Removes the outermost element of `near`. If `near` is empty, the inner half
of `far`, whose elements lie in the opposite order, takes its place first. -/
@[inline] def takeNear? (near far : Array α) : Option (α × Array α × Array α) :=
  match near.back? with
  | some x => some (x, near.pop, far)
  | none =>
    let half := (far.size + 1) / 2
    let near := (far.extract 0 half).reverse
    match near.back? with
    | some x => some (x, near.pop, far.extract half far.size)
    | none => none

/-- Removes the element at the given end; `none` if there is none. -/
@[inline] def take? (s : Side) (d : Deque α) : Option (α × Deque α) :=
  match s, d with
  | .left, ⟨front, back⟩ =>
    match takeNear? front back with
    | some (x, front, back) => some (x, ⟨front, back⟩)
    | none => none
  | .right, ⟨front, back⟩ =>
    match takeNear? back front with
    | some (x, back, front) => some (x, ⟨front, back⟩)
    | none => none

/-! ### The view of each operation -/

@[simp] theorem toList_empty : (empty : Deque α).toList = [] := rfl

@[simp] theorem toList_ofList (xs : List α) : (ofList xs).toList = xs := by
  simp [ofList, toList]

@[simp] theorem length_toList (d : Deque α) : d.toList.length = d.size := by
  simp [toList, size]

@[simp] theorem toList_reverse (d : Deque α) : d.reverse.toList = d.toList.reverse := by
  simp [reverse, toList]

@[simp] theorem toList_insert_left (x : α) (d : Deque α) :
    (d.insert .left x).toList = x :: d.toList := by
  simp [insert, toList]

@[simp] theorem toList_insert_right (x : α) (d : Deque α) :
    (d.insert .right x).toList = d.toList ++ [x] := by
  simp [insert, toList]

/-- An insertion makes the deque longer by one, at either end. -/
@[simp] theorem size_insert (s : Side) (x : α) (d : Deque α) :
    (d.insert s x).size = d.size + 1 := by
  cases s <;> simp [insert, size] <;> omega

/-- A deque is empty exactly when its view is. -/
theorem toList_eq_nil_iff (d : Deque α) : d.toList = [] ↔ d = empty := by
  cases d with
  | mk front back => simp [toList, empty]

/-- The last element of an array and the array without it make up the array. -/
theorem toList_of_back?_eq_some {xs : Array α} {x : α} (h : xs.back? = some x) :
    xs.toList = xs.pop.toList ++ [x] := by
  have h' : xs.toList.getLast? = some x := by simpa using h
  obtain ⟨ys, hys⟩ := List.getLast?_eq_some_iff.mp h'
  rw [Array.toList_pop, hys, List.dropLast_concat]

/-- What `takeNear?` removes is the first element of the two parts seen from
`near`, and the parts that it leaves hold the others. -/
theorem takeNear?_eq_some {near far near' far' : Array α} {x : α}
    (h : takeNear? near far = some (x, near', far')) :
    near.toList.reverse ++ far.toList = x :: (near'.toList.reverse ++ far'.toList) := by
  unfold takeNear? at h
  split at h
  · next y hy =>
    cases h
    rw [toList_of_back?_eq_some hy, List.reverse_append]
    rfl
  · next hnone =>
    have hnear : near = #[] := by simpa using hnone
    dsimp only at h
    split at h
    · next y hy =>
      cases h
      have hrev := toList_of_back?_eq_some hy
      have hsplit : far.toList = (far.extract 0 ((far.size + 1) / 2)).toList
          ++ (far.extract ((far.size + 1) / 2) far.size).toList := by
        rw [← Array.toList_append, Array.extract_append_extract]
        have hmin : min 0 ((far.size + 1) / 2) = 0 := by omega
        have hmax : max ((far.size + 1) / 2) far.size = far.size := by omega
        rw [hmin, hmax, Array.extract_size]
      rw [hnear, hsplit]
      have hhalf : (far.extract 0 ((far.size + 1) / 2)).toList
          = x :: ((far.extract 0 ((far.size + 1) / 2)).reverse.pop.toList.reverse) := by
        have := congrArg List.reverse hrev
        simpa using this
      rw [hhalf]
      simp
    · cases h

/-- `takeNear?` fails only if both parts are empty. -/
theorem takeNear?_eq_none_iff {near far : Array α} :
    takeNear? near far = none ↔ near = #[] ∧ far = #[] := by
  unfold takeNear?
  split
  · next y hy =>
    constructor
    · intro h; cases h
    · rintro ⟨rfl, _⟩; simp at hy
  · next hnone =>
    have hnear : near = #[] := by simpa using hnone
    dsimp only
    split
    · next y hy =>
      constructor
      · intro h; cases h
      · rintro ⟨_, rfl⟩; simp at hy
    · next hhalf =>
      refine ⟨fun _ => ⟨hnear, ?_⟩, fun _ => rfl⟩
      have hempty : (far.extract 0 ((far.size + 1) / 2)).size = 0 := by
        have := congrArg Array.size (Array.back?_eq_none_iff.mp hhalf)
        simpa using this
      have hsize : far.size = 0 := by
        rw [Array.size_extract] at hempty
        omega
      exact Array.eq_empty_of_size_eq_zero hsize

theorem take?_left_eq_some {d d' : Deque α} {x : α} (h : d.take? .left = some (x, d')) :
    d.toList = x :: d'.toList := by
  cases d with
  | mk front back =>
    simp only [take?] at h
    split at h
    · next y f b hy =>
      cases h
      exact takeNear?_eq_some hy
    · cases h

theorem take?_right_eq_some {d d' : Deque α} {x : α} (h : d.take? .right = some (x, d')) :
    d.toList = d'.toList ++ [x] := by
  cases d with
  | mk front back =>
    simp only [take?] at h
    split at h
    · next y b f hy =>
      cases h
      have := congrArg List.reverse (takeNear?_eq_some hy)
      simpa [toList] using this
    · cases h

/-- A removal fails on the empty deque only. -/
theorem take?_eq_none_iff {s : Side} {d : Deque α} : d.take? s = none ↔ d = empty := by
  cases d with
  | mk front back =>
    cases s with
    | left =>
      simp only [take?]
      split
      · next y f b hy =>
        constructor
        · intro h; cases h
        · intro h
          cases h
          rw [takeNear?_eq_none_iff.mpr ⟨rfl, rfl⟩] at hy
          cases hy
      · next hn =>
        obtain ⟨rfl, rfl⟩ := takeNear?_eq_none_iff.mp hn
        exact ⟨fun _ => rfl, fun _ => rfl⟩
    | right =>
      simp only [take?]
      split
      · next y b f hy =>
        constructor
        · intro h; cases h
        · intro h
          cases h
          rw [takeNear?_eq_none_iff.mpr ⟨rfl, rfl⟩] at hy
          cases hy
      · next hn =>
        obtain ⟨rfl, rfl⟩ := takeNear?_eq_none_iff.mp hn
        exact ⟨fun _ => rfl, fun _ => rfl⟩

/-! ## §2 Guarded operations -/

/-- The most elements a deque may hold: 2 to the 24th. -/
def capacity : Nat := 16777216

/-- The fault of an insertion into a deque that has reached its capacity. -/
def fullFault : Fault := (Fault.ofKind .outOfMemory).withDetail "DEQUE FULL"

/-- Adds an element at the given end. -/
def push (side : Option Side) (x : α) : EStateM Fault (Deque α) Unit := fun d =>
  match side with
  | none => .error (Fault.ofKind .directionRequired) d
  | some s => if capacity ≤ d.size then .error fullFault d else .ok () (d.insert s x)

/-- Removes the element at the given end. -/
def pop (side : Option Side) : EStateM Fault (Deque α) α := fun d =>
  match side with
  | none => .error (Fault.ofKind .directionRequired) d
  | some s =>
    match d.take? s with
    | some (x, d) => .ok x d
    | none => .error (Fault.ofKind .stackUnderflow) empty

/-- Removes two elements at the given end, the outer one first. If there is only
one, it is gone. -/
def popTwo (side : Option Side) : EStateM Fault (Deque α) (α × α) := do
  let first ← pop side
  let second ← pop side
  return (first, second)

end Deque

end TwoEnded
