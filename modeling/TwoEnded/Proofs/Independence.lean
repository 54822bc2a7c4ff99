/-
TwoEnded.Proofs.Independence — work at the left end and work at the right end can change places.

## §1 Zones

An instruction that works at one end takes so many values there and puts others in their place
(`Instruction.Replaces`), or it refuses the values (`Instruction.Refuses`). Which of the two it is,
what it puts and what it tells depends on the values that it takes, its zone, and on nothing that
lies beyond; only room for what it puts is asked of the rest. `Token.WorksAt.outcome` says so of
every operand and of every opcode that neither jumps nor looks at both ends.

## §2 Two instructions

If the zones of two instructions at opposite ends do not overlap, each of them finds its zone as it
was, whether it comes first or second. So either both orders succeed, and leave what the two have
put at the ends with the middle between them, or one of the two refuses its zone in either order.
-/
import TwoEnded.Proofs.Failures

namespace TwoEnded

/-! ## §1 Zones -/

theorem Deque.seenFrom_opposite {α : Type} (s : Side) (d : Deque α) :
    d.seenFrom s.opposite = (d.seenFrom s).reverse := by
  cases s <;> simp [seenFrom, Side.opposite]

/-- The opcode works at the end that it is marked with, and it does not jump. -/
def Opcode.isLocal : Opcode → Bool
  | .binary _ => true
  | .dup => true
  | .swap => true
  | .over => true
  | .drop => true
  | .print => true
  | _ => false

/-- The token works at this end and takes so many values there: it is an operand that stands for a
value, or an opcode that works at one end. -/
inductive Token.WorksAt (labels : Labels) (s : Side) (t : Token) : Nat → Prop
  | operand {word : String} {v : Value} (h : t.split = (some s, word))
      (hword : Opcode.ofWord? word = none) (hvalue : (labels.operand word).value = .ok v) :
      WorksAt labels s t 0
  | opcode {op : Opcode} (h : t.split = (some s, op.name)) (hlocal : op.isLocal = true) :
      WorksAt labels s t op.takes

namespace Instruction

variable {i : Instruction} {s : Side} {taken : List Value}

/-- At this end the instruction puts the values `put` in the place of `taken` and tells `event`,
whatever lies beyond. -/
def Replaces (i : Instruction) (s : Side) (taken : List Value) (event : Event)
    (put : List Value) : Prop :=
  ∀ (m : Machine) (rest : List Value), m.deque.seenFrom s = taken ++ rest →
    put.length + rest.length ≤ Deque.capacity →
    ∃ e : Deque Value, e.seenFrom s = put ++ rest ∧
      m.perform i = (event, { m with deque := e, ip := m.ip + 1, announced := false })

/-- The instruction fails on the values `taken` at this end, whatever lies beyond. -/
def Refuses (i : Instruction) (s : Side) (taken : List Value) : Prop :=
  ∀ (m : Machine) (rest : List Value), m.deque.seenFrom s = taken ++ rest →
    ∃ f, (m.perform i).1 = .failed f

/-- What becomes of the values that an instruction takes at an end. It puts back at most one more
than it takes. -/
inductive Outcome (i : Instruction) (s : Side) (taken : List Value) : Prop
  | replaces {event : Event} {put : List Value} (h : i.Replaces s taken event put)
      (hgoes : event.isFinal = false) (hput : put.length ≤ taken.length + 1)
  | refuses (h : i.Refuses s taken)

theorem Outcome.of_advance (put : List Value) (hput : put.length ≤ taken.length + 1)
    (h : ∀ rest : List Value, put.length + rest.length ≤ Deque.capacity →
      i.perform.Yields s (taken ++ rest) (.ok .advance) (put ++ rest)) : Outcome i s taken := by
  have hreplaces : i.Replaces s taken .running put := by
    intro m rest hm hroom
    obtain ⟨e, he, hperform⟩ := h rest hroom m.deque hm
    refine ⟨e, he, ?_⟩
    rw [Machine.perform_eq_settle, hperform]
    rfl
  exact .replaces hreplaces rfl hput

theorem Outcome.of_say (put : List Value) {line : String} (hput : put.length ≤ taken.length + 1)
    (h : ∀ rest : List Value, i.perform.Yields s (taken ++ rest) (.ok (.say line)) (put ++ rest)) :
    Outcome i s taken := by
  have hreplaces : i.Replaces s taken (.line line) put := by
    intro m rest hm _
    obtain ⟨e, he, hperform⟩ := h rest m.deque hm
    refine ⟨e, he, ?_⟩
    rw [Machine.perform_eq_settle, hperform]
    rfl
  exact .replaces hreplaces rfl hput

theorem Outcome.of_error {f : Fault} (left : List Value → List Value)
    (h : ∀ rest : List Value, i.perform.Yields s (taken ++ rest) (.error f) (left rest)) :
    Outcome i s taken := by
  refine .refuses fun m rest hm => ?_
  obtain ⟨e, -, hperform⟩ := h rest m.deque hm
  rw [Machine.perform_eq_settle, hperform]
  exact ⟨_, rfl⟩

end Instruction

/-- An opcode at one end goes by the values that it takes. -/
theorem Opcode.outcome {op : Opcode} (hlocal : op.isLocal = true) {s : Side} {taken : List Value}
    (htaken : taken.length = op.takes) : (Instruction.apply (some s) op).Outcome s taken := by
  cases op with
  | binary op =>
    obtain ⟨v, w, rfl⟩ := List.length_eq_two.mp htaken
    obtain ⟨-, result, happly⟩ | ⟨kind, -, happly⟩ := op.apply_cases v w
    · refine .of_advance [result] (by simp) fun rest hroom => ?_
      have hfree : rest.length < Deque.capacity := by
        simp only [List.length_singleton] at hroom
        omega
      exact yields_binary happly hfree
    · exact .of_error id fun rest => yields_binary_error happly
  | dup =>
    obtain ⟨v, rfl⟩ := List.length_eq_one_iff.mp htaken
    refine .of_advance [v, v] (by simp) fun rest hroom => ?_
    have hfree : rest.length + 1 < Deque.capacity := by
      simp only [List.length_cons, List.length_nil] at hroom
      omega
    exact yields_dup hfree
  | swap =>
    obtain ⟨v, w, rfl⟩ := List.length_eq_two.mp htaken
    refine .of_advance [w, v] (by simp) fun rest hroom => ?_
    have hfree : rest.length + 1 < Deque.capacity := by
      simp only [List.length_cons, List.length_nil] at hroom
      omega
    exact yields_swap hfree
  | «over» =>
    obtain ⟨v, w, rfl⟩ := List.length_eq_two.mp htaken
    refine .of_advance [w, v, w] (by simp) fun rest hroom => ?_
    have hfree : rest.length + 2 < Deque.capacity := by
      simp only [List.length_cons, List.length_nil] at hroom
      omega
    exact yields_over hfree
  | drop =>
    obtain ⟨v, rfl⟩ := List.length_eq_one_iff.mp htaken
    exact .of_advance [] (by simp) fun rest _ => yields_drop
  | print =>
    obtain ⟨v, rfl⟩ := List.length_eq_one_iff.mp htaken
    exact .of_say [] (by simp) fun rest => yields_print
  | _ => cases hlocal

/-- A token that works at one end goes by the values that it takes. -/
theorem Token.WorksAt.outcome {labels : Labels} {s : Side} {t : Token} {k : Nat}
    (h : t.WorksAt labels s k) {taken : List Value} (htaken : taken.length = k) :
    (t.instruction labels).Outcome s taken := by
  cases h with
  | operand h hword hvalue =>
    rename_i word v
    obtain rfl := List.eq_nil_of_length_eq_zero htaken
    rw [instruction_of_operand labels h hword]
    refine .of_advance [v] (by simp) fun rest hroom => ?_
    have hlength : 1 + rest.length ≤ Deque.capacity := hroom
    have hoperand : (Action.ofExcept (labels.operand word).value).Yields s rest (.ok v) rest := by
      rw [hvalue]
      exact .ofExcept (.ok v)
    exact .bind hoperand (.bind (Deque.yields_push (by omega)) (.pure _))
  | opcode h hlocal =>
    rw [instruction_of_opcode labels h]
    exact Opcode.outcome hlocal htaken

/-! ## §2 Two instructions -/

namespace Machine

/-- Performs two instructions, and gives what they have told and the machine after them; `none` if
one of them fails. -/
def performBoth (m : Machine) (i j : Instruction) : Option ((Event × Event) × Machine) :=
  match m.perform i with
  | (.failed _, _) => none
  | (first, m) =>
    match m.perform j with
    | (.failed _, _) => none
    | (second, m) => some ((first, second), m)

variable {m m₁ m₂ : Machine} {i j : Instruction} {first second : Event}

theorem performBoth_eq_some (hfirst : m.perform i = (first, m₁)) (hgoes : first.isFinal = false)
    (hsecond : m₁.perform j = (second, m₂)) (hgoes' : second.isFinal = false) :
    m.performBoth i j = some ((first, second), m₂) := by
  cases first with
  | failed f => cases hgoes
  | _ =>
    cases second with
    | failed f => cases hgoes'
    | _ => simp only [performBoth, hfirst, hsecond]

theorem performBoth_of_first {f : Fault} (hfirst : (m.perform i).1 = .failed f) :
    m.performBoth i j = none := by
  unfold performBoth
  cases h : m.perform i with
  | mk event m₁ =>
    rw [h] at hfirst
    dsimp only at hfirst
    rw [hfirst]

theorem performBoth_of_second {f : Fault} (hfirst : m.perform i = (first, m₁))
    (hsecond : (m₁.perform j).1 = .failed f) : m.performBoth i j = none := by
  cases first with
  | failed f => simp only [performBoth, hfirst]
  | _ =>
    cases h : m₁.perform j with
    | mk event m₂ =>
      rw [h] at hsecond
      cases hsecond
      simp only [performBoth, hfirst, h]

section Zones

variable {s : Side} {near middle far put put' : List Value}
  (hm : m.deque.seenFrom s = near ++ (middle ++ far.reverse))

include hm

/-- What the second instruction finds at its end is what was there before the first one. -/
theorem performed_zones (hi : i.Replaces s near first put)
    (hroom : put.length + middle.length + far.length ≤ Deque.capacity) :
    ∃ e : Deque Value, e.seenFrom s.opposite = far ++ (middle.reverse ++ put.reverse) ∧
      m.perform i = (first, { m with deque := e, ip := m.ip + 1, announced := false }) := by
  obtain ⟨e, he, hperform⟩ := hi m (middle ++ far.reverse) hm (by simp; omega)
  refine ⟨e, ?_, hperform⟩
  rw [Deque.seenFrom_opposite, he]
  simp

theorem performBoth_of_replaces (hi : i.Replaces s near first put) (hgoes : first.isFinal = false)
    (hj : j.Replaces s.opposite far second put') (hgoes' : second.isFinal = false)
    (hroom : put.length + middle.length + far.length ≤ Deque.capacity)
    (hroom' : put.length + middle.length + put'.length ≤ Deque.capacity) :
    ∃ e : Deque Value, e.seenFrom s = put ++ (middle ++ put'.reverse) ∧
      m.performBoth i j =
        some ((first, second), { m with deque := e, ip := m.ip + 2, announced := false }) := by
  obtain ⟨e₁, he₁, hfirst⟩ := performed_zones hm hi hroom
  obtain ⟨e₂, he₂, hsecond⟩ := hj { m with deque := e₁, ip := m.ip + 1, announced := false }
    (middle.reverse ++ put.reverse) he₁ (by simp; omega)
  refine ⟨e₂, ?_, performBoth_eq_some hfirst hgoes hsecond hgoes'⟩
  rw [Deque.seenFrom_opposite] at he₂
  have hreversed := congrArg List.reverse he₂
  simpa using hreversed

theorem performBoth_of_refuses (hi : i.Outcome s near) (hj : j.Refuses s.opposite far)
    (hroom : near.length + 1 + middle.length + far.length ≤ Deque.capacity) :
    m.performBoth i j = none := by
  cases hi with
  | refuses hi =>
    obtain ⟨f, hfirst⟩ := hi m _ hm
    exact performBoth_of_first hfirst
  | replaces hi hgoes hput =>
    obtain ⟨e, he, hfirst⟩ := performed_zones hm hi (by omega)
    obtain ⟨f, hsecond⟩ := hj { m with deque := e, ip := m.ip + 1, announced := false } _ he
    exact performBoth_of_second hfirst hsecond

end Zones

/-- A list of enough elements has a zone at each end and a middle between them. -/
theorem exists_zones {values : List Value} {j k : Nat} (h : j + k ≤ values.length) :
    ∃ near middle far : List Value, values = near ++ (middle ++ far.reverse) ∧
      near.length = j ∧ far.length = k := by
  refine ⟨values.take j, (values.drop j).take (values.length - j - k),
    ((values.drop j).drop (values.length - j - k)).reverse, ?_, ?_, ?_⟩
  · rw [List.reverse_reverse, List.take_append_drop, List.take_append_drop]
  · rw [List.length_take]
    omega
  · rw [List.length_reverse, List.length_drop, List.length_drop]
    omega

/-- **Work at opposite ends can change places.** Let `a` be a token that works at the left end and
`b` one that works at the right end of the deque of a machine, in whatever state it is: each is an
operand that stands for a value, or an operator, `dup`, `swap`, `over`, `drop` or `print`. The deque
has all the values that the two take together, and two places or more are free. Then

* either both can be performed, `a` before `b` and `b` before `a`; in both orders each of them tells
  what it tells alone, and the deque is the same in the end, and all else of the machine;
* or one of them fails alone, and then also with the other, whichever is the first. -/
theorem opposite_ends_commute {m : Machine} {a b : Token} {ka kb : Nat}
    (ha : a.WorksAt m.program.labels .left ka) (hb : b.WorksAt m.program.labels .right kb)
    (hlow : ka + kb ≤ m.deque.toList.length) (hhigh : m.deque.toList.length ≤ 16777214) :
    let left := a.instruction m.program.labels
    let right := b.instruction m.program.labels
    (∃ e e' : Deque Value, e.toList = e'.toList ∧
      m.performBoth left right = some (((m.perform left).1, (m.perform right).1),
        { m with deque := e, ip := m.ip + 2, announced := false }) ∧
      m.performBoth right left = some (((m.perform right).1, (m.perform left).1),
        { m with deque := e', ip := m.ip + 2, announced := false })) ∨
    ((∃ f, (m.perform left).1 = .failed f ∨ (m.perform right).1 = .failed f) ∧
      m.performBoth left right = none ∧ m.performBoth right left = none) := by
  intro left right
  obtain ⟨near, middle, far, hzones, hnear, hfar⟩ := exists_zones hlow
  have hfromLeft : m.deque.seenFrom .left = near ++ (middle ++ far.reverse) := hzones
  have hfromRight : m.deque.seenFrom .right = far ++ (middle.reverse ++ near.reverse) := by
    rw [Deque.seenFrom, hzones]
    simp
  have hlength : near.length + middle.length + far.length + 2 ≤ Deque.capacity := by
    rw [hzones] at hhigh
    simp only [List.length_append, List.length_reverse] at hhigh
    simp only [Deque.capacity]
    omega
  have hleft : left.Outcome .left near := ha.outcome hnear
  have hright : right.Outcome .right far := hb.outcome hfar
  cases hleft with
  | refuses hrefuses =>
    obtain ⟨f, hfirst⟩ := hrefuses m _ hfromLeft
    exact .inr ⟨⟨f, .inl hfirst⟩, performBoth_of_first hfirst,
      performBoth_of_refuses (s := .right) hfromRight hright hrefuses (by simp; omega)⟩
  | replaces hreplaces hgoes hput =>
    cases hright with
    | refuses hrefuses =>
      obtain ⟨f, hfirst⟩ := hrefuses m _ hfromRight
      exact .inr ⟨⟨f, .inr hfirst⟩, performBoth_of_refuses (s := .left) hfromLeft
        (.replaces hreplaces hgoes hput) hrefuses (by omega), performBoth_of_first hfirst⟩
    | replaces hreplaces' hgoes' hput' =>
      obtain ⟨e, he, hboth⟩ := performBoth_of_replaces (s := .left) hfromLeft hreplaces hgoes
        hreplaces' hgoes' (by omega) (by omega)
      obtain ⟨e', he', hboth'⟩ := performBoth_of_replaces (s := .right) hfromRight hreplaces' hgoes'
        hreplaces hgoes (by simp; omega) (by simp; omega)
      obtain ⟨_, -, hfirst⟩ := performed_zones (s := .left) hfromLeft hreplaces (by omega)
      obtain ⟨_, -, hfirst'⟩ := performed_zones (s := .right) hfromRight hreplaces'
        (by simp; omega)
      rw [hfirst, hfirst']
      refine .inl ⟨e, e', ?_, hboth, hboth'⟩
      have hreversed := congrArg List.reverse he'
      rw [Deque.seenFrom, List.reverse_reverse] at hreversed
      rw [hreversed]
      simpa [Deque.seenFrom] using he

/-- Zones that touch. A label is added at the left of the one value that is printed at the right;
and an addition fails at the left of a shift that fails, each with a fault of its own. -/
theorem opposite_ends_commute_touching :
    let p : Program := { tokens := #[⟨"x:"⟩], labels := (∅ : Labels).insert "x" 0 }
    let m (values : List Value) : Machine := ⟨p, true, .ofList values, 1, true, false, false⟩
    let instruction (text : String) : Instruction := Token.instruction p.labels ⟨text⟩
    (∃ e e' : Deque Value, e.toList = e'.toList ∧
      (m [.int 7]).performBoth (instruction "!x") (instruction "print!") =
        some ((.running, .line "7"), ⟨p, true, e, 3, false, false, false⟩) ∧
      (m [.int 7]).performBoth (instruction "print!") (instruction "!x") =
        some ((.line "7", .running), ⟨p, true, e', 3, false, false, false⟩)) ∧
    (m [.int 9223372036854775807, .int 1, .int 4, .int (-1)]).performBoth (instruction "!add")
      (instruction "shr!") = none ∧
    (m [.int 9223372036854775807, .int 1, .int 4, .int (-1)]).performBoth (instruction "shr!")
      (instruction "!add") = none := by
  intro p m instruction
  have hlabel : Token.WorksAt p.labels .left ⟨"!x"⟩ 0 :=
    @Token.WorksAt.operand p.labels .left ⟨"!x"⟩ "x" (.int 0) (by decide +kernel)
      (by decide +kernel) (by decide +kernel)
  have hprint : Token.WorksAt p.labels .right ⟨"print!"⟩ 1 :=
    @Token.WorksAt.opcode p.labels .right ⟨"print!"⟩ .print (by decide +kernel) rfl
  have hadd : Token.WorksAt p.labels .left ⟨"!add"⟩ 2 :=
    @Token.WorksAt.opcode p.labels .left ⟨"!add"⟩ (.binary .add) (by decide +kernel) rfl
  have hshr : Token.WorksAt p.labels .right ⟨"shr!"⟩ 2 :=
    @Token.WorksAt.opcode p.labels .right ⟨"shr!"⟩ (.binary .shr) (by decide +kernel) rfl
  constructor
  · have hadds : ((m [.int 7]).perform (instruction "!x")).1 = .running := by decide +kernel
    have hprints : ((m [.int 7]).perform (instruction "print!")).1 = .line "7" := by
      decide +kernel
    obtain hboth | ⟨-, hnone, -⟩ := opposite_ends_commute (m := m [.int 7]) hlabel hprint
      (by decide +kernel) (by decide +kernel)
    · rw [hadds, hprints] at hboth
      exact hboth
    · have hsome : ((m [.int 7]).performBoth (instruction "!x")
          (instruction "print!")).isSome = true := by
        decide +kernel
      rw [hnone] at hsome
      cases hsome
  · obtain ⟨e, e', -, hboth, -⟩ | ⟨-, hnone⟩ :=
      opposite_ends_commute (m := m [.int 9223372036854775807, .int 1, .int 4, .int (-1)]) hadd hshr
        (by decide +kernel) (by decide +kernel)
    · have hfails : ((m [.int 9223372036854775807, .int 1, .int 4, .int (-1)]).performBoth
          (instruction "!add") (instruction "shr!")).isSome = false := by
        decide +kernel
      rw [hboth] at hfails
      cases hfails
    · exact hnone

end Machine

end TwoEnded
