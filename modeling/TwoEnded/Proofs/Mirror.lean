/-
TwoEnded.Proofs.Mirror — the two ends of the deque are alike.

The mirror image of a program has every mark on the other side: `!w` becomes `w!`
and `w!` becomes `!w`. It does on the reversed deque what the program does on the
deque.

## §1 The deque from the other side

`Deque.reverse` exchanges the two parts of a deque, and what an operation does at
one end of it the same operation does at the other end of the deque as it was. This
is the `Correspondence` named `mirror`.

## §2 Tokens

The mark in front counts before the mark behind, so a token has a mirror image only
if its word does not itself begin with the mark, and only if its word does not end
in a colon, which would make a label of it (`Token.Mirrorable`).

## §3 Programs

A program and its mirror image can both be loaded or both not, and then every sequence
of budgets leads through the same addresses and events, with reversed deques.
-/
import TwoEnded.Proofs.Likeness
import TwoEnded.Proofs.Marks

namespace TwoEnded

/-! ## §1 The deque from the other side -/

namespace Deque

theorem reverse_empty {α : Type} : (empty : Deque α).reverse = empty := rfl

theorem reverse_insert {α : Type} (s : Side) (x : α) (d : Deque α) :
    (d.insert s x).reverse = d.reverse.insert s.opposite x := by
  cases d with
  | mk front back => cases s <;> rfl

theorem take?_reverse {α : Type} (s : Side) (d : Deque α) :
    d.reverse.take? s.opposite = (d.take? s).map fun p => (p.1, p.2.reverse) := by
  cases d with
  | mk front back =>
    cases s with
    | left =>
      simp only [take?, reverse, Side.opposite]
      split <;> rfl
    | right =>
      simp only [take?, reverse, Side.opposite]
      split <;> rfl

theorem row_reverse (d : Deque Value) :
    d.reverse.row = String.ofList d.row.toList.reverse := by
  simp [row]

end Deque

/-- The token for the other end: the mark changes its side. -/
def Token.mirror (t : Token) : Token :=
  match t.split with
  | (some .left, word) => ⟨word ++ "!"⟩
  | (some .right, word) => ⟨"!" ++ word⟩
  | (none, _) => t

/-- The deque is seen from the other side. -/
def mirror : Correspondence where
  side := Side.opposite
  deques d d' := d' = d.reverse
  values := Eq
  text text := (Token.mirror ⟨text⟩).text
  side_opposite _ := rfl
  word_eq h := Value.word_eq_of_eq h
  refl _ := rfl
  apply op _ _ _ _ ha hb := op.apply_agree_of_eq ha hb
  empty := Deque.reverse_empty.symm
  size_eq h := by
    rw [h, ← Deque.length_toList, ← Deque.length_toList, Deque.toList_reverse,
      List.length_reverse]
  insert s _ _ _ _ hv hd := by
    subst hv hd
    exact (Deque.reverse_insert ..).symm
  take s d d' hd := by
    subst hd
    rw [Deque.take?_reverse]
    cases d.take? s with
    | none => exact .none
    | some p => exact .some ⟨rfl, rfl⟩

/-! ## §2 Tokens -/

namespace Token

/-- The token has a mirror image: if it is marked, its word is not empty, does not
begin with the mark and does not end in a colon. -/
def Mirrorable (t : Token) : Prop :=
  t.side.isSome = true →
    t.word ≠ "" ∧ t.word.toList.head? ≠ some '!' ∧ t.word.toList.getLast? ≠ some ':'

instance (t : Token) : Decidable t.Mirrorable :=
  inferInstanceAs (Decidable (_ → _))

/-- What a token and its mirror image are: neither has a mark and they are equal, or
they have the mark at opposite ends of the same word, and neither is a label. -/
theorem mirror_cases {t : Token} (h : t.Mirrorable) :
    (t.side = none ∧ t.mirror = t) ∨
    (∃ s, t.split = (some s, t.word) ∧ t.mirror.split = (some s.opposite, t.word) ∧
      t.label? = none ∧ t.mirror.label? = none) := by
  obtain ⟨w, hw, hsplit⟩ | ⟨w, hw, hhead, hsplit⟩ | hsplit := split_cases t
  · have hword : t.word = String.ofList w := congrArg Prod.snd hsplit
    obtain ⟨hne, hfirst, hlast⟩ := h (by rw [side, hsplit]; rfl)
    rw [hword, String.toList_ofList] at hfirst hlast
    have hmirror : t.mirror.text.toList = w ++ ['!'] := by simp [mirror, hsplit]
    have hwne : w ≠ [] := by
      rintro rfl
      exact hne hword
    refine .inr ⟨.left, by rw [hword, hsplit], ?_, label?_of_bang_front hw hlast,
      label?_of_bang_behind hmirror⟩
    rw [hword]
    exact split_of_bang_behind hmirror hwne hfirst
  · have hword : t.word = String.ofList w := congrArg Prod.snd hsplit
    obtain ⟨-, -, hlast⟩ := h (by rw [side, hsplit]; rfl)
    rw [hword, String.toList_ofList] at hlast
    have hmirror : t.mirror.text.toList = '!' :: w := by simp [mirror, hsplit]
    refine .inr ⟨.right, by rw [hword, hsplit], ?_, label?_of_bang_behind hw,
      label?_of_bang_front hmirror hlast⟩
    rw [hword]
    exact split_of_bang_front hmirror
  · exact .inl ⟨by rw [side, hsplit], by rw [mirror, hsplit]⟩

theorem label?_mirror {t : Token} (h : t.Mirrorable) : t.mirror.label? = t.label? := by
  obtain ⟨-, hmirror⟩ | ⟨s, -, -, hnone, hnone'⟩ := mirror_cases h
  · rw [hmirror]
  · rw [hnone, hnone']

/-- The mirror image of a token does the same at the other end. -/
theorem instruction_mirror (labels : Labels) {t : Token} (h : t.Mirrorable) :
    t.mirror.instruction labels = (t.instruction labels).onSide Side.opposite := by
  obtain ⟨hside, hmirror⟩ | ⟨s, hsplit, hsplit', -, -⟩ := mirror_cases h
  · rw [hmirror]
    have hsplit : t.split = (none, t.word) := by rw [← hside]; rfl
    simp only [instruction, hsplit]
    split
    · rfl
    · split <;> rfl
  · simp only [instruction, hsplit, hsplit', Option.isNone_some, Bool.false_and,
      Bool.false_eq_true, if_false]
    split <;> rfl

end Token

/-! ## §3 Programs -/

theorem Labels.collect_mirror (labels : Labels) (address : Nat) (tokens : List Token)
    (h : ∀ t ∈ tokens, t.Mirrorable) :
    collect labels address (tokens.map Token.mirror) = collect labels address tokens := by
  induction tokens generalizing labels address with
  | nil => rfl
  | cons t rest ih =>
    have ht : t.Mirrorable := h t (by simp)
    have hrest := fun labels => ih labels (address + 1) fun u hu => h u (by simp [hu])
    simp only [List.map_cons, collect, Token.label?_mirror ht]
    cases hlabel : t.label? with
    | none => exact hrest labels
    | some name =>
      -- a token that defines a label has no mark, so it is its own mirror image
      obtain ⟨-, hself⟩ | ⟨s, -, -, hnone, -⟩ := Token.mirror_cases ht
      · simp only [hself, hrest]
      · rw [hnone] at hlabel
        cases hlabel

/-- The event on the machine with the mirrored program, `printer` being the instruction
behind the machine: a row of the deque is read from the other side, and the token of a
fault is the mirrored one. -/
def Event.mirror (printer : Option Instruction) : Event → Event
  | .line text =>
    match printer with
    | some (.apply _ .trace) => .line (String.ofList text.toList.reverse)
    | _ => .line text
  | .failed fault =>
    .failed { fault with token := fault.token.map fun text => (Token.mirror ⟨text⟩).text }
  | event => event

theorem events_mirror {i : Option Instruction} {e e' : Event}
    (h : mirror.Events i e e') : e' = e.mirror i := by
  cases h with
  | running => rfl
  | stopped => rfl
  | exit => rfl
  | failed f => rfl
  | print hi hv => rw [hi, ← hv]; rfl
  | trace hi hd => rw [hi, hd, Deque.row_reverse]; rfl

/-- A program corresponds to the one with the mirrored tokens. -/
theorem mirror_programs {tokens : List Token} (h : ∀ t ∈ tokens, t.Mirrorable)
    (labels : Labels) :
    mirror.Programs { tokens := tokens.toArray, labels := labels }
      { tokens := (tokens.map Token.mirror).toArray, labels := labels } :=
  Correspondence.programs_of_tokens (fun t ht => Token.instruction_mirror labels (h t ht))
    fun _ _ => rfl

namespace Machine

/-- The answers to a call on a machine and on its mirror image: the machines are at the
same address, their deques are reverses of each other, and the events are mirrored. -/
def MirroredAnswer (a a' : Option Event × Machine) : Prop :=
  a'.2.ip = a.2.ip ∧ a'.2.deque.toList = a.2.deque.toList.reverse ∧
    a'.1 = a.1.map (Event.mirror a.2.behind)

/-- **Mirror symmetry**: tokens that have mirror images and their mirror images can both
be loaded, or not with the same fault. If they can, then every call of every sequence of
budgets gives mirrored answers on the two machines. -/
theorem mirror_symmetry (tokens : List Token) (h : ∀ t ∈ tokens, t.Mirrorable) :
    match Program.load tokens, Program.load (tokens.map Token.mirror) with
    | .ok p, .ok p' =>
      ∀ budgets : List Nat,
        List.Forall₂ MirroredAnswer ((start p false).session (budgets.map .execute))
          ((start p' false).session (budgets.map .execute))
    | .error f, .error f' => f' = f
    | _, _ => False := by
  simp only [Program.load, Labels.collect_mirror ∅ 0 tokens h]
  cases Labels.collect ∅ 0 tokens with
  | error f => rfl
  | ok labels =>
    intro budgets
    have hstart : Alike mirror _ _ (start { tokens := tokens.toArray, labels := labels } false)
        (start { tokens := (tokens.map Token.mirror).toArray, labels := labels } false) :=
      ⟨rfl, rfl, rfl, rfl, rfl, rfl, rfl, rfl⟩
    refine (hstart.session (mirror_programs h labels) (budgets.map .execute)).imp ?_
    rintro ⟨e, m⟩ ⟨e', m'⟩ ⟨halike, hevents⟩
    refine ⟨halike.ip, ?_, ?_⟩
    · rw [show m'.deque = m.deque.reverse from halike.deque, Deque.toList_reverse]
    · cases hevents with
      | none => rfl
      | some hevent => exact congrArg some (events_mirror hevent)

/-- A loop that moves values across the deque, with a word that ends in the mark. -/
theorem mirror_symmetry_moving_loop :
    let tokens : List Token :=
      [⟨"!2"⟩, ⟨"l:"⟩, ⟨"1!"⟩, ⟨"!move"⟩, ⟨"trace!"⟩, ⟨"!l"⟩, ⟨"!jmp"⟩, ⟨"!x!"⟩]
    let mirrored : List Token :=
      [⟨"2!"⟩, ⟨"l:"⟩, ⟨"!1"⟩, ⟨"move!"⟩, ⟨"!trace"⟩, ⟨"l!"⟩, ⟨"jmp!"⟩, ⟨"x!!"⟩]
    ∃ p p', Program.load tokens = .ok p ∧ Program.load mirrored = .ok p' ∧
      ∀ budgets : List Nat,
        List.Forall₂ MirroredAnswer ((start p false).session (budgets.map .execute))
          ((start p' false).session (budgets.map .execute)) := by
  intro tokens mirrored
  have h := mirror_symmetry tokens (by decide +kernel)
  have hmirror : tokens.map Token.mirror = mirrored := by decide +kernel
  have hload : (Program.load tokens).isOk = true := by decide +kernel
  rw [hmirror] at h
  split at h
  · next p p' hp hp' => exact ⟨p, p', hp, hp', h⟩
  · next f f' hf _ =>
    rw [hf] at hload
    cases hload
  · exact h.elim

end Machine

end TwoEnded
