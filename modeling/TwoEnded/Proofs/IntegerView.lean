/-
TwoEnded.Proofs.IntegerView — only `print` tells a boolean from a number.

A deque with `true` where another has 1, or `false` where it has 0, shows the same
integer views. Every operator, jump, condition and row of cells depends on the views
alone, and every result has a view that depends on them alone; only the text of a
value, which `print` gives out, does not.

## §1 The view of the deque

`Deque.views` lists the integer views. What a removal gives and leaves has views that
depend on the views of the deque (`Deque.take?_views`), although two deques with the
same views need not be cut into their two parts at the same place. This gives the
`Correspondence` named `integerView`.

## §2 Machines

Two machines with the same program and the same views go through every session in
the same way, up to the lines that `print` gives out.
-/
import TwoEnded.Proofs.Likeness

namespace TwoEnded

/-! ## §1 The view of the deque -/

namespace Deque

/-- The integer views of the values from left to right. -/
def views (d : Deque Value) : List Int64 := d.toList.map Value.word

@[simp] theorem length_views (d : Deque Value) : d.views.length = d.size := by
  rw [views, List.length_map, length_toList]

theorem take?_eq_none_iff_views {s : Side} {d : Deque Value} :
    d.take? s = none ↔ d.views = [] := by
  rw [take?_eq_none_iff, ← toList_eq_nil_iff, views, List.map_eq_nil_iff]

theorem views_insert_left (v : Value) (d : Deque Value) :
    (d.insert .left v).views = v.word :: d.views := by
  simp [views]

theorem views_insert_right (v : Value) (d : Deque Value) :
    (d.insert .right v).views = d.views ++ [v.word] := by
  simp [views]

/-- Removals from deques with the same views give values with the same view, and leave
deques with the same views. -/
theorem take?_views (s : Side) {d d' : Deque Value} (h : d'.views = d.views) :
    Option.Rel (fun p p' => p'.1.word = p.1.word ∧ p'.2.views = p.2.views)
      (d.take? s) (d'.take? s) := by
  cases hx : d.take? s with
  | none =>
    have hx' : d'.take? s = none := by
      rw [take?_eq_none_iff_views] at hx ⊢
      rw [h, hx]
    rw [hx']
    exact .none
  | some p =>
    obtain ⟨v, e⟩ := p
    cases hy : d'.take? s with
    | none =>
      rw [take?_eq_none_iff_views, h, ← take?_eq_none_iff_views (s := s), hx] at hy
      cases hy
    | some p' =>
      obtain ⟨v', e'⟩ := p'
      refine .some ?_
      cases s with
      | left =>
        rw [views, views, take?_left_eq_some hx, take?_left_eq_some hy] at h
        simpa [views] using h
      | right =>
        rw [views, views, take?_right_eq_some hx, take?_right_eq_some hy] at h
        simpa [views, and_comm] using h

theorem row_eq_views (d : Deque Value) :
    d.row = String.ofList (d.views.map fun w => if w = 1 then '*' else ' ') := by
  simp [row, views, Function.comp_def]

end Deque

/-- Values are seen as numbers. -/
def integerView : Correspondence where
  side s := s
  deques d d' := d'.views = d.views
  values v v' := v'.word = v.word
  text text := text
  side_opposite _ := rfl
  word_eq h := h
  refl _ := rfl
  apply op _ _ _ _ ha hb := op.apply_agree ha hb
  empty := rfl
  size_eq h := by rw [← Deque.length_views, h, Deque.length_views]
  insert s _ _ _ _ hv hd := by
    cases s with
    | left => rw [Deque.views_insert_left, Deque.views_insert_left, hv, hd]
    | right => rw [Deque.views_insert_right, Deque.views_insert_right, hv, hd]
  take s _ _ hd := Deque.take?_views s hd

/-! ## §2 Machines -/

theorem integerView_programs (p : Program) : integerView.Programs p p where
  code a := by
    cases hi : p.instruction? a with
    | none => rfl
    | some i => exact congrArg some i.onSide_same.symm
  text a t ht := ⟨t, ht, rfl⟩

namespace Machine

/-- The machines have the same program, run without tracing, are at the same address in
the same condition, and their deques show the same integer views. -/
structure SameView (m m' : Machine) : Prop where
  program : m'.program = m.program
  tracing : m.tracing = false
  tracing' : m'.tracing = false
  ip : m'.ip = m.ip
  stopped : m'.stopped = m.stopped
  interrupted : m'.interrupted = m.interrupted
  views : m'.deque.views = m.deque.views

/-- The answers to a call on the two machines: the machines show the same views again,
and the events are the same, or they are lines that a `print` has just given out, the
texts of two values with the same integer view. -/
def SameAnswer (a a' : Option Event × Machine) : Prop :=
  SameView a.2 a'.2 ∧
    (a'.1 = a.1 ∨ ∃ (side : Option Side) (v v' : Value),
      a.2.behind = some (.apply side .print) ∧ v'.word = v.word ∧
        a.1 = some (.line v.text) ∧ a'.1 = some (.line v'.text))

/-- **Booleans are seen by `print` only**: of two machines that show the same views, every
call of every session gives the same answer, up to the texts that `print` gives out. -/
theorem booleans_only_printed {m m' : Machine} (h : SameView m m') (calls : List Call) :
    List.Forall₂ SameAnswer (m.session calls) (m'.session calls) := by
  have halike : Alike integerView m.program m.program m m' :=
    ⟨rfl, h.program, h.tracing, h.tracing', h.views, h.ip, h.stopped, h.interrupted⟩
  refine (halike.session (integerView_programs m.program) calls).imp ?_
  rintro ⟨e, n⟩ ⟨e', n'⟩ ⟨hn, hevents⟩
  refine ⟨⟨hn.program'.trans hn.program.symm, hn.tracing, hn.tracing', hn.ip, hn.stopped,
    hn.interrupted, hn.deque⟩, ?_⟩
  cases hevents with
  | none => exact .inl rfl
  | some hevent =>
    cases hevent with
    | running => exact .inl rfl
    | stopped => exact .inl rfl
    | exit => exact .inl rfl
    | failed f => exact .inl (by simp [integerView])
    | print hprint hv => exact .inr ⟨_, _, _, hprint, hv, rfl, rfl⟩
    | @trace side d d' htrace hd =>
      have hviews : d'.views = d.views := hd
      exact .inl (by rw [Deque.row_eq_views, Deque.row_eq_views, hviews])

/-- A truth on one machine and the number 1 on the other, which `dup`, `add` and `trace`
cannot tell apart and `print` can. -/
theorem booleans_only_printed_true_one :
    let p : Program :=
      { tokens := #[⟨"dup!"⟩, ⟨"dup!"⟩, ⟨"add!"⟩, ⟨"trace"⟩, ⟨"drop!"⟩, ⟨"print!"⟩, ⟨"!add"⟩],
        labels := ∅ }
    let m : Machine := { start p false with deque := .ofList [.bool true] }
    let m' : Machine := { start p false with deque := .ofList [.int 1], announced := true }
    let calls : List Call :=
      [.execute 9, .execute 0, .execute 2, .execute 1, .interrupt, .execute 1]
    SameView m m' ∧ List.Forall₂ SameAnswer (m.session calls) (m'.session calls) := by
  intro p m m' calls
  have h : SameView m m' := ⟨rfl, rfl, rfl, rfl, rfl, rfl, by decide +kernel⟩
  exact ⟨h, booleans_only_printed h calls⟩

end Machine

end TwoEnded
