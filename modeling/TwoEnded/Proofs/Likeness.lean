/-
TwoEnded.Proofs.Likeness — two machines that do the same things.

Several laws of the machine say that two machines with different deques, or with
different programs, go through the same motions. They all have one shape, which is
worked out here once.

## §1 Parallel actions

`Parallel S V x y`: run on deques in the relation `S`, the actions `x` and `y` both
succeed, with results in the relation `V`, or both fail with the same fault; and
what is left of the deques is in the relation `S` again.

## §2 Correspondences

A `Correspondence` says which side, which deque, which value and which token text
on one machine stands for which on the other. Its laws are about single insertions,
removals and operators. From them every instruction is parallel to its counterpart
(`Correspondence.instruction`).

## §3 Machines

`Alike c p p' m m'`: the machines run `p` and `p'` without tracing and are in
corresponding states. If the programs correspond (`Correspondence.Programs`), then
every session on one machine goes like the same session on the other
(`Alike.session`).
-/
import Mathlib.Data.List.Forall2
import TwoEnded.Proofs.Session

namespace TwoEnded

/-! ## §1 Parallel actions -/

/-- Both results are values in relation, or they are the same fault, which says
nothing about a token. -/
inductive Agree {α β : Type} (V : α → β → Prop) : Except Fault α → Except Fault β → Prop
  | ok {a : α} {b : β} (h : V a b) : Agree V (.ok a) (.ok b)
  | error {f : Fault} (hf : f.token = none) : Agree V (.error f) (.error f)

/-- The same for results with a deque. -/
inductive Likewise {α β : Type} (S : Deque Value → Deque Value → Prop) (V : α → β → Prop) :
    EStateM.Result Fault (Deque Value) α → EStateM.Result Fault (Deque Value) β → Prop
  | ok {a : α} {b : β} {d d' : Deque Value} (h : V a b) (hd : S d d') :
      Likewise S V (.ok a d) (.ok b d')
  | error {f : Fault} {d d' : Deque Value} (hf : f.token = none) (hd : S d d') :
      Likewise S V (.error f d) (.error f d')

/-- The actions end alike on deques in relation. -/
def Parallel {α β : Type} (S : Deque Value → Deque Value → Prop) (V : α → β → Prop)
    (x : Action α) (y : Action β) : Prop :=
  ∀ d d', S d d' → Likewise S V (x d) (y d')

namespace Parallel

variable {α β γ δ : Type} {S : Deque Value → Deque Value → Prop} {V : α → β → Prop}
  {W : γ → δ → Prop}

theorem pure {a : α} {b : β} (h : V a b) :
    Parallel S V (Pure.pure a : Action α) (Pure.pure b : Action β) :=
  fun _ _ hd => .ok h hd

theorem bind {x : Action α} {y : Action β} {f : α → Action γ} {g : β → Action δ}
    (hxy : Parallel S V x y) (hfg : ∀ a b, V a b → Parallel S W (f a) (g b)) :
    Parallel S W (x >>= f) (y >>= g) := by
  intro d d' hd
  have hstep := hxy d d' hd
  show Likewise S W (EStateM.bind x f d) (EStateM.bind y g d')
  unfold EStateM.bind
  cases hx : x d with
  | ok a e =>
    cases hy : y d' with
    | ok b e' =>
      rw [hx, hy] at hstep
      cases hstep with
      | ok h he => exact hfg a b h e e' he
    | error f' e' => rw [hx, hy] at hstep; cases hstep
  | error f e =>
    cases hy : y d' with
    | ok b e' => rw [hx, hy] at hstep; cases hstep
    | error f' e' =>
      rw [hx, hy] at hstep
      cases hstep with
      | error hf he => exact .error hf he

theorem ofExcept {x : Except Fault α} {y : Except Fault β} (h : Agree V x y) :
    Parallel S V (Action.ofExcept x) (Action.ofExcept y) := by
  intro d d' hd
  cases h with
  | ok h => exact .ok h hd
  | error hf => exact .error hf hd

end Parallel

/-! ## §2 Correspondences -/

theorem Value.word_or (a b : Value) : (a.or b).word = a.word ||| b.word := by
  cases a with
  | int n => rfl
  | bool p =>
    cases b with
    | int n => rfl
    | bool q => cases p <;> cases q <;> rfl

theorem Value.word_and (a b : Value) : (a.and b).word = a.word &&& b.word := by
  cases a with
  | int n => rfl
  | bool p =>
    cases b with
    | int n => rfl
    | bool q => cases p <;> cases q <;> rfl

theorem Value.checked_agree (n : Int) :
    Agree (fun v v' : Value => v'.word = v.word) (Value.checked n) (Value.checked n) := by
  unfold Value.checked
  split
  · exact .ok rfl
  · exact .error rfl

/-- An operator sees nothing of its operands but their integer views: with the same
views it gives a value of the same view, or the same fault. -/
theorem Operator.apply_agree (op : Operator) {a a' b b' : Value} (ha : a'.word = a.word)
    (hb : b'.word = b.word) :
    Agree (fun v v' : Value => v'.word = v.word) (op.apply a b) (op.apply a' b') := by
  have hai : a'.toInt = a.toInt := by rw [Value.toInt, Value.toInt, ha]
  have hbi : b'.toInt = b.toInt := by rw [Value.toInt, Value.toInt, hb]
  cases op with
  | add =>
    simp only [apply, Value.add, hai, hbi]
    exact Value.checked_agree _
  | sub =>
    simp only [apply, Value.sub, hai, hbi]
    exact Value.checked_agree _
  | shr =>
    simp only [apply, Value.shr, hai, hbi]
    split
    · exact .error rfl
    · exact .ok rfl
  | shl =>
    simp only [apply, Value.shl, hai, hbi]
    split
    · exact .error rfl
    · split
      · exact .ok rfl
      · split
        · exact .error rfl
        · exact Value.checked_agree _
  | or => exact .ok (by rw [Value.word_or, Value.word_or, ha, hb])
  | and => exact .ok (by rw [Value.word_and, Value.word_and, ha, hb])
  | eq => exact .ok (by rw [Value.equal, Value.equal, ha, hb])
  | gt => exact .ok (by rw [Value.gt, Value.gt, ha, hb])
  | lt => exact .ok (by rw [Value.lt, Value.lt, ha, hb])
  | ge => exact .ok (by rw [Value.ge, Value.ge, ha, hb])

theorem Operator.apply_agree_of_eq (op : Operator) {a a' b b' : Value} (ha : a = a')
    (hb : b = b') : Agree Eq (op.apply a b) (op.apply a' b') := by
  subst ha hb
  have h := op.apply_agree (rfl : a.word = a.word) (rfl : b.word = b.word)
  cases hv : op.apply a b with
  | ok v => exact .ok rfl
  | error f =>
    rw [hv] at h
    cases h with
    | error hf => exact .error hf

theorem Value.word_eq_of_eq {v v' : Value} (h : v = v') : v'.word = v.word := by rw [h]

/-- What stands for what on two machines. -/
structure Correspondence where
  side : Side → Side
  deques : Deque Value → Deque Value → Prop
  values : Value → Value → Prop
  /-- The text of the corresponding token. -/
  text : String → String
  side_opposite : ∀ s, side s.opposite = (side s).opposite
  word_eq : ∀ {v v'}, values v v' → v'.word = v.word
  refl : ∀ v, values v v
  apply : ∀ (op : Operator) {a a' b b'}, values a a' → values b b' →
    Agree values (op.apply a b) (op.apply a' b')
  empty : deques .empty .empty
  size_eq : ∀ {d d'}, deques d d' → d'.size = d.size
  insert : ∀ (s : Side) {v v' d d'}, values v v' → deques d d' →
    deques (d.insert s v) (d'.insert (side s) v')
  take : ∀ (s : Side) {d d'}, deques d d' →
    Option.Rel (fun p p' => values p.1 p'.1 ∧ deques p.2 p'.2) (d.take? s) (d'.take? (side s))

/-- The instruction for the other side. -/
def Instruction.onSide (side : Side → Side) : Instruction → Instruction
  | .landmark => .landmark
  | .apply s op => .apply (s.map side) op
  | .push s operand => .push (s.map side) operand

theorem Instruction.onSide_same (i : Instruction) : i.onSide (fun s => s) = i := by
  cases i with
  | landmark => rfl
  | apply side op => cases side <;> rfl
  | push side operand => cases side <;> rfl

namespace Correspondence

variable (c : Correspondence)

theorem isTruthy_eq {v v' : Value} (h : c.values v v') : v'.isTruthy = v.isTruthy := by
  rw [Value.isTruthy, Value.isTruthy, c.word_eq h]

theorem address_agree {v v' : Value} (h : c.values v v') :
    Agree Eq v.address v'.address := by
  have hint : v'.toInt = v.toInt := by rw [Value.toInt, Value.toInt, c.word_eq h]
  unfold Value.address
  rw [hint]
  split
  · exact .error rfl
  · exact .ok rfl

theorem push (side : Option Side) {v v' : Value} (h : c.values v v') :
    Parallel c.deques Eq (Deque.push side v) (Deque.push (side.map c.side) v') := by
  intro d d' hd
  cases side with
  | none => exact .error rfl hd
  | some s =>
    simp only [Deque.push, Option.map_some, c.size_eq hd]
    split
    · exact .error rfl hd
    · exact .ok rfl (c.insert s h hd)

theorem pop (side : Option Side) :
    Parallel c.deques c.values (Deque.pop side) (Deque.pop (side.map c.side)) := by
  intro d d' hd
  cases side with
  | none => exact .error rfl hd
  | some s =>
    have htake := c.take s hd
    simp only [Deque.pop, Option.map_some]
    cases hx : d.take? s with
    | none =>
      cases hy : d'.take? (c.side s) with
      | none => exact .error rfl c.empty
      | some q => rw [hx, hy] at htake; cases htake
    | some p =>
      cases hy : d'.take? (c.side s) with
      | none => rw [hx, hy] at htake; cases htake
      | some q =>
        rw [hx, hy] at htake
        cases htake with
        | some h => exact .ok h.1 h.2

theorem popTwo (side : Option Side) :
    Parallel c.deques (fun p p' => c.values p.1 p'.1 ∧ c.values p.2 p'.2)
      (Deque.popTwo side) (Deque.popTwo (side.map c.side)) := by
  refine .bind (c.pop side) fun a a' ha => ?_
  refine .bind (c.pop side) fun b b' hb => ?_
  exact .pure ⟨ha, hb⟩

/-- What is to be done next on the two machines after corresponding instructions. It
is the same, but for the lines: `print` shows a value and `trace` the deque. -/
inductive Nexts (i : Instruction) : Next → Next → Prop
  | advance : Nexts i .advance .advance
  | jump (address : Nat) : Nexts i (.jump address) (.jump address)
  | exit : Nexts i .exit .exit
  | print {s : Option Side} {v v' : Value} (hi : i = .apply s .print) (h : c.values v v') :
      Nexts i (.say v.text) (.say v'.text)
  | trace {s : Option Side} {d d' : Deque Value} (hi : i = .apply s .trace)
      (h : c.deques d d') : Nexts i (.say d.row) (.say d'.row)

theorem opcode (side : Option Side) (op : Opcode) :
    Parallel c.deques (c.Nexts (.apply side op)) (op.perform side)
      (op.perform (side.map c.side)) := by
  cases op with
  | binary op =>
    refine .bind (c.popTwo side) ?_
    rintro ⟨a, b⟩ ⟨a', b'⟩ ⟨ha, hb⟩
    refine .bind (.ofExcept (c.apply op ha hb)) fun v v' hv => ?_
    exact .bind (c.push side hv) fun _ _ _ => .pure .advance
  | dup =>
    refine .bind (c.pop side) fun a a' ha => ?_
    refine .bind (c.push side ha) fun _ _ _ => ?_
    exact .bind (c.push side ha) fun _ _ _ => .pure .advance
  | swap =>
    refine .bind (c.popTwo side) ?_
    rintro ⟨a, b⟩ ⟨a', b'⟩ ⟨ha, hb⟩
    refine .bind (c.push side ha) fun _ _ _ => ?_
    exact .bind (c.push side hb) fun _ _ _ => .pure .advance
  | move =>
    have hside : (side.map c.side).map Side.opposite = (side.map Side.opposite).map c.side := by
      cases side with
      | none => rfl
      | some s => simp [c.side_opposite]
    refine .bind (c.pop side) fun a a' ha => ?_
    rw [hside]
    exact .bind (c.push _ ha) fun _ _ _ => .pure .advance
  | «over» =>
    refine .bind (c.popTwo side) ?_
    rintro ⟨a, b⟩ ⟨a', b'⟩ ⟨ha, hb⟩
    refine .bind (c.push side hb) fun _ _ _ => ?_
    refine .bind (c.push side ha) fun _ _ _ => ?_
    exact .bind (c.push side hb) fun _ _ _ => .pure .advance
  | drop => exact .bind (c.pop side) fun _ _ _ => .pure .advance
  | jumpIf =>
    refine .bind (c.popTwo side) ?_
    rintro ⟨target, condition⟩ ⟨target', condition'⟩ ⟨ht, hc⟩
    dsimp only
    rw [c.isTruthy_eq hc]
    split
    · refine .bind (.ofExcept (c.address_agree ht)) ?_
      rintro address _ rfl
      exact .pure (.jump address)
    · exact .pure .advance
  | jump =>
    refine .bind (c.pop side) fun target target' ht => ?_
    refine .bind (.ofExcept (c.address_agree ht)) ?_
    rintro address _ rfl
    exact .pure (.jump address)
  | exit => exact .pure .exit
  | print => exact .bind (c.pop side) fun v v' hv => .pure (.print rfl hv)
  | trace => exact fun d d' hd => .ok (.trace rfl hd) hd

/-- Corresponding instructions do corresponding things. -/
theorem instruction (i : Instruction) :
    Parallel c.deques (c.Nexts i) i.perform (i.onSide c.side).perform := by
  cases i with
  | landmark => exact .pure .advance
  | apply side op => exact c.opcode side op
  | push side operand =>
    have hvalue : Agree c.values operand.value operand.value := by
      cases operand with
      | known n => exact .ok (c.refl (.int n))
      | overflow => exact .error rfl
      | undefined => exact .error rfl
    refine .bind (.ofExcept hvalue) fun v v' hv => ?_
    exact .bind (c.push side hv) fun _ _ _ => .pure .advance

/-! ## §3 Machines -/

/-- Token by token, the second program does what corresponds to the first. -/
structure Programs (p p' : Program) : Prop where
  code : ∀ a, p'.instruction? a = (p.instruction? a).map (Instruction.onSide c.side)
  text : ∀ a t, p.token? a = some t → ∃ t', p'.token? a = some t' ∧ t'.text = c.text t.text

/-- Programs correspond if their tokens do, one by one. -/
theorem programs_of_tokens {c : Correspondence} {tokens : List Token} {labels labels' : Labels}
    {image : Token → Token}
    (hcode : ∀ t ∈ tokens, (image t).instruction labels' = (t.instruction labels).onSide c.side)
    (htext : ∀ t ∈ tokens, (image t).text = c.text t.text) :
    c.Programs { tokens := tokens.toArray, labels := labels }
      { tokens := (tokens.map image).toArray, labels := labels' } where
  code a := by
    rw [Program.instruction?_eq, Program.instruction?_eq]
    simp only [Program.token?, List.getElem?_toArray, List.getElem?_map]
    cases ht : tokens[a]? with
    | none => rfl
    | some t => exact congrArg some (hcode t (List.mem_of_getElem? ht))
  text a t ht := by
    simp only [Program.token?, List.getElem?_toArray, List.getElem?_map] at ht ⊢
    rw [ht]
    exact ⟨image t, rfl, htext t (List.mem_of_getElem? ht)⟩

/-- What the two machines tell, `i` being the instruction behind the first one. It is
the same, but for the token of a fault and for the lines. -/
inductive Events (i : Option Instruction) : Event → Event → Prop
  | running : Events i .running .running
  | stopped : Events i .stopped .stopped
  | exit : Events i .exit .exit
  | failed (f : Fault) : Events i (.failed f) (.failed { f with token := f.token.map c.text })
  | print {s : Option Side} {v v' : Value} (hi : i = some (.apply s .print))
      (h : c.values v v') : Events i (.line v.text) (.line v'.text)
  | trace {s : Option Side} {d d' : Deque Value} (hi : i = some (.apply s .trace))
      (h : c.deques d d') : Events i (.line d.row) (.line d'.row)

end Correspondence

namespace Machine

/-- The machines run these programs without tracing, are at the same address in the
same condition, and have corresponding deques. -/
structure Alike (c : Correspondence) (p p' : Program) (m m' : Machine) : Prop where
  program : m.program = p
  program' : m'.program = p'
  tracing : m.tracing = false
  tracing' : m'.tracing = false
  deque : c.deques m.deque m'.deque
  ip : m'.ip = m.ip
  stopped : m'.stopped = m.stopped
  interrupted : m'.interrupted = m.interrupted

namespace Alike

variable {c : Correspondence} {p p' : Program} {m m' : Machine}

theorem tokenText_eq (hp : c.Programs p p') (h : Alike c p p' m m') {i : Instruction}
    (hi : m.program.instruction? m.ip = some i) :
    m'.tokenText m'.ip = c.text (m.tokenText m.ip) := by
  rw [Program.instruction?_eq] at hi
  obtain ⟨t, ht, -⟩ := Option.map_eq_some_iff.mp hi
  obtain ⟨t', ht', htext⟩ := hp.text m.ip t (by rw [← h.program, ht])
  simp [tokenText, h.program', h.ip, ht, ht', htext]

/-- After corresponding results the machines are alike and tell the same. -/
theorem settle (hp : c.Programs p p') (h : Alike c p p' m m') {i : Instruction}
    (hi : m.program.instruction? m.ip = some i)
    {r r' : EStateM.Result Fault (Deque Value) Next}
    (hr : Likewise c.deques (c.Nexts i) r r') :
    Alike c p p' (m.settle r).2 (m'.settle r').2 ∧
      c.Events (m.settle r).2.behind (m.settle r).1 (m'.settle r').1 := by
  have htext := tokenText_eq hp h hi
  obtain ⟨hprog, hprog', htr, htr', -, hip, hstop, hint⟩ := h
  have hnext : m'.ip + 1 = m.ip + 1 := by rw [hip]
  cases hr with
  | ok hresult hd =>
    cases hresult with
    | advance => exact ⟨⟨hprog, hprog', htr, htr', hd, hnext, hstop, hint⟩, .running⟩
    | jump address => exact ⟨⟨hprog, hprog', htr, htr', hd, rfl, hstop, hint⟩, .running⟩
    | exit => exact ⟨⟨hprog, hprog', htr, htr', hd, hip, rfl, hint⟩, .exit⟩
    | print hprint hv =>
      exact ⟨⟨hprog, hprog', htr, htr', hd, hnext, hstop, hint⟩,
        .print (hi.trans (congrArg some hprint)) hv⟩
    | trace htrace hrow =>
      exact ⟨⟨hprog, hprog', htr, htr', hd, hnext, hstop, hint⟩,
        .trace (hi.trans (congrArg some htrace)) hrow⟩
  | @error f d d' hf hd =>
    refine ⟨⟨hprog, hprog', htr, htr', hd, hip, rfl, hint⟩, ?_⟩
    have hfault : f.located m'.ip (m'.tokenText m'.ip) =
        { f.located m.ip (m.tokenText m.ip) with
          token := (f.located m.ip (m.tokenText m.ip)).token.map c.text } := by
      rw [htext, hip]
      simp [Fault.located, hf]
    simp only [Machine.settle, hfault]
    exact .failed _

theorem tick (hp : c.Programs p p') (h : Alike c p p' m m') :
    Alike c p p' m.tick.2 m'.tick.2 ∧ c.Events m.tick.2.behind m.tick.1 m'.tick.1 := by
  have hcode : m'.program.instruction? m'.ip =
      (m.program.instruction? m.ip).map (Instruction.onSide c.side) := by
    rw [h.program, h.program', h.ip, hp.code]
  cases hi : m.program.instruction? m.ip with
  | none =>
    rw [hi] at hcode
    have hend : m.finish = (.stopped, { m with stopped := true }) := by simp [finish, h.tracing]
    have hend' : m'.finish = (.stopped, { m' with stopped := true }) := by
      simp [finish, h.tracing']
    rw [tick_of_none hi, tick_of_none hcode, hend, hend']
    exact ⟨⟨h.program, h.program', h.tracing, h.tracing', h.deque, h.ip, rfl, h.interrupted⟩,
      .stopped⟩
  | some i =>
    rw [hi] at hcode
    rw [tick_of_some hi (by simp [h.tracing]), tick_of_some hcode (by simp [h.tracing'])]
    exact settle hp h hi (c.instruction i _ _ h.deque)

theorem cycle (hp : c.Programs p p') (h : Alike c p p' m m') (budget : Nat) :
    Alike c p p' (m.cycle budget).2 (m'.cycle budget).2 ∧
      c.Events (m.cycle budget).2.behind (m.cycle budget).1 (m'.cycle budget).1 := by
  induction budget generalizing m m' with
  | zero => exact ⟨h, .running⟩
  | succ budget ih =>
    obtain ⟨halike, hevents⟩ := tick hp h
    rw [Machine.cycle, Machine.cycle]
    cases hx : m.tick with
    | mk event m₁ =>
      cases hy : m'.tick with
      | mk event' m₁' =>
        rw [hx, hy] at halike hevents
        -- Both cycles are silent, or both tell something and end the budget.
        cases hevents with
        | running => exact ih halike
        | stopped => exact ⟨halike, .stopped⟩
        | exit => exact ⟨halike, .exit⟩
        | failed f => exact ⟨halike, .failed f⟩
        | print hprint hv => exact ⟨halike, .print hprint hv⟩
        | trace htrace hd => exact ⟨halike, .trace htrace hd⟩

theorem execute (hp : c.Programs p p') (h : Alike c p p' m m') (budget : Nat) :
    Alike c p p' (m.execute budget).2 (m'.execute budget).2 ∧
      c.Events (m.execute budget).2.behind (m.execute budget).1 (m'.execute budget).1 := by
  unfold Machine.execute
  rw [h.stopped, h.interrupted]
  split
  · exact ⟨h, .stopped⟩
  · split
    · refine ⟨⟨h.program, h.program', h.tracing, h.tracing', h.deque, h.ip, rfl, rfl⟩, ?_⟩
      rw [h.ip]
      exact .failed _
    · exact cycle hp h budget

/-- **Alike machines in a session**: whatever calls are made on both, after each of
them the machines are alike again and have told the same. -/
theorem session (hp : c.Programs p p') (h : Alike c p p' m m') (calls : List Call) :
    List.Forall₂
      (fun a a' => Alike c p p' a.2 a'.2 ∧ Option.Rel (c.Events a.2.behind) a.1 a'.1)
      (m.session calls) (m'.session calls) := by
  induction calls generalizing m m' with
  | nil => exact .nil
  | cons call calls ih =>
    cases call with
    | execute budget =>
      obtain ⟨halike, hevents⟩ := execute hp h budget
      exact .cons ⟨halike, .some hevents⟩ (ih halike)
    | interrupt =>
      have halike : Alike c p p' m.interrupt m'.interrupt :=
        ⟨h.program, h.program', h.tracing, h.tracing', h.deque, h.ip, h.stopped, rfl⟩
      exact .cons ⟨halike, .none⟩ (ih halike)

end Alike

end Machine

end TwoEnded
