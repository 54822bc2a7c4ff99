/-
TwoEnded.Proofs.ForwardJumps — only a jump backwards can make a loop.

## §1 Strides

A `Stride` is an instruction as it was performed: its address and, if it jumped, where to. In a
`Stride.Walk` each stride starts where the one before has led. If none of them jumps backwards,
their addresses increase; if none jumps at all, their addresses are consecutive.

## §2 The strides of a machine

A cycle makes one stride or none (`stride_cases`): it makes none if the machine does not run,
announces its next instruction or is at the end of its program. `m.strides calls` are the strides
of a session. What single cycles do and can be put together, sessions do (`Carried`): their strides
are a walk through the program (`carried_walks`).

## §3 Forward jumps

The addresses of a walk are addresses of the program, so if they increase there are at most as many
as tokens. With tracing there are cycles without a stride; each of them, and each stride that does
not jump backwards, lowers the height of the machine (`height_execute_one`), so that a run without
a jump backwards ends (`runFrom_ends`).

## §4 No jumps

In a program without a jump there is only one way, and a run that comes to the end of the program
has come to the address behind its last token (`Path.ip_of_ended`).
-/
import Mathlib.Data.List.Perm.Subperm
import TwoEnded.Proofs.Bounds
import TwoEnded.Proofs.Finality
import TwoEnded.Proofs.Tracing

namespace TwoEnded

/-! ## §1 Strides -/

/-- An instruction as it was performed: its address, and where it jumped to, if it did. -/
structure Stride where
  address : Nat
  target : Option Nat
  deriving DecidableEq, Repr

namespace Stride

/-- The address after the stride. -/
def next (s : Stride) : Nat := s.target.getD (s.address + 1)

/-- If the stride is a jump, it goes to an address behind its own. -/
def Forward (s : Stride) : Prop := ∀ target ∈ s.target, s.address < target

instance (s : Stride) : Decidable s.Forward :=
  inferInstanceAs (Decidable (∀ target ∈ s.target, s.address < target))

theorem Forward.lt_next {s : Stride} (h : s.Forward) : s.address < s.next := by
  unfold next
  cases htarget : s.target with
  | none => exact Nat.lt_succ_self s.address
  | some target => exact h target htarget

theorem forward_of_target {s : Stride} (h : s.target = none) : s.Forward := by
  simp [Forward, h]

/-- The strides lead from the first address to the second. -/
inductive Walk : Nat → List Stride → Nat → Prop
  | here (a : Nat) : Walk a [] a
  | step {s : Stride} {l : List Stride} {b : Nat} (rest : Walk s.next l b) :
      Walk s.address (s :: l) b

namespace Walk

variable {a b c : Nat} {l l' : List Stride}

theorem append (h : Walk a l b) (h' : Walk b l' c) : Walk a (l ++ l') c := by
  induction h with
  | here _ => exact h'
  | step _ ih => exact .step (ih h')

/-- No stride of a walk without a jump backwards is before its beginning. -/
theorem le_of_mem (h : Walk a l b) (hforward : ∀ s ∈ l, s.Forward) : ∀ s ∈ l, a ≤ s.address := by
  induction h with
  | here _ => simp
  | @step first l b _ ih =>
    rw [List.forall_mem_cons] at hforward ⊢
    refine ⟨Nat.le_refl _, fun s hs => ?_⟩
    exact Nat.le_trans (Nat.le_of_lt hforward.1.lt_next) (ih hforward.2 s hs)

/-- The addresses of a walk without a jump backwards increase. -/
theorem increasing (h : Walk a l b) (hforward : ∀ s ∈ l, s.Forward) :
    (l.map address).Pairwise (· < ·) := by
  induction h with
  | here _ => exact .nil
  | @step first l b rest ih =>
    rw [List.forall_mem_cons] at hforward
    rw [List.map_cons, List.pairwise_cons, List.forall_mem_map]
    refine ⟨fun s hs => ?_, ih hforward.2⟩
    exact Nat.lt_of_lt_of_le hforward.1.lt_next (rest.le_of_mem hforward.2 s hs)

/-- The addresses of a walk without jumps are consecutive. -/
theorem consecutive (h : Walk a l b) (htargets : ∀ s ∈ l, s.target = none) :
    l.map address = List.range' a l.length := by
  induction h with
  | here _ => rfl
  | @step first l b rest ih =>
    rw [List.forall_mem_cons] at htargets
    have hnext : first.next = first.address + 1 := by simp [next, htargets.1]
    rw [List.map_cons, List.length_cons, List.range'_succ, ih htargets.2, hnext]

end Walk

end Stride

/-! ## §2 The strides of a machine -/

namespace Machine

/-- Where an instruction that has come to this result jumps to. -/
def jumpTarget : EStateM.Result Fault (Deque Value) Next → Option Nat
  | .ok (.jump address) _ => some address
  | _ => none

/-- The stride that the machine makes in its next cycle. -/
def stride? (m : Machine) : Option Stride :=
  if m.stopped || m.interrupted || (m.tracing && !m.announced) then none
  else (m.program.instruction? m.ip).map fun i => ⟨m.ip, jumpTarget (i.perform m.deque)⟩

/-- The strides that the machine makes with a budget, up to its first event. -/
def budgetStrides (m : Machine) : Nat → List Stride
  | 0 => []
  | budget + 1 =>
    m.stride?.toList ++
      match m.execute 1 with
      | (.running, m') => m'.budgetStrides budget
      | _ => []

/-- The strides that the machine makes in a session. -/
def strides (m : Machine) : List Call → List Stride
  | [] => []
  | .execute budget :: calls => m.budgetStrides budget ++ (m.execute budget).2.strides calls
  | .interrupt :: calls => m.interrupt.strides calls

/-- The machine after a session. -/
def afterCalls (m : Machine) : List Call → Machine
  | [] => m
  | call :: calls => (m.answer call).2.afterCalls calls

theorem stride?_of_stopped {m : Machine} (h : m.stopped = true) : m.stride? = none := by
  simp [stride?, h]

theorem stride?_of_interrupted {m : Machine} (h : m.interrupted = true) : m.stride? = none := by
  simp [stride?, h]

theorem program_execute (m : Machine) (budget : Nat) :
    (m.execute budget).2.program = m.program :=
  ((invariant_program m.program m.tracing).execute ⟨rfl, rfl⟩ budget).1

/-- Where a machine is after the performance of an instruction. -/
theorem settle_ip (m : Machine) (r : EStateM.Result Fault (Deque Value) Next) :
    (m.settle r).2.stopped = true ∧ (m.settle r).2.ip = m.ip ∨
      (m.settle r).2.ip = Stride.next ⟨m.ip, jumpTarget r⟩ := by
  cases r with
  | error f d => exact .inl ⟨rfl, rfl⟩
  | ok next d =>
    cases next with
    | exit => exact .inl ⟨rfl, rfl⟩
    | _ => exact .inr rfl

/-- What a cycle does to the address of a machine that runs. -/
theorem stride_cases {m : Machine} (hs : m.stopped = false) (hi : m.interrupted = false) :
    (m.stride? = none ∧ (m.execute 1).2.ip = m.ip ∧ ((m.execute 1).2.stopped = true ∨
      m.announced = false ∧ (m.execute 1).2.announced = true)) ∨
    ∃ s, m.stride? = some s ∧ s.address = m.ip ∧
      ((m.execute 1).2.stopped = true ∧ (m.execute 1).2.ip = m.ip ∨
        (m.execute 1).2.ip = s.next) := by
  rw [execute_one hs hi]
  obtain ⟨hnone, ht⟩ | ⟨i, -, htr, hann, ht⟩ | ⟨i, hsome, hann, ht⟩ := tick_cases m
  · exact .inl ⟨by simp [stride?, hnone], by rw [ht, finish], .inl (by rw [ht, finish])⟩
  · refine .inl ⟨by simp [stride?, htr, hann], by rw [ht, announce], .inr ⟨hann, ?_⟩⟩
    rw [ht, announce]
  · refine .inr ⟨⟨m.ip, jumpTarget (i.perform m.deque)⟩, ?_, rfl, ?_⟩
    · rw [stride?, hs, hi, hann, hsome]
      rfl
    · rw [ht]
      exact m.settle_ip (i.perform m.deque)

/-- A stride is made by the instruction at its address. -/
theorem stride?_eq_some {m : Machine} {s : Stride} (h : m.stride? = some s) :
    ∃ i, m.program.instruction? m.ip = some i ∧ s = ⟨m.ip, jumpTarget (i.perform m.deque)⟩ := by
  unfold stride? at h
  split at h
  · cases h
  · obtain ⟨i, hi, rfl⟩ := Option.map_eq_some_iff.mp h
    exact ⟨i, hi, rfl⟩

theorem address_lt_size {m : Machine} {s : Stride} (h : m.stride? = some s) :
    s.address < m.program.size := by
  obtain ⟨i, hi, rfl⟩ := stride?_eq_some h
  exact ip_lt_size hi

/-- The relation holds for single cycles and for changes of the machine's condition that do not
set it going again, and it can be put together. -/
structure Carried (R : Machine → List Stride → Machine → Prop) : Prop where
  cycle : ∀ m : Machine, R m m.stride?.toList (m.execute 1).2
  condition : ∀ (m : Machine) (stopped interrupted : Bool), (m.stopped = true → stopped = true) →
    R m [] { m with stopped := stopped, interrupted := interrupted }
  trans : ∀ {m₁ m₂ m₃ : Machine} {first second : List Stride}, R m₁ first m₂ → R m₂ second m₃ →
    R m₁ (first ++ second) m₃

namespace Carried

variable {R : Machine → List Stride → Machine → Prop} (hR : Carried R)

include hR

theorem refl (m : Machine) : R m [] m := hR.condition m m.stopped m.interrupted id

theorem execute (m : Machine) (budget : Nat) :
    R m (m.budgetStrides budget) (m.execute budget).2 := by
  induction budget generalizing m with
  | zero =>
    unfold Machine.execute
    split
    · exact hR.refl m
    · split
      · exact hR.condition m true false fun _ => rfl
      · exact hR.refl m
  | succ budget ih =>
    have hcycle := hR.cycle m
    rw [budgetStrides, Nat.add_comm, execute_add]
    cases hx : m.execute 1 with
    | mk event m₁ =>
      rw [hx] at hcycle
      cases event with
      | running => exact hR.trans hcycle (ih m₁)
      | _ => exact hR.trans hcycle (hR.refl m₁)

theorem session (m : Machine) (calls : List Call) : R m (m.strides calls) (m.afterCalls calls) := by
  induction calls generalizing m with
  | nil => exact hR.refl m
  | cons call calls ih =>
    cases call with
    | execute budget => exact hR.trans (hR.execute m budget) (ih _)
    | interrupt => exact hR.trans (hR.condition m m.stopped true id) (ih _)

end Carried

/-- The strides from the first machine to the second are a walk through the program, and a machine
that has stopped makes none. -/
structure Walks (m : Machine) (l : List Stride) (m' : Machine) : Prop where
  program : m'.program = m.program
  still : m.stopped = true → l = [] ∧ m'.stopped = true
  made : ∀ s ∈ l, ∃ n : Machine, n.program = m.program ∧ n.stride? = some s
  walk : ∃ b, Stride.Walk m.ip l b ∧ (m'.stopped = true ∨ m'.ip = b)

namespace Walks

variable {m m₁ m₂ m₃ m' : Machine} {first second l : List Stride}

theorem of_still (hprogram : m'.program = m.program)
    (hstopped : m.stopped = true → m'.stopped = true) (hip : m'.ip = m.ip) : Walks m [] m' where
  program := hprogram
  still h := ⟨rfl, hstopped h⟩
  made := by simp
  walk := ⟨m.ip, .here m.ip, .inr hip⟩

theorem trans (h : Walks m₁ first m₂) (h' : Walks m₂ second m₃) :
    Walks m₁ (first ++ second) m₃ := by
  constructor
  case program => exact h'.program.trans h.program
  case still =>
    intro hs
    obtain ⟨rfl, hs₂⟩ := h.still hs
    exact h'.still hs₂
  case made =>
    intro s hs
    rcases List.mem_append.mp hs with hs | hs
    · exact h.made s hs
    · obtain ⟨n, hprogram, hstride⟩ := h'.made s hs
      exact ⟨n, hprogram.trans h.program, hstride⟩
  case walk =>
    obtain ⟨b, hwalk, hstopped | rfl⟩ := h.walk
    · -- A machine that has stopped makes no more strides.
      obtain ⟨rfl, hstopped'⟩ := h'.still hstopped
      rw [List.append_nil]
      exact ⟨b, hwalk, .inl hstopped'⟩
    · obtain ⟨c, hwalk', hend⟩ := h'.walk
      exact ⟨c, hwalk.append hwalk', hend⟩

theorem execute_one (m : Machine) : Walks m m.stride?.toList (m.execute 1).2 := by
  cases hs : m.stopped with
  | true =>
    rw [stride?_of_stopped hs, execute_of_stopped hs]
    exact .of_still rfl id rfl
  | false =>
    cases hi : m.interrupted with
    | true =>
      rw [stride?_of_interrupted hi, execute_of_interrupted hs hi]
      exact .of_still rfl (fun _ => rfl) rfl
    | false =>
      obtain ⟨hnone, hip, -⟩ | ⟨s, hstride, haddress, hnext⟩ := stride_cases hs hi
      · rw [hnone]
        exact .of_still (program_execute m 1) (by simp [hs]) hip
      · have hwalk : Stride.Walk m.ip [s] s.next := haddress ▸ .step (.here s.next)
        rw [hstride]
        exact ⟨program_execute m 1, by simp [hs], by simpa using ⟨m, rfl, hstride⟩,
          s.next, hwalk, hnext.imp And.left id⟩

/-- Strides whose addresses increase are at most as many as there are tokens. -/
theorem length_le (h : Walks m l m') (hincreasing : (l.map Stride.address).Pairwise (· < ·)) :
    l.length ≤ m.program.size := by
  have hnodup : (l.map Stride.address).Nodup := hincreasing.imp Nat.ne_of_lt
  have hsubset : l.map Stride.address ⊆ List.range m.program.size := by
    intro a ha
    obtain ⟨s, hs, rfl⟩ := List.mem_map.mp ha
    obtain ⟨n, hprogram, hstride⟩ := h.made s hs
    rw [List.mem_range, ← hprogram]
    exact address_lt_size hstride
  simpa using (List.subperm_of_subset hnodup hsubset).length_le

end Walks

theorem carried_walks : Carried Walks where
  cycle := .execute_one
  condition _ _ _ hstopped := .of_still rfl hstopped rfl
  trans := .trans

/-! ## §3 Forward jumps -/

/-- How far a machine is from its end: what is left of the program counts twice, since an
instruction may be announced before it is performed. -/
def height (m : Machine) : Nat :=
  2 * (m.program.size - m.ip) + (!m.announced).toNat + 2 * (!m.stopped).toNat

/-- Every cycle of a machine that runs lowers its height, unless it jumps backwards. -/
theorem height_execute_one {m : Machine} (hs : m.stopped = false) (hi : m.interrupted = false)
    (hforward : ∀ s ∈ m.stride?, s.Forward) : (m.execute 1).2.height < m.height := by
  have hbefore := Bool.toNat_le (!m.announced)
  have hafter := Bool.toNat_le (!(m.execute 1).2.announced)
  have hrunning := Bool.toNat_le (!(m.execute 1).2.stopped)
  simp only [height, program_execute, hs, Bool.not_false, Bool.toNat_true]
  obtain ⟨-, hip, hstopped | ⟨hann, hann'⟩⟩ | ⟨s, hstride, haddress, ⟨hstopped, hip⟩ | hip⟩ :=
    stride_cases hs hi
  · rw [hip, hstopped, Bool.not_true, Bool.toNat_false]
    omega
  · rw [hip, hann, hann', Bool.not_true, Bool.toNat_false, Bool.not_false, Bool.toNat_true]
    omega
  · rw [hip, hstopped, Bool.not_true, Bool.toNat_false]
    omega
  · have hlt := address_lt_size hstride
    have hup := (hforward s hstride).lt_next
    omega

/-- A stopped machine is not set going, so no height is won. -/
theorem carried_height : Carried fun m l m' => (∀ s ∈ l, s.Forward) → m'.height ≤ m.height where
  cycle m hforward := by
    cases hs : m.stopped with
    | true => exact Nat.le_of_eq (by rw [execute_of_stopped hs])
    | false =>
      cases hi : m.interrupted with
      | true =>
        rw [execute_of_interrupted hs hi]
        simp [height]
      | false => exact Nat.le_of_lt (height_execute_one hs hi (by simpa using hforward))
  condition m stopped interrupted hstopped _ := by
    cases hs : m.stopped with
    | true => simp [height, hs, hstopped hs]
    | false =>
      have hbit := Bool.toNat_le (!stopped)
      simp [height, hs]
      omega
  trans h h' hforward :=
    Nat.le_trans (h' fun s hs => hforward s (List.mem_append_right _ hs))
      (h fun s hs => hforward s (List.mem_append_left _ hs))

/-- Every budget but the empty one lowers the height of a machine that runs. -/
theorem height_execute {m : Machine} (hs : m.stopped = false) (hi : m.interrupted = false)
    {budget : Nat} (hforward : ∀ s ∈ m.budgetStrides (budget + 1), s.Forward) :
    (m.execute (budget + 1)).2.height < m.height := by
  rw [budgetStrides] at hforward
  have hcycle := height_execute_one hs hi fun s hstride =>
    hforward s (List.mem_append_left _ (by simpa using hstride))
  rw [Nat.add_comm, execute_add]
  cases hx : m.execute 1 with
  | mk event m₁ =>
    rw [hx] at hcycle hforward
    cases event with
    | running =>
      have hrest := carried_height.execute m₁ budget fun s hstride =>
        hforward s (List.mem_append_right _ hstride)
      exact Nat.lt_of_le_of_lt hrest hcycle
    | _ => exact hcycle

/-- A run without a jump backwards ends. -/
theorem runFrom_ends {m : Machine} (hi : m.stopped = false → m.interrupted = false)
    (hforward : ∀ n, ∀ s ∈ m.strides (List.replicate n (.execute sliceCycles)), s.Forward)
    (asked : Nat) (output : String) :
    ∃ slices r, runFrom Writer.text never slices asked m output = some r := by
  induction hheight : m.height using Nat.strongRecOn generalizing m asked output with
  | ind height ih =>
    cases hs : m.stopped with
    | true =>
      refine ⟨1, ⟨.ok .ended, m, output⟩, ?_⟩
      rw [runFrom, slice_never, execute_of_stopped hs]
    | false =>
      -- The first slice lowers the height, and the strides of the others are among those of `m`.
      have hslice : (m.execute sliceCycles).2.height < height := by
        rw [← hheight]
        refine height_execute hs (hi hs) fun s hstride => hforward 1 s ?_
        exact List.mem_append_left _ hstride
      have hrest : ∀ n, ∀ s ∈ (m.execute sliceCycles).2.strides
          (List.replicate n (.execute sliceCycles)), s.Forward :=
        fun n s hstride => hforward (n + 1) s (List.mem_append_right _ hstride)
      cases hx : m.execute sliceCycles with
      | mk event m₁ =>
        have hi₁ : m₁.stopped = false → m₁.interrupted = false := by
          intro hs₁
          cases execute_aftermath hs (hi hs) hx with
          | running _ _ hi₁ => exact hi₁
          | ended _ hstopped => exact absurd hstopped (by simp [hs₁])
          | ranOff hoff => exact absurd hoff.stopped (by simp [hs₁])
        rw [hx] at hslice hrest
        have hgoes (output : String) := ih _ hslice hi₁ hrest (asked + 1) output rfl
        cases event with
        | running =>
          obtain ⟨slices, r, hr⟩ := hgoes output
          exact ⟨slices + 1, r, by rw [runFrom, slice_never, hx]; exact hr⟩
        | line text =>
          obtain ⟨slices, r, hr⟩ := hgoes (output ++ (text ++ "\n"))
          exact ⟨slices + 1, r, by rw [runFrom, slice_never, hx]; exact hr⟩
        | exit => exact ⟨1, _, by rw [runFrom, slice_never, hx]⟩
        | stopped => exact ⟨1, _, by rw [runFrom, slice_never, hx]⟩
        | failed fault => exact ⟨1, _, by rw [runFrom, slice_never, hx]⟩

end Machine

/-! ## §4 No jumps -/

/-- No token of the program is a jump. -/
def Program.NoJumps (p : Program) : Prop :=
  ∀ t ∈ p.tokens, t.word ≠ "jmp" ∧ t.word ≠ "jmpif"

/-- The opcode of a token is that of its word. -/
theorem Token.word_of_apply {labels : Labels} {t : Token} {side : Option Side} {op : Opcode}
    (h : t.instruction labels = .apply side op) : t.word = op.name := by
  have hsplit : t.split = (t.side, t.word) := rfl
  simp only [instruction, hsplit] at h
  split at h
  · cases h
  · split at h
    · next op' hop =>
      cases h
      exact (Opcode.name_of_ofWord? hop).symm
    · cases h

namespace Machine

/-- In a program without jumps no instruction jumps. -/
theorem jumpTarget_of_noJumps {p : Program} (h : p.NoJumps) {address : Nat} {i : Instruction}
    (hi : p.instruction? address = some i) (d : Deque Value) : jumpTarget (i.perform d) = none := by
  cases hr : i.perform d with
  | error f d => rfl
  | ok next d =>
    cases next with
    | jump target =>
      obtain ⟨s, op, v, e, rfl, hop, -⟩ := Instruction.perform_jump hr
      rw [Program.instruction?_eq, Option.map_eq_some_iff] at hi
      obtain ⟨t, ht, hinstr⟩ := hi
      have hword := Token.word_of_apply hinstr
      obtain ⟨hjump, hjumpIf⟩ := h t (Array.mem_of_getElem? ht)
      rcases hop with rfl | rfl
      · exact absurd hword hjump
      · exact absurd hword hjumpIf
    | _ => rfl

theorem Walks.targets {m m' : Machine} {l : List Stride} (h : Walks m l m')
    (hjumps : m.program.NoJumps) : ∀ s ∈ l, s.target = none := by
  intro s hs
  obtain ⟨n, hprogram, hstride⟩ := h.made s hs
  obtain ⟨i, hi, rfl⟩ := stride?_eq_some hstride
  exact jumpTarget_of_noJumps hjumps (hprogram ▸ hi) n.deque

/-- Without jumps a performance leads to the end of the program at most. -/
theorem perform_ip_le {m m₁ : Machine} {token : Token} {event : Event}
    (h : m.program.token? m.ip = some token)
    (hp : m.perform (token.instruction m.program.labels) = (event, m₁))
    (hjumps : m.program.NoJumps) : m₁.program = m.program ∧ m₁.ip ≤ m.program.size := by
  have hi := instruction?_of_token? h
  have hlt := ip_lt_size hi
  have hprogram := m.settle_program ((token.instruction m.program.labels).perform m.deque)
  have hip := m.settle_ip ((token.instruction m.program.labels).perform m.deque)
  rw [jumpTarget_of_noJumps hjumps hi] at hip
  rw [← perform_eq_settle, hp] at hip hprogram
  refine ⟨hprogram, ?_⟩
  rcases hip with ⟨-, hip⟩ | hip
  · exact Nat.le_trans (Nat.le_of_eq hip) (Nat.le_of_lt hlt)
  · exact Nat.le_trans (Nat.le_of_eq hip) hlt

/-- Without jumps, a machine at the end of its program is at the address behind its last token. -/
theorem Path.ip_of_ended {m m' : Machine} {steps : List Step}
    (h : Path m steps (.ok .ended) m') (hjumps : m.program.NoJumps)
    (hip : m.ip ≤ m.program.size) : m'.ip = m.program.size := by
  generalize hresult : (.ok .ended : Except Fault Outcome) = result at h
  induction h with
  | @ended m h =>
    have hend : m.program.size ≤ m.ip := by simpa [Program.token?, Program.size] using h
    exact Nat.le_antisymm hip hend
  | exit | fault => cases hresult
  | silent h hp _ ih | print h hp _ ih =>
    obtain ⟨hprogram, hip₁⟩ := perform_ip_le h hp hjumps
    rw [← hprogram] at hjumps hip₁ ⊢
    exact ih hjumps hip₁ hresult

/-- **Only backward jumps loop.** The instructions that are performed in a session lead from the
beginning of the program to where the machine is, unless it has stopped.

* If none of them jumps backwards, their addresses increase, so that none is performed twice and
  there are at most as many as tokens.
* A run in which no jump goes backwards ends.
* If the program has no jumps, the instructions that are performed are the first ones of the program
  in their order; the run ends, and if it comes to the end of the program it is at the address
  behind the last token. -/
theorem only_backward_jumps_loop (p : Program) (tracing : Bool) :
    (∀ calls, ∃ b, Stride.Walk 0 ((start p tracing).strides calls) b ∧
      (((start p tracing).afterCalls calls).stopped = true ∨
        ((start p tracing).afterCalls calls).ip = b)) ∧
    (∀ calls, (∀ s ∈ (start p tracing).strides calls, s.Forward) →
      let addresses := ((start p tracing).strides calls).map Stride.address
      addresses.Pairwise (· < ·) ∧ addresses.Nodup ∧ addresses.length ≤ p.size) ∧
    ((∀ n, ∀ s ∈ (start p tracing).strides (List.replicate n (.execute sliceCycles)), s.Forward) →
      ∃ slices r, (start p tracing).run slices never Writer.text "" = some r) ∧
    (p.NoJumps →
      (∀ calls, ∃ k ≤ p.size,
        ((start p tracing).strides calls).map Stride.address = List.range k) ∧
      (∃ slices r, (start p tracing).run slices never Writer.text "" = some r) ∧
      ∀ slices r, (start p tracing).run slices never Writer.text "" = some r →
        r.result = .ok .ended → r.machine.ip = p.size) := by
  have hwalks (calls : List Call) := carried_walks.session (start p tracing) calls
  have hclimbs : ∀ calls, (∀ s ∈ (start p tracing).strides calls, s.Forward) →
      (((start p tracing).strides calls).map Stride.address).Pairwise (· < ·) := by
    intro calls hforward
    obtain ⟨b, hwalk, -⟩ := (hwalks calls).walk
    exact hwalk.increasing hforward
  refine ⟨fun calls => (hwalks calls).walk, fun calls hforward => ?_, fun hforward => ?_,
    fun hjumps => ⟨fun calls => ?_, ?_, ?_⟩⟩
  · have hincreasing := hclimbs calls hforward
    refine ⟨hincreasing, hincreasing.imp Nat.ne_of_lt, ?_⟩
    rw [List.length_map]
    exact (hwalks calls).length_le hincreasing
  · exact runFrom_ends (fun _ => rfl) hforward 0 ""
  · have htargets := (hwalks calls).targets hjumps
    have hforward := fun s hs => Stride.forward_of_target (htargets s hs)
    obtain ⟨b, hwalk, -⟩ := (hwalks calls).walk
    refine ⟨_, (hwalks calls).length_le (hclimbs calls hforward), ?_⟩
    rw [hwalk.consecutive htargets, List.range_eq_range']
    rfl
  · refine runFrom_ends (fun _ => rfl) (fun n s hs => ?_) 0 ""
    exact Stride.forward_of_target ((hwalks _).targets hjumps s hs)
  · intro slices r hrun hended
    obtain ⟨steps, result, n, hpath⟩ := (run_start_iff_path p tracing).mp ⟨slices, r, hrun⟩
    have hr := hpath.run hrun
    subst hr
    change result = .ok .ended at hended
    subst hended
    exact hpath.ip_of_ended hjumps (Nat.zero_le _)

/-- A program that jumps over an `exit`, and one that has no jump. -/
theorem only_backward_jumps_loop_over_exit :
    let p : Program := { tokens := #[⟨"3!"⟩, ⟨"jmp!"⟩, ⟨"exit"⟩, ⟨"4!"⟩], labels := ∅ }
    let q : Program := { tokens := #[⟨"1!"⟩, ⟨"print!"⟩], labels := ∅ }
    ((start p true).strides (List.replicate 9 (.execute 5)) =
        [⟨0, none⟩, ⟨1, some 3⟩, ⟨3, none⟩] ∧
      (((start p true).strides (List.replicate 9 (.execute 5))).map Stride.address).Nodup) ∧
    (∃ slices r, (start p false).run slices never Writer.text "" = some r) ∧
    (∃ k ≤ q.size, ((start q true).strides (List.replicate 9 (.execute 5))).map Stride.address =
      List.range k) ∧
    ∃ r, (start q true).run 9 never Writer.text "" = some r ∧ r.result = .ok .ended ∧
      r.machine.ip = q.size := by
  intro p q
  have hstrides : (start p true).strides (List.replicate 9 (.execute 5)) =
      [⟨0, none⟩, ⟨1, some 3⟩, ⟨3, none⟩] := by decide +kernel
  have hfirst : ∀ s ∈ (start p false).budgetStrides sliceCycles, s.Forward := by decide +kernel
  have hstopped : ((start p false).execute sliceCycles).2.stopped = true := by decide +kernel
  have hjumps : q.NoJumps := by
    unfold Program.NoJumps
    decide +kernel
  have hended : ((start q true).run 9 never Writer.text "").map Run.result = some (.ok .ended) := by
    decide +kernel
  obtain ⟨r, hrun, hresult⟩ := Option.map_eq_some_iff.mp hended
  refine ⟨⟨hstrides, ?_⟩, ?_, (only_backward_jumps_loop q true).2.2.2 hjumps |>.1 _,
    r, hrun, hresult, ((only_backward_jumps_loop q true).2.2.2 hjumps).2.2 9 r hrun hresult⟩
  · exact ((only_backward_jumps_loop p true).2.1 _ (by rw [hstrides]; decide)).2.1
  · refine (only_backward_jumps_loop p false).2.2.1 fun n s hs => ?_
    cases n with
    | zero => cases hs
    | succ n =>
      rcases List.mem_append.mp hs with hs | hs
      · exact hfirst s hs
      · rw [((carried_walks.session _ _).still hstopped).1] at hs
        cases hs

end Machine

end TwoEnded
