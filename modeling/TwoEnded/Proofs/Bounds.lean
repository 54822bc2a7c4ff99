/-
TwoEnded.Proofs.Bounds — the machine stays within its bounds.

## §1 Labels

A program that has been loaded has its labels at addresses of its own tokens, so that
the value of a label is its address and not what is left of it in 64 bits.

## §2 Bounds

The deque holds at most `Deque.capacity` values, and the next instruction is at an
address that a 64-bit integer can name. The address grows by one only where there is
an instruction, hence below the size of the program, and a jump takes it from a value.
-/
import TwoEnded.Proofs.Arithmetic
import TwoEnded.Proofs.Effects
import TwoEnded.Proofs.Reach

namespace TwoEnded

/-! ## §1 Labels -/

/-- The largest 64-bit integer as an address, 2 to the 63rd less one. -/
def lastAddress : Nat := 9223372036854775807

theorem Labels.lt_of_collect {labels labels' : Labels} {address : Nat} {tokens : List Token}
    (h : collect labels address tokens = .ok labels')
    (hlabels : ∀ (name : String) (a : Nat), labels[name]? = some a → a < address) :
    ∀ (name : String) (a : Nat), labels'[name]? = some a → a < address + tokens.length := by
  induction tokens generalizing labels address with
  | nil =>
    cases h
    simpa using hlabels
  | cons token rest ih =>
    have hlength : address + (token :: rest).length = address + 1 + rest.length := by
      simp only [List.length_cons]
      omega
    rw [hlength]
    simp only [collect] at h
    split at h
    · refine ih h fun name a ha => ?_
      have := hlabels name a ha
      omega
    · next name _ =>
      split at h
      · cases h
      · refine ih h fun other a ha => ?_
        rw [Std.TreeMap.getElem?_insert] at ha
        split at ha
        · cases ha
          omega
        · have := hlabels other a ha
          omega

/-- The labels of a program that has been loaded are addresses of its tokens. -/
theorem Program.label?_lt_size {tokens : List Token} {p : Program}
    (hload : Program.load tokens = .ok p) {name : String} {a : Nat}
    (h : p.label? name = some a) : a < p.size := by
  unfold load at hload
  split at hload
  · next labels hcollect =>
    cases hload
    have hlt := Labels.lt_of_collect hcollect (by simp) name a h
    simpa [size] using hlt
  · cases hload

/-- In a program of a size that 64 bits can count, the word for a label is its address. -/
theorem Program.toInt_of_label? {tokens : List Token} {p : Program}
    (hload : Program.load tokens = .ok p) (hsize : p.size ≤ lastAddress) {name : String} {a : Nat}
    (h : p.label? name = some a) : (Int64.ofNat a).toInt = a := by
  have hlt := label?_lt_size hload h
  apply Int64.toInt_ofNat_of_lt
  simp only [lastAddress] at hsize
  omega

theorem Labels.operand_of_label {labels : Labels} {word : String} {a : Nat}
    (hword : Numeral.read word.toList = .notNumeral) (h : labels[word]? = some a)
    (ha : a ≤ lastAddress) :
    ∃ n : Int64, labels.operand word = .known n ∧ n.toInt = a := by
  refine ⟨Int64.ofNat a, by simp [operand, hword, h], ?_⟩
  apply Int64.toInt_ofNat_of_lt
  simp only [lastAddress] at ha
  omega

/-! ## §2 Bounds -/

/-- The address that a value names is the value, and no larger than 64 bits allow. -/
theorem Value.address_eq_ok {v : Value} {a : Nat} (h : v.address = .ok a) :
    v.toInt = a ∧ a ≤ lastAddress := by
  have hhigh := Int64.toInt_lt v.word
  unfold address at h
  split at h
  · cases h
  · cases h
    simp only [toInt, lastAddress] at *
    omega

namespace Machine

/-- The machine runs this program, and neither its deque nor its address has left its
bounds. -/
structure Bounded (p : Program) (m : Machine) : Prop where
  program : m.program = p
  room : m.deque.Roomy
  ip : m.ip ≤ lastAddress

/-- A machine that has an instruction to perform is at a token of its program. -/
theorem ip_lt_size {m : Machine} {i : Instruction} (h : m.program.instruction? m.ip = some i) :
    m.ip < m.program.size := by
  simpa [Program.token?, Program.size] using Program.token?_of_instruction? h

/-- A performance leaves the bounds only if the program is too large. -/
theorem Bounded.settle {p : Program} {m : Machine} {i : Instruction} (h : Bounded p m)
    (hsize : p.size ≤ lastAddress) (hi : m.program.instruction? m.ip = some i) :
    Bounded p (m.settle (i.perform m.deque)).2 := by
  have hnext : m.ip + 1 ≤ lastAddress := by
    have := ip_lt_size hi
    rw [h.program] at this
    omega
  have hkeeps := i.keeps Deque.stable_roomy m.deque h.room
  cases hr : i.perform m.deque with
  | error f d =>
    rw [hr] at hkeeps
    exact ⟨h.program, hkeeps.1, h.ip⟩
  | ok next d =>
    rw [hr] at hkeeps
    cases next with
    | advance => exact ⟨h.program, hkeeps, hnext⟩
    | say line => exact ⟨h.program, hkeeps, hnext⟩
    | exit => exact ⟨h.program, hkeeps, h.ip⟩
    | jump address =>
      obtain ⟨s, op, v, e, -, -, -, hvalue⟩ := Instruction.perform_jump hr
      exact ⟨h.program, hkeeps, (Value.address_eq_ok hvalue).2⟩

theorem Bounded.invariant {p : Program} (hsize : p.size ≤ lastAddress) :
    Invariant (Bounded p) where
  tick := by
    intro m h
    obtain ⟨-, ht⟩ | ⟨i, -, -, -, ht⟩ | ⟨i, hi, -, ht⟩ := tick_cases m
    · rw [ht]
      exact ⟨h.program, h.room, h.ip⟩
    · rw [ht]
      exact ⟨h.program, h.room, h.ip⟩
    · rw [ht]
      exact h.settle hsize hi
  condition _ _ h := ⟨h.program, h.room, h.ip⟩

theorem bounded_start (p : Program) (tracing : Bool) : Bounded p (start p tracing) :=
  ⟨rfl, Nat.zero_le _, Nat.zero_le _⟩

/-- What the bounds come to. Where there is an instruction, the address after it fits
into 64 bits, and a jump goes to the very number that it finds on the deque. The value
of a label is its address, and what an operator leaves is the exact number. -/
structure WithinBounds (p : Program) (m : Machine) : Prop where
  program : m.program = p
  room : m.deque.toList.length ≤ Deque.capacity
  integers : ∀ v ∈ m.deque.toList,
    -9223372036854775808 ≤ v.toInt ∧ v.toInt ≤ 9223372036854775807
  ip : m.ip ≤ lastAddress
  advance : ∀ i, p.instruction? m.ip = some i → (UInt64.ofNat m.ip + 1).toNat = m.ip + 1
  jump : ∀ (i : Instruction) (address : Nat) (d : Deque Value), p.instruction? m.ip = some i →
    i.perform m.deque = .ok (.jump address) d →
      ∃ v ∈ m.deque.toList, v.toInt = address ∧ address ≤ lastAddress
  label : ∀ (word : String) (a : Nat), Numeral.read word.toList = .notNumeral →
    p.label? word = some a → ∃ n : Int64, p.labels.operand word = .known n ∧ n.toInt = a
  arithmetic : ∀ (op : Operator) (first second v : Value), op.apply first second = .ok v →
    op.Exact first.toInt second.toInt v.toInt

/-- **The machine stays within its bounds**, whatever calls are made on it, if its program
has been loaded and has fewer than 2 to the 63rd tokens. The machines between the cycles
of one budget are among those that smaller budgets reach. -/
theorem stays_within_bounds {tokens : List Token} {p : Program}
    (hload : Program.load tokens = .ok p) (hsize : p.size ≤ lastAddress) {tracing : Bool}
    {m : Machine} (h : (start p tracing).Reaches m) : WithinBounds p m := by
  have hbounded := (Bounded.invariant hsize).reaches h (bounded_start p tracing)
  have hip := hbounded.ip
  constructor
  case program => exact hbounded.program
  case room =>
    rw [Deque.length_toList]
    exact hbounded.room
  case integers => exact fun v _ => Numeral.fits_iff.mp v.fits_toInt
  case ip => exact hip
  case advance =>
    intro i _
    have hlt : m.ip < UInt64.size := by
      simp only [lastAddress, UInt64.size] at hip ⊢
      omega
    rw [UInt64.toNat_add, UInt64.toNat_ofNat_of_lt' hlt, UInt64.toNat_one]
    simp only [lastAddress] at hip
    omega
  case jump =>
    intro i address d _ hjump
    obtain ⟨s, op, v, e, -, -, htake, hvalue⟩ := Instruction.perform_jump hjump
    exact ⟨v, Deque.mem_of_take? htake, Value.address_eq_ok hvalue⟩
  case label =>
    intro word a hword hlabel
    have hlt := Program.label?_lt_size hload hlabel
    exact Labels.operand_of_label hword hlabel (by omega)
  case arithmetic => exact fun op first second v => Operator.apply_exact

/-- A run that its writer leaves after one line: the machine goes on from there, or is
interrupted. -/
theorem stays_within_bounds_refused_line :
    let tokens : List Token := [⟨"x:"⟩, ⟨"1!"⟩, ⟨"print!"⟩, ⟨"x!"⟩, ⟨"jmp!"⟩]
    let p : Program := { tokens := tokens.toArray, labels := (∅ : Labels).insert "x" 0 }
    let refusing : Writer Nat := ⟨fun _ written => (some "full", written)⟩
    Program.load tokens = .ok p ∧ p.size ≤ lastAddress ∧
      ∃ r : Run Nat, (start p false).run 1 (fun _ => false) refusing 0 = some r ∧
        r.machine.stopped = false ∧ WithinBounds p r.machine ∧
        WithinBounds p (r.machine.execute 9).2 ∧
        WithinBounds p (r.machine.interrupt.execute 0).2 := by
  intro tokens p refusing
  have hload : Program.load tokens = .ok p := rfl
  have hsize : p.size ≤ lastAddress := by decide
  have hrun : ((start p false).run 1 (fun _ => false) refusing 0).map (·.machine.stopped) =
      some false := by decide +kernel
  obtain ⟨r, hr, hstopped⟩ := Option.map_eq_some_iff.mp hrun
  have hreach : (start p false).Reaches r.machine := .run .here hr
  exact ⟨hload, hsize, r, hr, hstopped, stays_within_bounds hload hsize hreach,
    stays_within_bounds hload hsize (hreach.execute 9),
    stays_within_bounds hload hsize (hreach.interrupt.execute 0)⟩

end Machine

end TwoEnded
