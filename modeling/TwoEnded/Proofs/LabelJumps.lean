/-
TwoEnded.Proofs.LabelJumps — a jump to a label lands on its definition and falls through it.

## §1 Tokens

The table of a program that has been loaded has each label at the address of the token that defines
it (`Program.token?_of_label?`). This token does nothing when it is reached, unless its name begins
with a mark. A token with the name and a mark adds the address, unless the name is reserved or
begins like a numeral.

## §2 Jumps

`Machine.GoesTo`: the machine has come to an address after so many cycles, in which it had nothing
to tell. A jump to a label is the chain of three such steps: the label is added, the jump takes it
away and goes there, and the definition is passed.
-/
import TwoEnded.Proofs.Ends
import TwoEnded.Proofs.LabelTable
import TwoEnded.Proofs.Operands

namespace TwoEnded

/-! ## §1 Tokens -/

namespace Token

/-- The definition of a label has no mark, unless its name begins with one. -/
theorem side_of_definition {name : String} (h : name.toList.head? ≠ some '!') :
    Token.side ⟨name ++ ":"⟩ = none := by
  have htext : (name ++ ":").toList = name.toList ++ [':'] := by simp
  obtain ⟨w, hw, -⟩ | ⟨w, hw, -, -⟩ | hsplit := split_cases ⟨name ++ ":"⟩
  · exfalso
    rw [htext] at hw
    cases hname : name.toList with
    | nil =>
      rw [hname] at hw
      cases hw
    | cons x rest =>
      rw [hname] at hw h
      cases hw
      exact h rfl
  · have hcolon := List.append_inj_right' (htext.symm.trans hw) rfl
    cases hcolon
  · rw [side, hsplit]

/-- A definition without a mark does nothing. -/
theorem instruction_of_definition (labels : Labels) {name : String}
    (h : name.toList.head? ≠ some '!') :
    Token.instruction labels ⟨name ++ ":"⟩ = .landmark := by
  have hlabel : Token.label? ⟨name ++ ":"⟩ = some name := label?_eq_some_iff.mpr rfl
  have hsplit : Token.split ⟨name ++ ":"⟩ = (none, Token.word ⟨name ++ ":"⟩) :=
    Prod.ext (side_of_definition h) rfl
  simp [instruction, hsplit, hlabel]

end Token

/-- A label is at the address of the token that defines it. -/
theorem Program.token?_of_label? {tokens : List Token} {p : Program}
    (hload : Program.load tokens = .ok p) {name : String} {i : Nat} (h : p.label? name = some i) :
    p.token? i = some ⟨name ++ ":"⟩ := by
  obtain ⟨labels, hlists, hok⟩ | ⟨_, _, _, -, herror⟩ := load_cases tokens
  · rw [hok] at hload
    cases hload
    simpa [token?] using (hlists name i).mp h
  · rw [herror] at hload
    cases hload

/-! ## §2 Jumps -/

namespace Machine

variable {p : Program} {s : Side} {m : Machine} {ip : Nat} {stack : List Value}

/-- After so many cycles, in which it has had nothing to tell, the machine stands at the address. -/
def GoesTo (p : Program) (s : Side) (m : Machine) (cycles ip : Nat) (stack : List Value) : Prop :=
  ∃ m', m.execute cycles = (.running, m') ∧ Stands p s m' ip stack

theorem GoesTo.trans {first second : Nat} {ip' : Nat} {stack' : List Value}
    (h : GoesTo p s m first ip stack)
    (hnext : ∀ m', Stands p s m' ip stack → GoesTo p s m' second ip' stack') :
    GoesTo p s m (first + second) ip' stack' := by
  obtain ⟨m', hfirst, hstands⟩ := h
  obtain ⟨m'', hsecond, hstands'⟩ := hnext m' hstands
  refine ⟨m'', ?_, hstands'⟩
  rw [execute_add, hfirst]
  exact hsecond

section Label

variable {tokens : List Token} {x : String} {i : Nat} (hload : Program.load tokens = .ok p)
  (hlabel : p.label? x = some i)

include hload hlabel

/-- A token with the name of a label adds the address of the label. -/
theorem Stands.push_label (hsize : p.size ≤ lastAddress) (hreserved : Opcode.ofWord? x = none)
    (hnumeral : Numeral.begins x.toList = false) (h : Stands p s m ip stack)
    (hroom : stack.length < Deque.capacity) {t : Token} (ht : p.token? ip = some t)
    (hx : t.split = (some s, x)) :
    ∃ v : Value, v.address = .ok i ∧ GoesTo p s m 1 (ip + 1) (v :: stack) := by
  have hread := Numeral.read_of_begins_eq_false hnumeral
  have hle : i ≤ lastAddress := by
    have hlt := Program.label?_lt_size hload hlabel
    omega
  obtain ⟨n, hoperand, hn⟩ := Labels.operand_of_label hread hlabel hle
  refine ⟨.int n, ?_, h.advance ht ?_⟩
  · have hvalue : (Value.int n).toInt = i := hn
    rw [Value.address, hvalue, if_neg (by omega), Int.toNat_natCast]
  · rw [Token.instruction_of_operand p.labels hx hreserved, hoperand]
    exact Instruction.yields_push hroom

/-- The machine falls through the definition of a label. -/
theorem Stands.pass_label (hmark : x.toList.head? ≠ some '!') (h : Stands p s m i stack) :
    GoesTo p s m 1 (i + 1) stack := by
  apply h.advance (Program.token?_of_label? hload hlabel)
  rw [Token.instruction_of_definition p.labels hmark]
  exact .pure _

end Label

/-- **A jump to a label lands on its definition and falls through it.** Let a program have been
loaded that has the label `x` at the address `i`; the name neither begins with a mark nor like a
numeral, and it is not reserved. (The addresses of the program are numbers of 64 bits, as they are
of any program that fits into memory.) Let a machine stand before a token that refers to `x` at one
of the ends, with room on its deque.

* If `jmp` at the same end follows, then after two cycles the machine is at the address `i`, and
  after three it is at the next one, each time with the deque that it had.
* If `jmpif` follows, and the value at the end is true, then it is the same, and the value is gone.
  If the value is false, then after two cycles the value is gone, and the machine is at the word
  behind the `jmpif`. -/
theorem label_jump_lands {tokens : List Token} (hload : Program.load tokens = .ok p)
    (hsize : p.size ≤ lastAddress) {x : String} {i : Nat} (hlabel : p.label? x = some i)
    (hmark : x.toList.head? ≠ some '!') (hreserved : Opcode.ofWord? x = none)
    (hnumeral : Numeral.begins x.toList = false) (h : Stands p s m ip stack)
    (hroom : stack.length < Deque.capacity) {reference jump : Token}
    (hreference : p.token? ip = some reference) (hx : reference.split = (some s, x))
    (hjump : p.token? (ip + 1) = some jump) :
    (jump.split = (some s, "jmp") → GoesTo p s m 2 i stack ∧ GoesTo p s m 3 (i + 1) stack) ∧
    (jump.split = (some s, "jmpif") →
      ∀ (condition : Value) (rest : List Value), stack = condition :: rest →
        (condition.isTruthy = true → GoesTo p s m 2 i rest ∧ GoesTo p s m 3 (i + 1) rest) ∧
        (condition.isTruthy = false → GoesTo p s m 2 (ip + 2) rest)) := by
  obtain ⟨v, haddress, hpushed⟩ :=
    h.push_label hload hlabel hsize hreserved hnumeral hroom hreference hx
  have hpassed : ∀ after, GoesTo p s m 2 i after → GoesTo p s m 3 (i + 1) after :=
    fun after hlands => hlands.trans fun m' h' => h'.pass_label hload hlabel hmark
  refine ⟨fun hjmp => ?_, ?_⟩
  · have hinstr : jump.instruction p.labels = .apply (some s) .jump :=
      Token.instruction_of_opcode p.labels hjmp
    have hyields := @Opcode.yields_jump s v stack
    rw [haddress] at hyields
    have hlands : GoesTo p s m 2 i stack :=
      hpushed.trans fun m' h' => h'.jump hjump (by rw [hinstr]; exact hyields)
    exact ⟨hlands, hpassed stack hlands⟩
  · rintro hjmpif condition rest rfl
    have hinstr : jump.instruction p.labels = .apply (some s) .jumpIf :=
      Token.instruction_of_opcode p.labels hjmpif
    have hyields := @Opcode.yields_jumpIf s v condition rest
    refine ⟨fun htrue => ?_, fun hfalse => ?_⟩
    · rw [htrue, if_pos rfl, haddress] at hyields
      have hlands : GoesTo p s m 2 i rest :=
        hpushed.trans fun m' h' => h'.jump hjump (by rw [hinstr]; exact hyields)
      exact ⟨hlands, hpassed rest hlands⟩
    · rw [hfalse, if_neg Bool.false_ne_true] at hyields
      exact hpushed.trans fun m' h' => h'.advance hjump (by rw [hinstr]; exact hyields)

/-- A label without a name, to which the mark in front of nothing refers, and a label with a colon
in its name, to which a conditional jump goes back. -/
theorem label_jump_lands_odd_names :
    let tokens : List Token := [⟨":"⟩, ⟨"!"⟩, ⟨"!jmp"⟩, ⟨"a:b:"⟩, ⟨"a:b!"⟩, ⟨"jmpif!"⟩]
    ∃ p, Program.load tokens = .ok p ∧ p.label? "" = some 0 ∧ p.label? "a:b" = some 3 ∧
      GoesTo p .left ⟨p, false, .ofList [.int 7], 1, false, false, false⟩ 3 1 [.int 7] ∧
      GoesTo p .right ⟨p, false, .ofList [.int 7, .bool true], 4, true, false, false⟩ 3 4
        [.int 7] ∧
      GoesTo p .right ⟨p, false, .ofList [.int 7, .bool false], 4, true, false, false⟩ 2 6
        [.int 7] := by
  intro tokens
  obtain ⟨p, hload⟩ : ∃ p, Program.load tokens = .ok p := ⟨_, rfl⟩
  have hknown : p.size ≤ lastAddress ∧ p.label? "" = some 0 ∧ p.label? "a:b" = some 3 ∧
      p.token? 1 = some ⟨"!"⟩ ∧ p.token? 2 = some ⟨"!jmp"⟩ ∧ p.token? 4 = some ⟨"a:b!"⟩ ∧
      p.token? 5 = some ⟨"jmpif!"⟩ := by
    cases hload
    decide +kernel
  obtain ⟨hsize, hempty, hcolon, hmark, hjmp, hreference, hjmpif⟩ := hknown
  have hstands (deque : Deque Value) (ip : Nat) (announced : Bool) (s : Side) :
      Stands p s ⟨p, false, deque, ip, announced, false, false⟩ ip (deque.seenFrom s) :=
    ⟨rfl, rfl, rfl, rfl, rfl, rfl⟩
  have hback (condition : Value) :=
    (label_jump_lands hload hsize hcolon (by decide +kernel) (by decide +kernel) (by decide +kernel)
      (hstands (.ofList [.int 7, condition]) 4 true .right) (Nat.le_of_ble_eq_true rfl) hreference
      (by decide +kernel) hjmpif).2 (by decide +kernel) condition [.int 7] rfl
  refine ⟨p, hload, hempty, hcolon, ?_, ((hback (.bool true)).1 rfl).2, (hback (.bool false)).2 rfl⟩
  exact ((label_jump_lands hload hsize hempty (by decide +kernel) (by decide +kernel)
    (by decide +kernel) (hstands (.ofList [.int 7]) 1 false .left) (by decide +kernel) hmark
    (by decide +kernel) hjmp).1 (by decide +kernel)).2

end Machine

end TwoEnded
