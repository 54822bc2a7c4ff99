/-
TwoEnded.Proofs.Operands — when a word is a numeral, and when it is a label.

## §1 Reading

A word is read up to its first character that is no digit. `Numeral.front` is the number that
stands there, in front of whatever follows: the digits behind an optional sign, of which there may
be none. How the word is read depends on this number and on whether anything follows it
(`read_eq`): a numeral is its number or out of range, and a word with something else behind its
digits is no numeral, but it is out of range all the same if its digits are.

## §2 Words

So a word that is no numeral is looked up in the table of labels, unless the number in front of it
is out of range (`operand_of_not_decimal`); and a label whose name is such a word can be pushed
from either end.
-/
import TwoEnded.Proofs.Bounds
import TwoEnded.Proofs.Decimal
import TwoEnded.Proofs.Frame
import TwoEnded.Proofs.Renaming

namespace TwoEnded

/-! ## §1 Reading -/

namespace Numeral

/-- The number in front of a word: its sign with the digits that follow. -/
def front (word : List Char) : Int :=
  signed (sign word).1 (Nat.ofDigitChars 10 ((sign word).2.takeWhile Char.isDigit) 0)

/-- Digits are read up to the first other character, and that one is met only if the number in
front of it is in range. -/
theorem readDigits_eq_front (negative : Bool) (chars : List Char) :
    readDigits negative 0 chars =
      if fits (signed negative (Nat.ofDigitChars 10 (chars.takeWhile Char.isDigit) 0)) then
        if chars.all Char.isDigit then
          .number (Int64.ofInt (signed negative
            (Nat.ofDigitChars 10 (chars.takeWhile Char.isDigit) 0)))
        else .notNumeral
      else .outOfRange := by
  have hzero : signed negative 0 = 0 := by cases negative <;> rfl
  have hdigits : ∀ c ∈ chars.takeWhile Char.isDigit, c.isDigit = true := fun c hc =>
    List.all_eq_true.mp List.all_takeWhile c hc
  have hparts : chars.takeWhile Char.isDigit ++ chars.dropWhile Char.isDigit = chars :=
    List.takeWhile_append_dropWhile
  have hread := @readDigits_append negative _ 0 hdigits (by rw [hzero]; rfl)
    (chars.dropWhile Char.isDigit)
  rw [hparts, hzero] at hread
  rw [hread]
  have hstop := List.head?_dropWhile_not Char.isDigit chars
  cases hrest : chars.dropWhile Char.isDigit with
  | nil =>
    have hall : chars.all Char.isDigit = true := by
      rw [hrest, List.append_nil] at hparts
      rw [← hparts]
      exact List.all_takeWhile
    rw [if_pos hall]
    rfl
  | cons c rest =>
    rw [hrest] at hstop hparts
    have hc : c.isDigit = false := by simpa using hstop
    have hall : chars.all Char.isDigit = false := by
      rw [← hparts]
      simp [hc]
    rw [hall, readDigits, digit?, hc]
    rfl

/-- A word is read as the number in front of it, if nothing follows; and what follows makes it no
numeral only if this number is in range. -/
theorem read_eq (word : List Char) :
    read word =
      if isDecimal word then .ofInt (front word)
      else if fits (front word) then .notNumeral else .outOfRange := by
  unfold read isDecimal front
  cases hsign : sign word with
  | mk negative digits =>
    cases digits with
    | nil => cases negative <;> rfl
    | cons c rest =>
      simp only [List.isEmpty_cons, Bool.false_eq_true, if_false, Bool.not_false, Bool.true_and,
        readDigits_eq_front, Reading.ofInt]
      by_cases hall : (c :: rest).all Char.isDigit = true
      · rw [if_pos hall, if_pos hall]
      · rw [if_neg hall, if_neg hall]

end Numeral

/-! ## §2 Words -/

namespace Labels

/-- A word that is no numeral is looked up in the table, unless the number in front of it is out
of range. -/
theorem operand_of_not_decimal (labels : Labels) {word : String}
    (h : Numeral.isDecimal word.toList = false) :
    labels.operand word =
      if Numeral.fits (Numeral.front word.toList) then
        match labels[word]? with
        | some address => .known (Int64.ofNat address)
        | none => .undefined
      else .overflow := by
  have hread := Numeral.read_eq word.toList
  rw [h] at hread
  cases hfits : Numeral.fits (Numeral.front word.toList) with
  | true => cases hlabel : labels[word]? <;> simp [operand, hread, hfits, hlabel]
  | false => simp [operand, hread, hfits]

end Labels

/-- A token that is not the definition of a label does what its word says at the end that it is
marked with. -/
theorem Token.instruction_of_word (labels : Labels) {t : Token}
    (h : (t.side.isNone && t.label?.isSome) = false) :
    t.instruction labels =
      match Opcode.ofWord? t.word with
      | some op => .apply t.side op
      | none => .push t.side (labels.operand t.word) := by
  have hsplit : t.split = (t.side, t.word) := rfl
  cases hop : Opcode.ofWord? t.word <;> simp [Token.instruction, hsplit, h, hop]

/-- A token with a mark does what its word says at the end that is marked. -/
theorem Token.instruction_of_opcode (labels : Labels) {t : Token} {s : Side} {op : Opcode}
    (h : t.split = (some s, op.name)) : t.instruction labels = .apply (some s) op := by
  simp [Token.instruction, h]

theorem Token.instruction_of_operand (labels : Labels) {t : Token} {s : Side} {word : String}
    (h : t.split = (some s, word)) (hword : Opcode.ofWord? word = none) :
    t.instruction labels = .push (some s) (labels.operand word) := by
  simp [Token.instruction, h, hword]

theorem Deque.push_of_room {α : Type} {s : Side} {x : α} {d : Deque α} (h : d.size < capacity) :
    push (some s) x d = .ok () (d.insert s x) := by
  simp only [push, if_neg (Nat.not_le.mpr h)]

namespace Program

/-- Whatever token has the word with a mark, it adds the value at the end that it is marked
with. -/
def Pushes (p : Program) (word : String) (v : Value) : Prop :=
  ∀ (t : Token) (s : Side), t.split = (some s, word) →
    ∀ d : Deque Value, d.size < Deque.capacity →
      (t.instruction p.labels).perform d = .ok .advance (d.insert s v)

theorem pushes_of_value {p : Program} {word : String} {v : Value}
    (hword : Opcode.ofWord? word = none) (hvalue : (p.labels.operand word).value = .ok v) :
    p.Pushes word v := by
  intro t s hsplit d hroom
  rw [Token.instruction_of_operand p.labels hsplit hword]
  have hoperand : Action.ofExcept (p.labels.operand word).value d = .ok v d := by
    rw [hvalue, Action.ofExcept]
  calc (Instruction.push (some s) (p.labels.operand word)).perform d
      = (do Deque.push (some s) v; return .advance : Action Next) d := Action.bind_of_ok hoperand
    _ = (Pure.pure .advance : Action Next) (d.insert s v) :=
      Action.bind_of_ok (Deque.push_of_room hroom)

/-- **A word that is no numeral is a label, unless the number in front of it is out of range.** For
every program that has been loaded, and every word that is not an optional sign with digits behind
it, let the number in front of the word be that of its leading digits, up to the first character
that is no digit.

* If the number is in range, the table of labels decides: the word stands for the address of the
  label with this name, and if there is none it is undefined. A label whose name is not reserved
  can be pushed by its name with a mark, at either end; the mark in front is always read as one.
* Otherwise the word is an overflow, whether it is a label or not. -/
theorem words_resolved_by_labels {tokens : List Token} {p : Program} (hload : load tokens = .ok p)
    {word : String} (hword : Numeral.isDecimal word.toList = false) :
    (Numeral.fits (Numeral.front word.toList) = true →
      (∀ address, p.label? word = some address →
        (p.labels.operand word).value = .ok (.int (Int64.ofNat address)) ∧
        (p.size ≤ lastAddress → (Int64.ofNat address).toInt = address) ∧
        (Opcode.ofWord? word = none →
          Token.split ⟨"!" ++ word⟩ = (some .left, word) ∧
          p.Pushes word (.int (Int64.ofNat address)))) ∧
      (p.label? word = none →
        (p.labels.operand word).value = .error (Fault.ofKind .undefinedLabel))) ∧
    (Numeral.fits (Numeral.front word.toList) = false →
      (p.labels.operand word).value = .error (Fault.ofKind .overflow)) := by
  have hoperand := p.labels.operand_of_not_decimal hword
  refine ⟨fun hfits => ⟨fun address haddress => ?_, fun hnone => ?_⟩, fun hfits => ?_⟩
  · have hvalue : (p.labels.operand word).value = .ok (.int (Int64.ofNat address)) := by
      rw [label?] at haddress
      rw [hoperand, hfits, haddress]
      rfl
    refine ⟨hvalue, fun hsize => ?_, fun hreserved => ⟨?_, pushes_of_value hreserved hvalue⟩⟩
    · have hlt := label?_lt_size hload haddress
      apply Int64.toInt_ofNat_of_lt
      simp only [lastAddress] at hsize
      omega
    · rw [Token.split_of_bang_front (w := word.toList) (by simp), String.ofList_toList]
  · rw [label?] at hnone
    rw [hoperand, hfits, hnone]
    rfl
  · rw [hoperand, hfits]
    rfl

/-- The digits in front of the first name are the largest number in range, so it is a label like
any other; a word with an underline between its digits is no label here. -/
theorem words_resolved_by_labels_largest :
    let tokens : List Token := [⟨"1!"⟩, ⟨"9223372036854775807x:"⟩]
    ∃ p, load tokens = .ok p ∧
      Numeral.isDecimal "9223372036854775807x".toList = false ∧
      p.Pushes "9223372036854775807x" (.int 1) ∧
      Numeral.isDecimal "1_000".toList = false ∧
      (p.labels.operand "1_000").value = .error (Fault.ofKind .undefinedLabel) := by
  intro tokens
  obtain ⟨p, hload⟩ : ∃ p, load tokens = .ok p := ⟨_, rfl⟩
  have hlabel : p.label? "9223372036854775807x" = some 1 ∧ p.label? "1_000" = none := by
    cases hload
    decide +kernel
  have hlong : Numeral.isDecimal "9223372036854775807x".toList = false := by decide +kernel
  have hthousand : Numeral.isDecimal "1_000".toList = false := by decide +kernel
  refine ⟨p, hload, hlong, ?_, hthousand, ?_⟩
  · have h := (words_resolved_by_labels hload hlong).1 (by decide +kernel)
    exact ((h.1 1 hlabel.1).2.2 (by decide +kernel)).2
  · exact ((words_resolved_by_labels hload hthousand).1 (by decide +kernel)).2 hlabel.2

/-- A label that cannot be pushed: its name is no numeral and not reserved, but its digits leave
the range before its last letter is read. -/
theorem overlong_label_not_pushed :
    let word := "99999999999999999999x"
    let tokens : List Token := [⟨"99999999999999999999x:"⟩, ⟨"99999999999999999999x!"⟩]
    Numeral.isDecimal word.toList = false ∧ Opcode.ofWord? word = none ∧
      Token.split ⟨"99999999999999999999x!"⟩ = (some .right, word) ∧
      ∃ p, load tokens = .ok p ∧ p.label? word = some 0 ∧
        (p.labels.operand word).value = .error (Fault.ofKind .overflow) ∧
        ((Machine.start p false).execute 2).1 =
          .failed ⟨.overflow, some 1, some "99999999999999999999x!", ""⟩ := by
  intro word tokens
  refine ⟨by decide +kernel, by decide +kernel, by decide +kernel, ?_⟩
  obtain ⟨p, hload⟩ : ∃ p, load tokens = .ok p := ⟨_, rfl⟩
  refine ⟨p, hload, ?_⟩
  cases hload
  decide +kernel

end Program

end TwoEnded
