/-
TwoEnded.Proofs.Literals — a numeral stands for the integer that its digits are worth.

## §1 Numerals

`Numeral.Denotes word n` is the grammar of numerals with their meaning: digits, perhaps behind a
sign, each worth the power of ten of its place. The reader does not know the place of a digit, since
it reads from the left; that it comes to the same is `denotes_iff`. An integer is written as a
numeral for it (`denotes_write`).

## §2 Words

A numeral stands for its integer if that is in range, and for nothing if it is not; in neither case
is the table of labels asked. Any other word stands for the address of a label or for nothing.
-/
import TwoEnded.Proofs.Ends
import TwoEnded.Proofs.Operands

namespace TwoEnded

/-! ## §1 Numerals -/

namespace Numeral

/-- There is a digit, and there is nothing else. -/
structure IsDigits (digits : List Char) : Prop where
  ne : digits ≠ []
  all : ∀ c ∈ digits, c.isDigit = true

/-- The worth of digits: each counts for the power of ten of its place. -/
def worth : List Char → Nat
  | [] => 0
  | c :: rest => (c.toNat - '0'.toNat) * Nat.pow 10 rest.length + worth rest

/-- The word is a numeral for the integer. -/
inductive Denotes : List Char → Int → Prop
  | unsigned {digits : List Char} (h : IsDigits digits) : Denotes digits (worth digits)
  | plus {digits : List Char} (h : IsDigits digits) : Denotes ('+' :: digits) (worth digits)
  | minus {digits : List Char} (h : IsDigits digits) :
      Denotes ('-' :: digits) (-(worth digits : Int))

/-- Digits that are read from the left are worth the same. -/
theorem ofDigitChars_eq_worth (digits : List Char) :
    Nat.ofDigitChars 10 digits 0 = worth digits := by
  induction digits with
  | nil => rfl
  | cons c rest ih =>
    calc Nat.ofDigitChars 10 (c :: rest) 0
        = Nat.ofDigitChars 10 rest (10 * 0 + (c.toNat - '0'.toNat)) := Nat.ofDigitChars_cons
      _ = Nat.pow 10 rest.length * (10 * 0 + (c.toNat - '0'.toNat)) + Nat.ofDigitChars 10 rest 0 :=
        Nat.ofDigitChars_eq_ofDigitChars_zero
      _ = worth (c :: rest) := by
        rw [ih, worth, Nat.mul_zero, Nat.zero_add, Nat.mul_comm]

theorem isDigits_iff {digits : List Char} :
    IsDigits digits ↔ (!digits.isEmpty && digits.all Char.isDigit) = true := by
  rw [Bool.and_eq_true, Bool.not_eq_true', List.isEmpty_eq_false_iff, List.all_eq_true]
  exact ⟨fun h => ⟨h.ne, h.all⟩, fun h => ⟨h.1, h.2⟩⟩

/-- What a numeral is, and for which integer, can be told from its sign and what follows it. -/
theorem denotes_iff_sign {word : List Char} {n : Int} :
    Denotes word n ↔
      IsDigits (sign word).2 ∧ n = signed (sign word).1 (worth (sign word).2) := by
  constructor
  · intro h
    cases h with
    | unsigned h =>
      rw [sign_of_digits h.all]
      exact ⟨h, rfl⟩
    | plus h => exact ⟨h, rfl⟩
    | minus h => exact ⟨h, rfl⟩
  · rintro ⟨h, rfl⟩
    revert h
    unfold sign
    split
    · exact fun h => .minus h
    · exact fun h => .plus h
    · exact fun h => .unsigned h

/-- A word is a numeral for an integer exactly if it is decimal and the integer is the number in
front of it. -/
theorem denotes_iff {word : List Char} {n : Int} :
    Denotes word n ↔ isDecimal word = true ∧ front word = n := by
  have hdecimal : isDecimal word = true ↔ IsDigits (sign word).2 := isDigits_iff.symm
  rw [denotes_iff_sign, hdecimal, and_congr_right_iff]
  intro h
  have hall : (sign word).2.takeWhile Char.isDigit = (sign word).2 := by
    simpa using @List.takeWhile_append_of_pos _ Char.isDigit (sign word).2 [] h.all
  rw [front, hall, ofDigitChars_eq_worth, eq_comm]

/-- A numeral is read as its integer, or as out of range. -/
theorem read_of_denotes {word : List Char} {n : Int} (h : Denotes word n) :
    read word = .ofInt n := by
  obtain ⟨hdecimal, hfront⟩ := denotes_iff.mp h
  rw [read_eq, if_pos hdecimal, hfront]

/-- An integer is written as a numeral for it. -/
theorem denotes_write (n : Int) : Denotes (write n).toList n := by
  have hdigits (k : Nat) : IsDigits (Nat.toDigits 10 k) :=
    ⟨Nat.toDigits_ne_nil, fun c => Nat.isDigit_of_mem_toDigits (by decide) (by decide)⟩
  have hworth (k : Nat) : worth (Nat.toDigits 10 k) = k := by
    rw [← ofDigitChars_eq_worth]
    exact Nat.ofDigitChars_toDigits (by decide) (by decide)
  cases n with
  | ofNat k =>
    have h := Denotes.unsigned (hdigits k)
    rwa [hworth, ← toList_write_ofNat] at h
  | negSucc k =>
    have h := Denotes.minus (hdigits (k + 1))
    rwa [hworth, ← toList_write_negSucc] at h

/-- A numeral holds neither a mark nor a colon. -/
theorem Denotes.unmarked {word : String} {n : Int} (h : Denotes word.toList n) : Unmarked word :=
  (IsWord.numeral (denotes_iff.mp h).1).unmarked

end Numeral

/-! ## §2 Words -/

/-- No numeral is a reserved word. -/
theorem Opcode.ofWord?_of_denotes {word : String} {n : Int} (h : Numeral.Denotes word.toList n) :
    ofWord? word = none := by
  cases hop : ofWord? word with
  | none => rfl
  | some op =>
    obtain ⟨hdecimal, -⟩ := Numeral.denotes_iff.mp h
    have hletters : op.name.toList.all (fun c => !(c == '-' || c == '+' || c.isDigit)) = true := by
      cases op with
      | binary op => cases op <;> decide
      | _ => decide
    have hne : word ≠ "" := h.unmarked.ne
    obtain ⟨c, hc⟩ := List.exists_mem_of_ne_nil word.toList (by simpa using hne)
    have hnumeral := Numeral.mem_of_isDecimal hdecimal hc
    rw [← name_of_ofWord? hop] at hc
    have hletter := List.all_eq_true.mp hletters c hc
    rcases hnumeral with rfl | rfl | hdigit
    · cases hletter
    · cases hletter
    · simp [hdigit] at hletter

namespace Labels

/-- A numeral is not looked up in the table. -/
theorem operand_of_denotes (labels : Labels) {word : String} {n : Int}
    (h : Numeral.Denotes word.toList n) :
    labels.operand word = if Numeral.fits n then .known (Int64.ofInt n) else .overflow := by
  have hread := Numeral.read_of_denotes h
  cases hfits : Numeral.fits n with
  | true => simp [operand, hread, Numeral.Reading.ofInt, hfits]
  | false => simp [operand, hread, Numeral.Reading.ofInt, hfits]

/-- A word that is no numeral stands for the address of a label, if it stands for anything. -/
theorem eq_label_of_value {labels : Labels} {word : String} {v : Value}
    (hword : ∀ n, ¬ Numeral.Denotes word.toList n) (h : (labels.operand word).value = .ok v) :
    ∃ address, labels[word]? = some address ∧ v = .int (Int64.ofNat address) := by
  have hdecimal : Numeral.isDecimal word.toList = false := by
    cases hcase : Numeral.isDecimal word.toList with
    | false => rfl
    | true => exact absurd (Numeral.denotes_iff.mpr ⟨hcase, rfl⟩) (hword _)
  rw [operand_of_not_decimal labels hdecimal] at h
  split at h
  · cases hlabel : labels[word]? with
    | none =>
      rw [hlabel] at h
      cases h
    | some address =>
      rw [hlabel] at h
      cases h
      exact ⟨address, rfl, rfl⟩
  · cases h

/-- A written integer stands for itself. -/
theorem operand_write (labels : Labels) (i : Int64) :
    labels.operand (Numeral.write i.toInt) = .known i := by
  have hfits : Numeral.fits i.toInt = true := Value.fits_toInt (.int i)
  rw [operand_of_denotes labels (Numeral.denotes_write i.toInt), if_pos hfits, Int64.ofInt_toInt]

theorem value_text_int (labels : Labels) (i : Int64) :
    (labels.operand (Value.int i).text).value = .ok (.int i) := by
  rw [Value.text, operand_write]
  rfl

end Labels

/-- A token with a written integer adds it at the end that it marks. -/
theorem Form.instruction_number (labels : Labels) {form : Form} (hform : form ≠ .definition)
    (i : Int64) :
    (form.token (Numeral.write i.toInt)).instruction labels = .push form.side (.known i) := by
  have hdenotes := Numeral.denotes_write i.toInt
  rw [Form.instruction_of_ne labels hform hdenotes.unmarked, Opcode.ofWord?_of_denotes hdenotes]
  simp only [labels.operand_write]

namespace Program

/-- **Numerals are read exactly.** Let a program have been loaded, with whatever labels.

* A numeral, of any length and with any zeros in front, stands for its integer if that is in the
  range of 64 bits, and is an overflow if not, even if there is a label of this name.
* Any other word stands for the address of the label with this name, if it stands for anything.
* What `print` writes of an integer stands for this integer, and with a mark it is a token that
  adds the integer again, at either end. -/
theorem literals_read_exactly {tokens : List Token} {p : Program} (hload : load tokens = .ok p) :
    (∀ (word : String) (n : Int), Numeral.Denotes word.toList n →
      (-9223372036854775808 ≤ n ∧ n ≤ 9223372036854775807 →
        ∃ i : Int64, i.toInt = n ∧ (p.labels.operand word).value = .ok (.int i)) ∧
      (¬ (-9223372036854775808 ≤ n ∧ n ≤ 9223372036854775807) →
        (p.labels.operand word).value = .error (Fault.ofKind .overflow))) ∧
    (∀ word : String, (∀ n, ¬ Numeral.Denotes word.toList n) →
      ∀ v, (p.labels.operand word).value = .ok v →
        ∃ address, p.label? word = some address ∧ v = .int (Int64.ofNat address) ∧
          (p.size ≤ lastAddress → v.toInt = address)) ∧
    ∀ i : Int64,
      (p.labels.operand (Value.int i).text).value = .ok (.int i) ∧
      (∀ (s : Side) (stack : List Value),
        (Opcode.print.perform (some s)).Yields s (.int i :: stack)
          (.ok (.say (Value.int i).text)) stack) ∧
      Token.split ⟨"!" ++ (Value.int i).text⟩ = (some .left, (Value.int i).text) ∧
      Token.split ⟨(Value.int i).text ++ "!"⟩ = (some .right, (Value.int i).text) ∧
      p.Pushes (Value.int i).text (.int i) := by
  refine ⟨fun word n hword => ⟨fun hrange => ?_, fun hrange => ?_⟩, fun word hword v hv => ?_,
    fun i => ?_⟩
  · have hfits := Numeral.fits_iff.mpr hrange
    refine ⟨Int64.ofInt n, Value.toInt_ofInt hfits, ?_⟩
    rw [p.labels.operand_of_denotes hword, if_pos hfits]
    rfl
  · have hfits := mt Numeral.fits_iff.mp hrange
    rw [p.labels.operand_of_denotes hword, if_neg hfits]
    rfl
  · obtain ⟨address, hlabel, rfl⟩ := Labels.eq_label_of_value hword hv
    exact ⟨address, hlabel, rfl, fun hsize => toInt_of_label? hload hsize hlabel⟩
  · have hdenotes : Numeral.Denotes (Value.int i).text.toList i.toInt :=
      Numeral.denotes_write i.toInt
    have hunmarked : Unmarked (Value.int i).text := hdenotes.unmarked
    have hvalue := p.labels.value_text_int i
    exact ⟨hvalue, fun s stack => Opcode.yields_print,
      @Form.split_of_ne .front (by decide) _ hunmarked,
      @Form.split_of_ne .behind (by decide) _ hunmarked,
      pushes_of_value (Opcode.ofWord?_of_denotes hdenotes) hvalue⟩

/-- Labels with the names of numerals are not asked: zeros in front do not count, and the first
number past the range is an overflow. The least number is in range, behind any zeros, and it is read
back from its text. Two signs make no numeral, and so the name of a label. -/
theorem literals_read_exactly_same_name :
    let tokens : List Token := [⟨"007:"⟩, ⟨"9223372036854775808:"⟩, ⟨"+-1:"⟩]
    ∃ p, load tokens = .ok p ∧
      (p.label? "007" = some 0 ∧
        ∃ i : Int64, i.toInt = 7 ∧ (p.labels.operand "007").value = .ok (.int i)) ∧
      (p.label? "9223372036854775808" = some 1 ∧
        (p.labels.operand "9223372036854775808").value = .error (Fault.ofKind .overflow)) ∧
      (∃ i : Int64, i.toInt = -9223372036854775808 ∧
        (p.labels.operand "-0000009223372036854775808").value = .ok (.int i)) ∧
      (∃ address : Nat, p.label? "+-1" = some address ∧
        (p.labels.operand "+-1").value = .ok (.int 2) ∧ (Value.int 2).toInt = address) ∧
      p.Pushes "-9223372036854775808" (.int (-9223372036854775808)) := by
  intro tokens
  obtain ⟨p, hload⟩ : ∃ p, load tokens = .ok p := ⟨_, rfl⟩
  obtain ⟨hnumerals, hothers, hprinted⟩ := literals_read_exactly hload
  have hseven : Numeral.Denotes "007".toList 7 := Numeral.denotes_iff.mpr (by decide +kernel)
  have hpast : Numeral.Denotes "9223372036854775808".toList 9223372036854775808 :=
    Numeral.denotes_iff.mpr (by decide +kernel)
  have hleast : Numeral.Denotes "-0000009223372036854775808".toList (-9223372036854775808) :=
    Numeral.denotes_iff.mpr (by decide +kernel)
  have hsigns : ∀ n, ¬ Numeral.Denotes "+-1".toList n := by
    intro n h
    have hdecimal := (Numeral.denotes_iff.mp h).1
    revert hdecimal
    decide +kernel
  have hknown : p.label? "007" = some 0 ∧ p.label? "9223372036854775808" = some 1 ∧ p.size = 3 ∧
      (p.labels.operand "+-1").value = .ok (.int 2) := by
    cases hload
    decide +kernel
  have htext : (Value.int (-9223372036854775808)).text = "-9223372036854775808" := by decide +kernel
  refine ⟨p, hload, ⟨hknown.1, (hnumerals _ _ hseven).1 (by decide)⟩,
    ⟨hknown.2.1, (hnumerals _ _ hpast).2 (by decide)⟩, (hnumerals _ _ hleast).1 (by decide), ?_, ?_⟩
  · obtain ⟨address, hlabel, -, haddress⟩ := hothers _ hsigns _ hknown.2.2.2
    have hsize : p.size ≤ lastAddress := by
      rw [hknown.2.2.1]
      decide
    exact ⟨address, hlabel, hknown.2.2.2, haddress hsize⟩
  · rw [← htext]
    exact (hprinted _).2.2.2.2

end Program

end TwoEnded
