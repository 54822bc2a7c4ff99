/-
TwoEnded.Proofs.Decimal — integers in decimal, digit by digit.

## §1 Reading

A word is read from left to right and every step is checked, so that it is out of range as soon
as a front part of it is. More digits never make a number smaller, so this comes to the same as a
check of the whole number at the end of the digits (`readDigits_append`), whatever stands behind
them.

## §2 Writing

An integer is written as digits with a minus sign or none in front of them, and different integers
are written differently (`write_injective`).
-/
import Std.Data.String.ToNat
import TwoEnded.Numeral

namespace TwoEnded

namespace Numeral

/-! ## §1 Reading -/

/-- The integer of this size, negative if there is a minus sign. -/
def signed (negative : Bool) (n : Nat) : Int := if negative then -n else n

/-- How an integer is read. -/
def Reading.ofInt (n : Int) : Reading :=
  if fits n then .number (Int64.ofInt n) else .outOfRange

theorem digit?_of_isDigit {c : Char} (h : c.isDigit = true) :
    digit? c = some (c.toNat - '0'.toNat) := by
  rw [digit?, if_pos h]

theorem le_ofDigitChars (digits : List Char) (n : Nat) : n ≤ Nat.ofDigitChars 10 digits n := by
  induction digits generalizing n with
  | nil => exact Nat.le_refl _
  | cons c digits ih =>
    calc n ≤ 10 * n + (c.toNat - '0'.toNat) := by omega
      _ ≤ Nat.ofDigitChars 10 digits (10 * n + (c.toNat - '0'.toNat)) := ih _

/-- A number in range has no front part out of range. -/
theorem fits_signed_of_le {negative : Bool} {n n' : Nat} (hle : n ≤ n')
    (h : fits (signed negative n') = true) : fits (signed negative n) = true := by
  cases negative <;> simp [fits, signed] at h ⊢ <;> omega

/-- Digits in front of anything are read as the number that they are worth, and reading goes on
behind them if it is in range. -/
theorem readDigits_append {negative : Bool} {digits : List Char} {acc : Nat}
    (hdigits : ∀ c ∈ digits, c.isDigit = true) (hacc : fits (signed negative acc) = true)
    (rest : List Char) :
    readDigits negative (signed negative acc) (digits ++ rest) =
      if fits (signed negative (Nat.ofDigitChars 10 digits acc)) then
        readDigits negative (signed negative (Nat.ofDigitChars 10 digits acc)) rest
      else .outOfRange := by
  induction digits generalizing acc with
  | nil =>
    show readDigits negative (signed negative acc) rest = if fits (signed negative acc) then _ else _
    rw [if_pos hacc]
    rfl
  | cons c digits ih =>
    have hc : c.isDigit = true := hdigits c (by simp)
    have hnext : (if negative = true then signed negative acc * 10 - ↑(c.toNat - '0'.toNat)
        else signed negative acc * 10 + ↑(c.toNat - '0'.toNat)) =
        signed negative (10 * acc + (c.toNat - '0'.toNat)) := by
      cases negative <;> simp [signed] <;> omega
    have hworth : Nat.ofDigitChars 10 (c :: digits) acc =
        Nat.ofDigitChars 10 digits (10 * acc + (c.toNat - '0'.toNat)) := rfl
    rw [List.cons_append, readDigits, digit?_of_isDigit hc]
    dsimp only
    rw [hnext, hworth]
    by_cases hfits : fits (signed negative (10 * acc + (c.toNat - '0'.toNat))) = true
    · rw [if_pos hfits]
      exact ih (fun d hd => hdigits d (by simp [hd])) hfits
    · -- The digits to come would only make it larger.
      have hlarger : ¬ fits (signed negative
          (Nat.ofDigitChars 10 digits (10 * acc + (c.toNat - '0'.toNat)))) = true :=
        fun h => hfits (fits_signed_of_le (le_ofDigitChars digits _) h)
      rw [if_neg hfits, if_neg hlarger]

/-- Without a sign a word of digits is read as it stands. -/
theorem sign_of_digits {digits : List Char} (h : ∀ c ∈ digits, c.isDigit = true) :
    sign digits = (false, digits) := by
  unfold sign
  split
  · have hminus : '-'.isDigit = true := h '-' (by simp)
    cases hminus
  · have hplus : '+'.isDigit = true := h '+' (by simp)
    cases hplus
  · rfl

/-! ## §2 Writing -/

theorem isDigit_of_mem_repr {n : Nat} {c : Char} (h : c ∈ (Nat.repr n).toList) :
    c.isDigit = true := by
  rw [Nat.toList_repr] at h
  exact Nat.isDigit_of_mem_toDigits (by decide) (by decide) h

theorem toList_write_ofNat (n : Nat) : (write (.ofNat n)).toList = Nat.toDigits 10 n :=
  Nat.toList_repr

theorem toList_write_negSucc (n : Nat) :
    (write (.negSucc n)).toList = '-' :: Nat.toDigits 10 (n + 1) := by
  simp [write]

/-- A written integer is made of digits and perhaps a minus sign. -/
theorem mem_write {n : Int} {c : Char} (h : c ∈ (write n).toList) :
    c = '-' ∨ c.isDigit = true := by
  cases n with
  | ofNat n => exact .inr (isDigit_of_mem_repr h)
  | negSucc n =>
    rw [toList_write_negSucc] at h
    rcases List.mem_cons.mp h with rfl | hdigit
    · exact .inl rfl
    · exact .inr (Nat.isDigit_of_mem_toDigits (by decide) (by decide) hdigit)

/-- A written integer holds no character that is neither a digit nor the minus sign. -/
theorem not_mem_write {n : Int} {c : Char} (hc : ¬ (c = '-' ∨ c.isDigit = true)) :
    c ∉ (write n).toList :=
  fun h => hc (mem_write h)

theorem toList_write_ne_nil (n : Int) : (write n).toList ≠ [] := by
  cases n with
  | ofNat n =>
    rw [toList_write_ofNat]
    exact Nat.toDigits_ne_nil
  | negSucc n =>
    rw [toList_write_negSucc]
    simp

theorem write_injective {a b : Int} (h : write a = write b) : a = b := by
  have hchars := congrArg String.toList h
  cases a with
  | ofNat n =>
    cases b with
    | ofNat n' => exact congrArg _ (Nat.repr_inj.mp h)
    | negSucc n' =>
      -- The first one would hold the minus sign of the second.
      have hminus : '-' ∈ (write (.ofNat n)).toList := by
        rw [hchars, toList_write_negSucc]
        simp
      cases isDigit_of_mem_repr hminus
  | negSucc n =>
    cases b with
    | ofNat n' =>
      have hminus : '-' ∈ (write (.ofNat n')).toList := by
        rw [← hchars, toList_write_negSucc]
        simp
      cases isDigit_of_mem_repr hminus
    | negSucc n' =>
      have hsize := Nat.repr_inj.mp ((String.append_right_inj "-").mp h)
      rw [Nat.succ.inj hsize]

end Numeral

end TwoEnded
