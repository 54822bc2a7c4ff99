/-
TwoEnded.Proofs.RightShifts — a right shift rounds down, and it takes a left shift back.

## §1 Quotients

A right shift is refused for a negative count only. For any other count the number is divided by
the power of two and rounded down to a whole number, also where the power is larger than any
number in range and where the number is negative: then minus one is left of it, and not zero.

## §2 Bits

On bits, the count is cut off twice: at 32 bits, where it is made a count, and at 63 places, since
a word cannot be shifted by more. Neither makes a difference (`shr_eq_shrBits`).

## §3 There and back

A left shift that is not refused has lost nothing, so the right shift by the same count gives the
number back.
-/
import Mathlib.Data.Rat.Floor
import TwoEnded.Proofs.Shifts

namespace TwoEnded

namespace Value

/-! ## §1 Quotients -/

/-- The quotient by a power of two, rounded down, is that of whole numbers. -/
theorem floor_div_two_pow (x : Int) (k : Nat) : ⌊(x : ℚ) / 2 ^ k⌋ = x / Int.pow 2 k := by
  have hpower : (2 : ℚ) ^ k = ((2 ^ k : ℕ) : ℚ) := by push_cast; rfl
  rw [hpower, Rat.floor_intCast_div_natCast, two_pow_cast]
  rfl

theorem shr_of_neg (a : Value) {b : Value} (h : b.toInt < 0) :
    a.shr b = .error (Fault.ofKind .negativeShift) := by
  rw [shr, if_pos h]

/-- A right shift by a count that is not negative is never refused. -/
theorem shr_of_nonneg (a : Value) {b : Value} (h : 0 ≤ b.toInt) :
    ∃ q : Int64, a.shr b = .ok (.int q) ∧ q.toInt = a.toInt / Int.pow 2 b.toInt.toNat := by
  have hshr : a.shr b = .ok (.int (Int64.ofInt (a.toInt / Int.pow 2 (min b.toInt.toNat 63)))) := by
    rw [shr, if_neg (by omega)]
  exact ⟨_, hshr, toInt_of_shr hshr⟩

/-! ## §2 Bits -/

/-- The shift as it is done on bits. The count is cut off at 32 bits, and the bits are shifted by
63 places at most; those that come in are copies of the sign. -/
def shrBits (a b : Value) : Except Fault Value :=
  if b.word < 0 then .error (Fault.ofKind .negativeShift)
  else
    let count := min b.toInt.toNat 4294967295
    .ok (.int (Int64.ofBitVec (a.word.toBitVec.sshiftRight (min count 63))))

/-- The shift on bits is the shift on numbers. -/
theorem shr_eq_shrBits (a b : Value) : a.shr b = a.shrBits b := by
  have hneg : b.word < 0 ↔ b.toInt < 0 := Int64.lt_iff_toInt_lt
  simp only [shrBits, hneg]
  split
  · next hcount => exact shr_of_neg a hcount
  · next hcount =>
    obtain ⟨q, hshr, hq⟩ := shr_of_nonneg a (b := b) (by omega)
    have hmin : min (min b.toInt.toNat 4294967295) 63 = min b.toInt.toNat 63 := by omega
    have hbits : q = Int64.ofBitVec (a.word.toBitVec.sshiftRight (min b.toInt.toNat 63)) := by
      rw [← Int64.toInt_inj, hq, Int64.toInt_ofBitVec, toInt_sshiftRight, Int64.toInt_toBitVec,
        ← ediv_two_pow_min a.fits_toInt]
      rfl
    rw [hshr, hmin, hbits]

/-! ## §3 There and back -/

/-- A right shift takes back a left shift that was not refused. -/
theorem shr_of_shl {a b v : Value} (h : a.shl b = .ok v) : v.shr b = .ok (.int a.word) := by
  have hcount : 0 ≤ b.toInt := by
    obtain ⟨-, hrefused⟩ | ⟨hcount, -⟩ | ⟨hcount, -⟩ := shl_cases a b
    · rw [hrefused] at h
      cases h
    · exact hcount
    · exact hcount
  obtain ⟨q, hshr, hq⟩ := shr_of_nonneg v hcount
  have hback : q = a.word := by
    have hpos := two_pow_pos b.toInt.toNat
    rw [← Int64.toInt_inj, hq, toInt_of_shl h, Int.mul_ediv_cancel _ (by omega)]
    rfl
  rw [hshr, hback]

/-- **A right shift rounds down, and it takes a left shift back.** Let `x` be shifted by `n`
places.

* The count is refused exactly if it is negative.
* Otherwise the shift gives the greatest whole number that is not above `x / 2 ^ n`, whatever the
  count and the sign of `x`.
* If the left shift by `n` places gives a value, the right shift of this value gives `x`.
* The shift on bits does the same. -/
theorem right_shift_rounds_down (a b : Value) :
    (a.shr b = .error (Fault.ofKind .negativeShift) ↔ b.toInt < 0) ∧
    (0 ≤ b.toInt → ∃ q : Int64, a.shr b = .ok (.int q) ∧
      q.toInt = ⌊(a.toInt : ℚ) / 2 ^ b.toInt.toNat⌋) ∧
    (∀ v : Value, a.shl b = .ok v → v.shr b = .ok (.int a.word)) ∧
    a.shr b = a.shrBits b := by
  refine ⟨⟨fun hrefused => ?_, shr_of_neg a⟩, fun hcount => ?_, fun v => shr_of_shl,
    shr_eq_shrBits a b⟩
  · by_contra hcount
    obtain ⟨q, hshr, -⟩ := shr_of_nonneg a (Int.not_lt.mp hcount)
    rw [hshr] at hrefused
    cases hrefused
  · obtain ⟨q, hshr, hq⟩ := shr_of_nonneg a hcount
    exact ⟨q, hshr, hq.trans (floor_div_two_pow _ _).symm⟩

/-- A negative number shifted by more places than 32 bits can count; and the least number, made by
a left shift of minus two and shifted back. -/
theorem right_shift_rounds_down_far_and_back :
    let a : Value := .int (-7)
    let b : Value := .int 4294967296
    (0 ≤ b.toInt ∧ a.shr b = .ok (.int (-1)) ∧ -1 = ⌊(a.toInt : ℚ) / 2 ^ b.toInt.toNat⌋) ∧
    shl (.int (-2)) (.int 62) = .ok (.int (-9223372036854775808)) ∧
      shr (.int (-9223372036854775808)) (.int 62) = .ok (.int (-2)) := by
  intro a b
  have hcount : 0 ≤ b.toInt := by decide
  have hleft : shl (.int (-2)) (.int 62) = .ok (.int (-9223372036854775808)) := rfl
  have hright : a.shr b = .ok (.int (-1)) := rfl
  obtain ⟨q, hshr, hq⟩ := (right_shift_rounds_down a b).2.1 hcount
  rw [hright] at hshr
  cases hshr
  exact ⟨⟨hcount, hright, hq⟩, hleft,
    (right_shift_rounds_down (.int (-2)) (.int 62)).2.2.1 _ hleft⟩

end Value

end TwoEnded
