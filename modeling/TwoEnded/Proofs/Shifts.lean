/-
TwoEnded.Proofs.Shifts — what a left shift loses, and when it says so.

## §1 Products

A left shift is a multiplication by a power of two, checked for its range. From 63 places on the
product of any number but zero is out of range, with one exception: minus one, shifted by 63
places, is the least number that there is (`fits_mul_two_pow`). The shift refuses it all the same
(`shl_eq`).

## §2 Bits

On bits, nothing is multiplied: they are shifted, and shifted back to see whether any of them was
lost. Below 63 places they come back as they were exactly if the product is in range
(`shiftBack_eq_iff`), so that the shift on bits is the shift on numbers (`shl_eq_shlBits`).

## §3 Exactness

The three outcomes of a shift, each with the numbers that lead to it.
-/
import TwoEnded.Proofs.Arithmetic

namespace TwoEnded

namespace Value

/-! ## §1 Products -/

/-- From 63 places on, the only product in range is the least number. -/
theorem fits_mul_two_pow {x : Int} (hx : x ≠ 0) {k : Nat} (hk : 63 ≤ k) :
    Numeral.fits (x * Int.pow 2 k) = true ↔ x = -1 ∧ k = 63 := by
  have htop : Int.pow 2 63 = 9223372036854775808 := by decide
  have hle : Int.pow 2 63 ≤ Int.pow 2 k := two_pow_le hk
  rw [Numeral.fits_iff]
  constructor
  · rintro ⟨hlow, hhigh⟩
    have hneg : x < 0 := by
      apply Decidable.byContradiction
      intro hpos
      have : 1 * Int.pow 2 k ≤ x * Int.pow 2 k :=
        Int.mul_le_mul_of_nonneg_right (by omega) (by omega)
      omega
    have hone : x = -1 := by
      apply Decidable.byContradiction
      intro hne
      have : x * Int.pow 2 k ≤ -2 * Int.pow 2 k :=
        Int.mul_le_mul_of_nonneg_right (by omega) (by omega)
      omega
    refine ⟨hone, Decidable.byContradiction fun hne => ?_⟩
    have hmore : Int.pow 2 64 ≤ Int.pow 2 k := two_pow_le (by omega)
    have hnext : Int.pow 2 64 = 18446744073709551616 := by decide
    rw [hone] at hlow
    omega
  · rintro ⟨rfl, rfl⟩
    decide

/-- A left shift is the product, checked for its range, but it refuses to make the least number
of minus one. -/
theorem shl_eq (a b : Value) :
    a.shl b =
      if b.toInt < 0 then .error (Fault.ofKind .negativeShift)
      else if a.toInt = -1 ∧ b.toInt = 63 then .error (Fault.ofKind .overflow)
      else checked (a.toInt * Int.pow 2 b.toInt.toNat) := by
  unfold shl
  split
  · rfl
  · next hcount =>
    split
    · next hzero =>
      rw [if_neg (by omega), hzero, Int.zero_mul]
      rfl
    · next hx =>
      split
      · next hplaces =>
        have hrange := fits_mul_two_pow hx (k := b.toInt.toNat) (by omega)
        split
        · rfl
        · next hexception =>
          have hout : ¬ Numeral.fits (a.toInt * Int.pow 2 b.toInt.toNat) = true := by
            rw [hrange]
            omega
          rw [checked, if_neg hout]
      · rw [if_neg (by omega)]

/-! ## §2 Bits -/

/-- The shift as it is done on bits. The count is cut off at 32 bits, and what the shift leaves
is shifted back to see whether a bit was lost. -/
def shlBits (a b : Value) : Except Fault Value :=
  if b.word < 0 then .error (Fault.ofKind .negativeShift)
  else
    let count := min b.toInt.toNat 4294967295
    if a.word = 0 then .ok (.int 0)
    else if 63 ≤ count then .error (Fault.ofKind .overflow)
    else
      let shifted := a.word.toBitVec <<< count
      if shifted.sshiftRight count = a.word.toBitVec then .ok (.int (Int64.ofBitVec shifted))
      else .error (Fault.ofKind .overflow)

theorem two_pow_cast (k : Nat) : Int.pow 2 k = Int.ofNat (Nat.pow 2 k) :=
  (Int.natCast_pow 2 k).symm

theorem two_pow_dvd {j k : Nat} (h : j ≤ k) : Int.pow 2 j ∣ Int.pow 2 k := by
  refine ⟨Int.pow 2 (k - j), ?_⟩
  calc Int.pow 2 k = Int.pow 2 (j + (k - j)) := by rw [Nat.add_sub_cancel' h]
    _ = Int.pow 2 j * Int.pow 2 (k - j) := Int.pow_add 2 j (k - j)

/-- Bits that are shifted to the left are the product, as far as 64 bits hold it. -/
theorem toInt_shiftLeft (w : Int64) (k : Nat) :
    (w.toBitVec <<< k).toInt = (w.toInt * Int.pow 2 k).bmod 18446744073709551616 := by
  have hpower : BitVec.twoPow 64 k = BitVec.ofInt 64 (Int.pow 2 k) := by
    rw [two_pow_cast]
    apply BitVec.eq_of_toNat_eq
    rw [BitVec.toNat_twoPow]
    exact (BitVec.toNat_ofNat ..).symm
  rw [BitVec.shiftLeft_eq_mul_twoPow, hpower, BitVec.toInt_mul, BitVec.toInt_ofInt,
    Int.mul_bmod_bmod, Int64.toInt_toBitVec]

theorem toInt_sshiftRight (x : BitVec 64) (k : Nat) :
    (x.sshiftRight k).toInt = x.toInt / Int.pow 2 k := by
  rw [BitVec.toInt_sshiftRight, Int.shiftRight_eq_div_pow, two_pow_cast]
  rfl

/-- The bits come back as they were exactly if the product is in range. -/
theorem shiftBack_eq_iff (w : Int64) {k : Nat} (hk : k ≤ 64) :
    (w.toBitVec <<< k).sshiftRight k = w.toBitVec ↔
      Numeral.fits (w.toInt * Int.pow 2 k) = true := by
  have hpos := two_pow_pos k
  rw [← BitVec.toInt_inj, toInt_sshiftRight, toInt_shiftLeft, Int64.toInt_toBitVec,
    Numeral.fits_iff]
  constructor
  · intro hback
    -- What is left of the product is a multiple of the power, so nothing is lost by the division.
    have hdvd : Int.pow 2 k ∣ (w.toInt * Int.pow 2 k).bmod 18446744073709551616 := by
      have htop : Int.pow 2 64 = ((18446744073709551616 : Nat) : Int) := by decide
      rw [Int.bmod_eq_self_sub_mul_bdiv]
      apply Int.dvd_sub (Int.dvd_mul_left ..)
      exact Int.dvd_mul_of_dvd_left (htop ▸ two_pow_dvd hk)
    have hself : (w.toInt * Int.pow 2 k).bmod 18446744073709551616 = w.toInt * Int.pow 2 k := by
      rw [← Int.ediv_mul_cancel hdvd, hback]
    have hlow := @Int.le_bmod (w.toInt * Int.pow 2 k) 18446744073709551616 (by decide)
    have hhigh := @Int.bmod_lt (w.toInt * Int.pow 2 k) 18446744073709551616 (by decide)
    omega
  · rintro ⟨hlow, hhigh⟩
    rw [Int.bmod_eq_of_le (by omega) (by omega), Int.mul_ediv_cancel _ (by omega)]

/-- The shift on bits is the shift on numbers. -/
theorem shl_eq_shlBits (a b : Value) : a.shl b = a.shlBits b := by
  have hneg : b.word < 0 ↔ b.toInt < 0 := Int64.lt_iff_toInt_lt
  have hzero : a.word = 0 ↔ a.toInt = 0 := Int64.toInt_inj.symm
  simp only [shl, shlBits, hneg, hzero]
  split
  · rfl
  · split
    · rfl
    · by_cases hcount : 63 ≤ b.toInt
      · rw [if_pos hcount, if_pos (by omega)]
      · have hmin : min b.toInt.toNat 4294967295 = b.toInt.toNat := by omega
        have hback := shiftBack_eq_iff a.word (k := b.toInt.toNat) (by omega)
        rw [if_neg hcount, hmin, if_neg (by omega), checked]
        by_cases hfits : Numeral.fits (a.toInt * Int.pow 2 b.toInt.toNat) = true
        · have hshifted : Int64.ofBitVec (a.word.toBitVec <<< b.toInt.toNat) =
              Int64.ofInt (a.toInt * Int.pow 2 b.toInt.toNat) := by
            rw [← Int64.toInt_inj, Int64.toInt_ofBitVec, toInt_shiftLeft, Int64.toInt_ofInt]
            rfl
          rw [if_pos hfits, if_pos (hback.mpr hfits), hshifted]
        · rw [if_neg hfits, if_neg (mt hback.mp hfits)]

/-! ## §3 Exactness -/

/-- What can come of a left shift. -/
theorem shl_cases (a b : Value) :
    (b.toInt < 0 ∧ a.shl b = .error (Fault.ofKind .negativeShift)) ∨
    (0 ≤ b.toInt ∧ Numeral.fits (a.toInt * Int.pow 2 b.toInt.toNat) = true ∧
      ¬ (a.toInt = -1 ∧ b.toInt = 63) ∧
      a.shl b = .ok (.int (Int64.ofInt (a.toInt * Int.pow 2 b.toInt.toNat)))) ∨
    (0 ≤ b.toInt ∧ (Numeral.fits (a.toInt * Int.pow 2 b.toInt.toNat) = false ∨
        (a.toInt = -1 ∧ b.toInt = 63)) ∧
      a.shl b = .error (Fault.ofKind .overflow)) := by
  rw [shl_eq]
  by_cases hcount : b.toInt < 0
  · exact .inl ⟨hcount, if_pos hcount⟩
  · rw [if_neg hcount]
    by_cases hleast : a.toInt = -1 ∧ b.toInt = 63
    · exact .inr (.inr ⟨by omega, .inr hleast, if_pos hleast⟩)
    · rw [if_neg hleast, checked]
      cases hfits : Numeral.fits (a.toInt * Int.pow 2 b.toInt.toNat) with
      | true => exact .inr (.inl ⟨by omega, rfl, hleast, rfl⟩)
      | false => exact .inr (.inr ⟨by omega, .inl rfl, rfl⟩)

/-- **A left shift is exact, but for the least number.** Let `x` be shifted by `n` places.

* The count is refused exactly if it is negative.
* Otherwise the shift gives the number `x * 2 ^ n` if this is in range, and an overflow if it is
  not, whatever the count; but minus one shifted by 63 places, which is the least number in
  range, is an overflow too.
* The shift on bits does the same. -/
theorem left_shift_exact_but_for_least (a b : Value) :
    (a.shl b = .error (Fault.ofKind .negativeShift) ↔ b.toInt < 0) ∧
    ((∃ n : Int64, a.shl b = .ok (.int n) ∧ n.toInt = a.toInt * Int.pow 2 b.toInt.toNat) ↔
      0 ≤ b.toInt ∧ Numeral.fits (a.toInt * Int.pow 2 b.toInt.toNat) = true ∧
        ¬ (a.toInt = -1 ∧ b.toInt = 63)) ∧
    (a.shl b = .error (Fault.ofKind .overflow) ↔
      0 ≤ b.toInt ∧ (Numeral.fits (a.toInt * Int.pow 2 b.toInt.toNat) = false ∨
        (a.toInt = -1 ∧ b.toInt = 63))) ∧
    a.shl b = a.shlBits b := by
  rw [← shl_eq_shlBits]
  obtain ⟨hcount, h⟩ | ⟨hcount, hfits, hleast, h⟩ | ⟨hcount, hout, h⟩ := shl_cases a b
  · have hnot : ¬ 0 ≤ b.toInt := by omega
    simp [h, hcount, hnot, Fault.ofKind]
  · have hnot : ¬ b.toInt < 0 := by omega
    have hvalue := toInt_ofInt hfits
    rw [h, hfits]
    refine ⟨by simp [hnot], ⟨fun _ => ⟨hcount, rfl, hleast⟩, fun _ => ⟨_, rfl, hvalue⟩⟩, ?_, rfl⟩
    simp [hleast]
  · have hnot : ¬ b.toInt < 0 := by omega
    rw [h]
    refine ⟨by simp [hnot, Fault.ofKind], ⟨?_, ?_⟩, ⟨fun _ => ⟨hcount, hout⟩, fun _ => rfl⟩, rfl⟩
    · rintro ⟨n, hn, -⟩
      cases hn
    · rintro ⟨-, hfits, hleast⟩
      rcases hout with hout | hout
      · rw [hfits] at hout
        cases hout
      · exact absurd hout hleast

/-- Minus one shifted by 63 places is in range and is refused. -/
theorem shl_minus_one_by_sixty_three :
    let a : Value := .int (-1)
    let b : Value := .int 63
    0 ≤ b.toInt ∧ a.toInt * Int.pow 2 b.toInt.toNat = -9223372036854775808 ∧
      Numeral.fits (a.toInt * Int.pow 2 b.toInt.toNat) = true ∧
      a.shl b = .error (Fault.ofKind .overflow) := by
  intro a b
  exact ⟨by decide, by decide, by decide, rfl⟩

end Value

end TwoEnded
