/-
TwoEnded.Proofs.Arithmetic — a number is exact, or there is none.

The values of the machine are words of 64 bits, and a word that is made of too large a
number has lost a part of it. `Operator.Exact` says what an operator computes on whole
numbers of any size, and `Operator.apply_exact` that the value it leaves is just that
number: what does not fit is refused, and a right shift, which is never refused, fits.
-/
import TwoEnded.Opcode

namespace TwoEnded

/-! ## Words -/

theorem Numeral.fits_iff {n : Int} :
    fits n = true ↔ -9223372036854775808 ≤ n ∧ n ≤ 9223372036854775807 := by
  simp [fits]

namespace Value

/-- The number that a value stands for is in the range of a word. -/
theorem fits_toInt (v : Value) : Numeral.fits v.toInt = true := by
  have hlow := Int64.le_toInt v.word
  have hhigh := Int64.toInt_lt v.word
  rw [Numeral.fits_iff, toInt]
  omega

/-- A word keeps a number that is in its range. -/
theorem toInt_ofInt {n : Int} (h : Numeral.fits n = true) : (int (Int64.ofInt n)).toInt = n := by
  rw [Numeral.fits_iff] at h
  exact Int64.toInt_ofInt_of_le (by omega) (by omega)

theorem toInt_of_checked {n : Int} {v : Value} (h : checked n = .ok v) : v.toInt = n := by
  unfold checked at h
  split at h
  · next hfits =>
    cases h
    exact toInt_ofInt hfits
  · cases h

/-! ## Shifts -/

theorem two_pow_pos (k : Nat) : 0 < Int.pow 2 k := by
  induction k with
  | zero => decide
  | succ k ih =>
    have hsucc : Int.pow 2 (k + 1) = Int.pow 2 k * 2 := rfl
    omega

theorem two_pow_le {j k : Nat} (h : j ≤ k) : Int.pow 2 j ≤ Int.pow 2 k := by
  induction h with
  | refl => exact Int.le_refl _
  | @step k _ ih =>
    have hpos := two_pow_pos k
    have hsucc : Int.pow 2 k.succ = Int.pow 2 k * 2 := rfl
    omega

/-- A number that is less than the divisor in size is divided to its sign. -/
theorem ediv_eq_sign {x p : Int} (hlow : -p ≤ x) (hhigh : x < p) :
    x / p = if x < 0 then -1 else 0 := by
  split
  · next hneg =>
    have hge : -1 ≤ x / p := Int.le_ediv_of_mul_le (by omega) (by omega)
    have hlt : x / p < 0 := Int.ediv_lt_of_lt_mul (by omega) (by omega)
    omega
  · exact Int.ediv_eq_zero_of_lt (by omega) hhigh

/-- From 63 places on, the number of places makes no difference to a word. -/
theorem ediv_two_pow_min {x : Int} (h : Numeral.fits x = true) (k : Nat) :
    x / Int.pow 2 (min k 63) = x / Int.pow 2 k := by
  rw [Numeral.fits_iff] at h
  by_cases hk : k ≤ 63
  · rw [Nat.min_eq_left hk]
  · rw [Nat.min_eq_right (by omega)]
    have htop : Int.pow 2 63 = 9223372036854775808 := by decide
    have hle : Int.pow 2 63 ≤ Int.pow 2 k := two_pow_le (by omega)
    rw [ediv_eq_sign (by omega) (by omega), ediv_eq_sign (by omega) (by omega)]

theorem fits_ediv {x p : Int} (h : Numeral.fits x = true) (hp : 0 < p) :
    Numeral.fits (x / p) = true := by
  rw [Numeral.fits_iff] at h ⊢
  by_cases hx : x < 0
  · have hge : x ≤ x / p := by
      apply Int.le_ediv_of_mul_le hp
      have hmul : x * p ≤ x * 1 := Int.mul_le_mul_of_nonpos_left (by omega) (by omega)
      omega
    have hlt : x / p < 0 := Int.ediv_lt_of_lt_mul hp (by omega)
    omega
  · have hge : 0 ≤ x / p := Int.ediv_nonneg (by omega) (by omega)
    have hle : x / p ≤ x := Int.ediv_le_self p (by omega)
    omega

/-- A shift to the right is a division, whatever the count. -/
theorem toInt_of_shr {a b v : Value} (h : a.shr b = .ok v) :
    v.toInt = a.toInt / Int.pow 2 b.toInt.toNat := by
  unfold shr at h
  split at h
  · cases h
  · cases h
    rw [toInt_ofInt (fits_ediv a.fits_toInt (two_pow_pos _)), ediv_two_pow_min a.fits_toInt]

/-- A shift to the left is a multiplication. -/
theorem toInt_of_shl {a b v : Value} (h : a.shl b = .ok v) :
    v.toInt = a.toInt * Int.pow 2 b.toInt.toNat := by
  unfold shl at h
  split at h
  · cases h
  · split at h
    · next hzero =>
      cases h
      rw [hzero, Int.zero_mul]
      rfl
    · split at h
      · cases h
      · exact toInt_of_checked h

end Value

/-! ## Operators -/

/-- The number `result` is what the operator makes of the numbers `first` and `second`.
The operators on bits and the comparisons make no number that a word could not hold. -/
def Operator.Exact (op : Operator) (first second result : Int) : Prop :=
  match op with
  | .add => result = first + second
  | .sub => result = second - first
  | .shr => result = second / Int.pow 2 first.toNat
  | .shl => result = second * Int.pow 2 first.toNat
  | _ => True

/-- The value that an operator leaves stands for the exact number. -/
theorem Operator.apply_exact {op : Operator} {first second v : Value}
    (h : op.apply first second = .ok v) : op.Exact first.toInt second.toInt v.toInt := by
  cases op with
  | add => exact Value.toInt_of_checked h
  | sub => exact Value.toInt_of_checked h
  | shr => exact Value.toInt_of_shr h
  | shl => exact Value.toInt_of_shl h
  | _ => trivial

end TwoEnded
