import Mathlib.Data.BitVec

/-! # Integers of the machine

An `int` that meets a `size_t` is converted to 64 bits by its sign. One that is not
negative keeps its value. A negative one becomes a number close to 2^64. A number that
wrapped before it was divided gives another quotient, unless both quotients are zero.
-/

namespace BenchBF3.Foundation

/-- The conversion of an `int` to a `size_t`. -/
def toSize (int : BitVec 32) : BitVec 64 := int.signExtend 64

theorem toNat_toSize_of_lt {int : BitVec 32} (hint : int.toNat < 2 ^ 31) :
    (toSize int).toNat = int.toNat := by
  have hsign : int.msb = false := BitVec.msb_eq_false_iff_two_mul_lt.mpr (by omega)
  rw [toSize, BitVec.signExtend_eq_setWidth_of_msb_false hsign, BitVec.toNat_setWidth]
  exact Nat.mod_eq_of_lt (by omega)

/-- A negative `int` is minus its magnitude. -/
theorem toSize_of_ge {int : BitVec 32} (hint : 2 ^ 31 ≤ int.toNat) :
    toSize int = -BitVec.ofNat 64 (2 ^ 32 - int.toNat) := by
  have hsign : int.msb = true := BitVec.msb_eq_true_iff_two_mul_ge.mpr (by omega)
  have hlt := int.isLt
  apply BitVec.eq_of_toNat_eq
  rw [toSize, BitVec.toNat_signExtend, hsign, BitVec.toNat_setWidth, BitVec.toNat_neg,
    BitVec.toNat_ofNat, Nat.mod_eq_of_lt (by omega : int.toNat < 2 ^ 64), if_pos rfl]
  omega

theorem toNat_toSize_of_pos {int : BitVec 32} (hpos : 0 < int.toInt) :
    (toSize int).toNat = int.toNat ∧ 0 < int.toNat := by
  rw [BitVec.toInt_eq_toNat_cond] at hpos
  split at hpos
  next hsmall =>
    exact ⟨toNat_toSize_of_lt (by omega), by omega⟩
  next => omega

/-- What is lost to a modulus shows in a quotient, unless the number is below the divisor. -/
theorem mod_div_eq_iff {number modulus divisor : Nat} (hmodulus : 0 < modulus)
    (hdivisor : 0 < divisor) :
    number % modulus / divisor = number / divisor ↔ number < modulus ∨ number < divisor := by
  constructor
  · intro heq
    by_contra hboth
    obtain ⟨hge, hfits⟩ := not_or.mp hboth
    -- the quotient of the remainder is at least one, so the modulus exceeds the divisor
    have hone : 1 ≤ number % modulus / divisor := by
      rw [heq]
      exact (Nat.one_le_div_iff hdivisor).mpr (Nat.le_of_not_lt hfits)
    have hdivisor_le := (Nat.one_le_div_iff hdivisor).mp hone
    have hmod_lt := Nat.mod_lt number hmodulus
    have hlost : number % modulus + divisor ≤ number := by
      have hmod_le : number % modulus + modulus ≤ number := by
        have hsub := Nat.mod_eq_sub_mod (Nat.le_of_not_lt hge)
        have hle := Nat.mod_le (number - modulus) modulus
        omega
      omega
    have hmore := Nat.div_le_div_right (c := divisor) hlost
    rw [Nat.add_div_right _ hdivisor] at hmore
    omega
  · rintro (hlt | hlt)
    · rw [Nat.mod_eq_of_lt hlt]
    · rw [Nat.div_eq_of_lt hlt, Nat.div_eq_of_lt ((Nat.mod_le _ _).trans_lt hlt)]

end BenchBF3.Foundation
