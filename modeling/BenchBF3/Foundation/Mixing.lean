import Mathlib.Data.BitVec

/-! # Word operations that lose nothing

The steps from which hash functions of machine words are made: products with
an invertible factor, rotations, and a word combined with its own shift. Each
is injective, so every composition of them is.
-/

namespace BenchBF3.Foundation

open Function

variable {width : Nat}

theorem mul_injective_of_mul_eq_one {factor inverse : BitVec width}
    (hinverse : factor * inverse = 1) : Injective fun word : BitVec width => word * factor := by
  intro first second heq
  have hundo (word : BitVec width) : word * factor * inverse = word := by
    rw [mul_assoc, hinverse, mul_one]
  rw [← hundo first, ← hundo second]
  exact congrArg (· * inverse) heq

/-- A rotation written with two shifts. -/
theorem rotate_injective {bits : Nat} (hbits : bits < width) :
    Injective fun word : BitVec width => word <<< bits ||| word >>> (width - bits) := by
  intro first second heq
  apply BitVec.eq_of_getLsbD_eq
  intro index hindex
  -- The bit went up by the amount of the rotation, or around to the low end.
  by_cases hlow : index + bits < width
  · have hat := congrArg (BitVec.getLsbD · (index + bits)) heq
    have hout (word : BitVec width) : word.getLsbD (width - bits + (index + bits)) = false :=
      BitVec.getLsbD_of_ge _ _ (by omega)
    have hmoved : ¬ index + bits < bits := by omega
    simpa only [BitVec.getLsbD_or, BitVec.getLsbD_shiftLeft, BitVec.getLsbD_ushiftRight, hout, hlow,
      hmoved, decide_true, decide_false, Bool.not_false, Bool.true_and, Bool.or_false,
      Nat.add_sub_cancel] using hat
  · have hat := congrArg (BitVec.getLsbD · (index + bits - width)) heq
    have haround : width - bits + (index + bits - width) = index := by omega
    have hless : index + bits - width < bits := by omega
    simpa [haround, hless] using hat

theorem xor_ushiftRight_injective {bits : Nat} (hbits : 0 < bits) :
    Injective fun word : BitVec width => word ^^^ word >>> bits := by
  intro first second heq
  have hbit (index : Nat) : first.getLsbD index = second.getLsbD index := by
    -- From the top bit down: the bit that is mixed in lies above.
    induction hfuel : width - index using Nat.strong_induction_on generalizing index with
    | _ fuel ih =>
        by_cases hindex : index < width
        · have habove := ih _ (by omega) (bits + index) rfl
          have hat := congrArg (BitVec.getLsbD · index) heq
          simpa [habove] using hat
        · rw [BitVec.getLsbD_of_ge _ _ (by omega), BitVec.getLsbD_of_ge _ _ (by omega)]
  exact BitVec.eq_of_getLsbD_eq fun index _ => hbit index

end BenchBF3.Foundation
