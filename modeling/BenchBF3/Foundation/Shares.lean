import Mathlib.Algebra.Order.BigOperators.Group.List
import Mathlib.Algebra.Order.Floor.Div

/-! # Even shares by repeated ceilings

A total is shared out among a number of takers, one after another. Each takes what is
left, divided by the number of takers left and rounded up. The shares add up to the
total and never increase. They are within every pair of bounds that the average is
within, so any two of them differ by at most one.
-/

namespace BenchBF3.Foundation

/-- The shares of a total, first taker first. -/
def shares : (count total : Nat) → List Nat
  | 0, _ => []
  | count + 1, total =>
      total ⌈/⌉ (count + 1) :: shares count (total - total ⌈/⌉ (count + 1))

theorem length_shares (count total : Nat) : (shares count total).length = count := by
  induction count generalizing total with
  | zero => rfl
  | succ count ih => rw [shares, List.length_cons, ih]

section Bounds

variable {count total bound : Nat}

theorem total_le_mul_ceilDiv : total ≤ (count + 1) * (total ⌈/⌉ (count + 1)) :=
  le_smul_ceilDiv (Nat.succ_pos count)

theorem ceilDiv_succ_le : total ⌈/⌉ (count + 1) ≤ total :=
  (ceilDiv_le_iff_le_mul (Nat.succ_pos count)).mpr (Nat.le_mul_of_pos_left _ (Nat.succ_pos count))

/-- What is left for the others is at most as much for each of them. -/
theorem sub_ceilDiv_le : total - total ⌈/⌉ (count + 1) ≤ count * (total ⌈/⌉ (count + 1)) := by
  have hle := @total_le_mul_ceilDiv count total
  rw [Nat.succ_mul] at hle
  omega

/-- A bound from below on the average stays one for the takers left. -/
theorem mul_le_sub_ceilDiv (hbound : (count + 1) * bound ≤ total) :
    bound ≤ total ⌈/⌉ (count + 1) ∧ count * bound ≤ total - total ⌈/⌉ (count + 1) := by
  have hshare : bound ≤ total ⌈/⌉ (count + 1) := by
    by_contra hlt
    have hle := @total_le_mul_ceilDiv count total
    have hmul : (count + 1) * (total ⌈/⌉ (count + 1)) < (count + 1) * bound :=
      Nat.mul_lt_mul_of_pos_left (Nat.lt_of_not_le hlt) (Nat.succ_pos count)
    omega
  refine ⟨hshare, ?_⟩
  rw [Nat.succ_mul] at hbound
  rcases hshare.eq_or_lt with hequal | hlt
  · omega
  · -- One less would not be enough for everyone.
    have hnot : ¬ total ⌈/⌉ (count + 1) ≤ total ⌈/⌉ (count + 1) - 1 := by omega
    rw [ceilDiv_le_iff_le_mul (Nat.succ_pos count), Nat.succ_mul] at hnot
    have hmul : count * bound ≤ count * (total ⌈/⌉ (count + 1) - 1) :=
      Nat.mul_le_mul_left count (by omega)
    omega

theorem le_of_mem_shares (hbound : total ≤ count * bound) {share : Nat}
    (hmem : share ∈ shares count total) : share ≤ bound := by
  induction count generalizing total with
  | zero => exact absurd hmem List.not_mem_nil
  | succ count ih =>
      have hfirst : total ⌈/⌉ (count + 1) ≤ bound :=
        (ceilDiv_le_iff_le_mul (Nat.succ_pos count)).mpr hbound
      rcases List.mem_cons.mp hmem with rfl | hrest
      · exact hfirst
      · exact ih (sub_ceilDiv_le.trans (Nat.mul_le_mul_left count hfirst)) hrest

theorem ge_of_mem_shares (hbound : count * bound ≤ total) {share : Nat}
    (hmem : share ∈ shares count total) : bound ≤ share := by
  induction count generalizing total with
  | zero => exact absurd hmem List.not_mem_nil
  | succ count ih =>
      obtain ⟨hfirst, hleft⟩ := mul_le_sub_ceilDiv hbound
      rcases List.mem_cons.mp hmem with rfl | hrest
      · exact hfirst
      · exact ih hleft hrest

end Bounds

/-- No taker gets more than one before. -/
theorem pairwise_shares (count total : Nat) : (shares count total).Pairwise (· ≥ ·) := by
  induction count generalizing total with
  | zero => exact .nil
  | succ count ih =>
      refine .cons ?_ (ih _)
      intro share hmem
      exact le_of_mem_shares sub_ceilDiv_le hmem

/-- Two shares differ by at most one: both are the average, rounded down or up. -/
theorem shares_le_succ {count total first second : Nat} (hfirst : first ∈ shares count total)
    (hsecond : second ∈ shares count total) : first ≤ second + 1 := by
  have hcount : 0 < count := by
    rw [← length_shares count total]
    exact List.length_pos_of_mem hfirst
  have hlow : count * (total / count) ≤ total := Nat.mul_div_le total count
  have hhigh : total ≤ count * (total / count + 1) := (Nat.lt_mul_div_succ total hcount).le
  have hle := le_of_mem_shares hhigh hfirst
  have hge := ge_of_mem_shares hlow hsecond
  omega

theorem sum_shares {count : Nat} (total : Nat) (hcount : 1 ≤ count) :
    (shares count total).sum = total := by
  induction count generalizing total with
  | zero => omega
  | succ count ih =>
      rw [shares, List.sum_cons]
      have hle := @ceilDiv_succ_le count total
      cases count with
      | zero =>
          have hge := @total_le_mul_ceilDiv 0 total
          rw [shares, List.sum_nil]
          omega
      | succ count =>
          rw [ih _ (Nat.succ_pos count)]
          omega

end BenchBF3.Foundation
