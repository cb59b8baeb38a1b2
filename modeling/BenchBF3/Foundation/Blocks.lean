import Mathlib.Data.Nat.Basic

/-! # Consumers of whole blocks

A consumer takes its input in blocks of one size and keeps what does not fill
a block for later. What it has consumed, and what it keeps, depend on the
input as a whole and not on the pieces in which it came.
-/

namespace BenchBF3.Foundation

variable {α σ : Type*}

/-- The state after all full blocks of an input, in order. -/
def consume (size : Nat) (process : σ → List α → σ) (state : σ) (input : List α) : σ :=
  (List.range (input.length / size)).foldl
    (fun state index => process state ((input.drop (size * index)).take size)) state

/-- What is left of an input after its full blocks. -/
def leftover (size : Nat) (input : List α) : List α :=
  input.drop (size * (input.length / size))

variable {size : Nat} {process : σ → List α → σ} {state : σ} {block input rest : List α}

theorem consume_of_lt (hshort : input.length < size) :
    consume size process state input = state := by
  rw [consume, Nat.div_eq_of_lt hshort]
  rfl

theorem leftover_of_lt (hshort : input.length < size) : leftover size input = input := by
  rw [leftover, Nat.div_eq_of_lt hshort, Nat.mul_zero, List.drop_zero]

theorem length_leftover_lt (hsize : 0 < size) (input : List α) :
    (leftover size input).length < size := by
  rw [leftover, List.length_drop, ← Nat.mod_eq_sub_mul_div]
  exact Nat.mod_lt _ hsize

section Block

variable (hsize : 0 < size) (hblock : block.length = size)
include hsize hblock

theorem length_block_append_div :
    (block ++ rest).length / size = rest.length / size + 1 := by
  rw [List.length_append, hblock, Nat.add_div_left _ hsize]

omit hsize in
theorem drop_block_append (index : Nat) :
    (block ++ rest).drop (size * (index + 1)) = rest.drop (size * index) := by
  rw [Nat.mul_succ, Nat.add_comm, ← List.drop_drop, ← hblock, List.drop_left]

theorem consume_block_append :
    consume size process state (block ++ rest) =
      consume size process (process state block) rest := by
  have hfirst : (block ++ rest).take size = block := by
    rw [← hblock, List.take_left]
  rw [consume, length_block_append_div hsize hblock, List.range_succ_eq_map, List.foldl_cons,
    List.foldl_map, Nat.mul_zero, List.drop_zero, hfirst]
  simp only [Nat.succ_eq_add_one, drop_block_append hblock]
  rfl

theorem leftover_block_append : leftover size (block ++ rest) = leftover size rest := by
  rw [leftover, length_block_append_div hsize hblock, drop_block_append hblock]
  rfl

end Block

/-- An input that fills a block starts with one. -/
theorem exists_block_append (hlong : size ≤ input.length) :
    ∃ block rest, block.length = size ∧ input = block ++ rest :=
  ⟨input.take size, input.drop size, List.length_take_of_le hlong,
    (List.take_append_drop size input).symm⟩

/-- More input goes on from what was left: the pieces do not matter. -/
theorem consume_append (hsize : 0 < size) (state : σ) (input more : List α) :
    consume size process state (input ++ more) =
        consume size process (consume size process state input) (leftover size input ++ more) ∧
      leftover size (input ++ more) = leftover size (leftover size input ++ more) := by
  -- By the length of the first piece: a short one is kept whole, a long one loses a block.
  induction hlength : input.length using Nat.strong_induction_on generalizing state input with
  | _ length ih =>
      by_cases hshort : input.length < size
      · rw [consume_of_lt hshort, leftover_of_lt hshort]
        exact ⟨rfl, rfl⟩
      · obtain ⟨block, rest, hblock, rfl⟩ := exists_block_append (Nat.le_of_not_lt hshort)
        have hrest : rest.length < length := by
          rw [← hlength, List.length_append, hblock]
          exact Nat.lt_add_of_pos_left hsize
        rw [List.append_assoc, consume_block_append hsize hblock,
          consume_block_append hsize hblock, leftover_block_append hsize hblock,
          leftover_block_append hsize hblock]
        exact ih _ hrest (process state block) rest rfl

/-- One more item fills the block that was kept. -/
theorem consume_concat_of_eq {item : α} (hfull : (leftover size input).length + 1 = size) :
    consume size process state (input ++ [item]) =
        process (consume size process state input) (leftover size input ++ [item]) ∧
      leftover size (input ++ [item]) = [] := by
  have hsize : 0 < size := by omega
  have hblock : (leftover size input ++ [item]).length = size := by
    rw [List.length_append, List.length_singleton, hfull]
  obtain ⟨hconsume, hleft⟩ := @consume_append _ _ size process hsize state input [item]
  have hwhole := @consume_block_append _ _ size process (consume size process state input) _ []
    hsize hblock
  have hnone := @leftover_block_append _ size _ [] hsize hblock
  rw [List.append_nil] at hwhole hnone
  exact ⟨(hconsume.trans hwhole).trans (consume_of_lt hsize),
    (hleft.trans hnone).trans (leftover_of_lt hsize)⟩

/-- One more item is kept with the others. -/
theorem consume_concat_of_ne {item : α} (hsize : 0 < size)
    (hroom : (leftover size input).length + 1 ≠ size) :
    consume size process state (input ++ [item]) = consume size process state input ∧
      leftover size (input ++ [item]) = leftover size input ++ [item] := by
  have hlength := length_leftover_lt hsize input
  have hshort : (leftover size input ++ [item]).length < size := by
    rw [List.length_append, List.length_singleton]
    omega
  obtain ⟨hconsume, hleft⟩ := @consume_append _ _ size process hsize state input [item]
  rw [hconsume, hleft]
  exact ⟨consume_of_lt hshort, leftover_of_lt hshort⟩

end BenchBF3.Foundation
