import Mathlib.Data.Nat.BitIndices
import Mathlib.Data.Nat.Bitwise

/-!
The set bits of a number. Subtracting one borrows up to the lowest of them, so that the
conjunction with the predecessor clears exactly that one.
-/

namespace Msm8916.SetBits

theorem and_pred_odd (m : Nat) : (2 * m + 1) &&& (2 * m + 1 - 1) = 2 * m := by
  have hbit : Nat.bit true m &&& Nat.bit false m = Nat.bit (true && false) (m &&& m) :=
    Nat.land_bit true m false m
  rwa [Nat.and_self] at hbit

theorem and_pred_even (m : Nat) : (2 * m) &&& (2 * m - 1) = 2 * (m &&& (m - 1)) := by
  cases m with
  | zero => rfl
  | succ m =>
      have hpred : 2 * (m + 1) - 1 = 2 * m + 1 := by omega
      have hbit : Nat.bit false (m + 1) &&& Nat.bit true m =
          Nat.bit (false && true) ((m + 1) &&& m) := Nat.land_bit false (m + 1) true m
      rw [hpred]
      exact hbit

/-- The lowest set bit is cleared. -/
theorem bitIndices_and_pred (n : Nat) : (n &&& (n - 1)).bitIndices = n.bitIndices.tail := by
  induction n using Nat.binaryRec with
  | zero => simp
  | bit b m ih =>
      cases b with
      | false =>
          rw [Nat.bit_false, and_pred_even, Nat.bitIndices_two_mul, Nat.bitIndices_two_mul, ih,
            List.map_tail]
      | true =>
          rw [Nat.bit_true, and_pred_odd, Nat.bitIndices_two_mul, Nat.bitIndices_two_mul_add_one,
            List.tail_cons]

theorem bitIndices_eq_nil {n : Nat} : n.bitIndices = [] ↔ n = 0 := by
  constructor
  · intro hnil
    have hsum := Nat.sum_map_two_pow_bitIndices n
    rw [hnil] at hsum
    exact hsum.symm
  · rintro rfl
    exact Nat.bitIndices_zero

/-- A number has no more set bits than it is wide. -/
theorem length_bitIndices_le {n w : Nat} (h : n < 2 ^ w) : n.bitIndices.length ≤ w := by
  have hsub : n.bitIndices ⊆ List.range w := by
    intro i hi
    rw [List.mem_range]
    by_contra hle
    have hbit := Nat.mem_bitIndices.mp hi
    rw [Nat.testBit_eq_false_of_lt] at hbit
    · cases hbit
    · exact Nat.lt_of_lt_of_le h (Nat.pow_le_pow_right Nat.two_pos (Nat.le_of_not_lt hle))
  have hle := (List.subperm_of_subset Nat.bitIndices_nodup hsub).length_le
  rwa [List.length_range] at hle

end Msm8916.SetBits
