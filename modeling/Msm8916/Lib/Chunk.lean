import Mathlib.Data.List.Basic

/-!
Lists cut into chunks of one size, of which only the last may be shorter.
-/

namespace Msm8916.Chunk

variable {α : Type*}

/-- Chunks of `size` elements, or of one if `size` is zero. -/
def chunks (size : Nat) : List α → List (List α)
  | [] => []
  | x :: rest => (x :: rest.take (size - 1)) :: chunks size (rest.drop (size - 1))
termination_by l => l.length
decreasing_by
  rw [List.length_drop, List.length_cons]
  omega

@[simp]
theorem chunks_nil (size : Nat) : chunks size ([] : List α) = [] := by
  rw [chunks]

theorem chunks_of_ne_nil {size : Nat} (hsize : 0 < size) {l : List α} (h : l ≠ []) :
    chunks size l = l.take size :: chunks size (l.drop size) := by
  obtain ⟨k, rfl⟩ : ∃ k, size = k + 1 := ⟨size - 1, by omega⟩
  cases l with
  | nil => exact absurd rfl h
  | cons x rest =>
      rw [chunks, Nat.add_sub_cancel, List.take_succ_cons, List.drop_succ_cons]

/-- Nothing is lost and nothing is repeated. -/
theorem flatten_chunks (size : Nat) (l : List α) : (chunks size l).flatten = l := by
  induction l using chunks.induct size with
  | case1 => rw [chunks_nil, List.flatten_nil]
  | case2 x rest ih =>
      rw [chunks, List.flatten_cons, ih, List.cons_append, List.take_append_drop]

theorem length_of_mem_chunks {size : Nat} (hsize : 0 < size) {l chunk : List α}
    (h : chunk ∈ chunks size l) : 1 ≤ chunk.length ∧ chunk.length ≤ size := by
  induction l using chunks.induct size with
  | case1 =>
      rw [chunks_nil] at h
      cases h
  | case2 x rest ih =>
      rw [chunks] at h
      rcases List.mem_cons.mp h with rfl | hrest
      · rw [List.length_cons, List.length_take]
        omega
      · exact ih hrest

/-- There are as many chunks as the length of the list is multiples of the size,
rounded up. -/
theorem length_chunks {size : Nat} (hsize : 0 < size) (l : List α) :
    (chunks size l).length = (l.length + (size - 1)) / size := by
  induction l using chunks.induct size with
  | case1 =>
      have hsmall : ([] : List α).length + (size - 1) < size := by
        rw [List.length_nil]
        omega
      rw [chunks_nil, Nat.div_eq_of_lt hsmall, List.length_nil]
  | case2 x rest ih =>
      rw [chunks, List.length_cons, ih, List.length_drop, List.length_cons]
      by_cases hlast : rest.length ≤ size - 1
      · have hnone : rest.length - (size - 1) = 0 := by omega
        have hone : rest.length + 1 + (size - 1) = size + rest.length := by omega
        rw [hnone, Nat.zero_add, Nat.div_eq_of_lt (by omega), hone,
          Nat.add_div_left _ hsize, Nat.div_eq_of_lt (by omega)]
      · have hmore : rest.length + 1 + (size - 1) =
            rest.length - (size - 1) + (size - 1) + size := by
          omega
        rw [hmore, Nat.add_div_right _ hsize]

end Msm8916.Chunk
