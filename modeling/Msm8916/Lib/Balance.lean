import Mathlib.Data.Nat.Size
import Mathlib.Data.Tree.Basic

/-!
Binary trees whose subtrees differ by at most one in size at every node. Such a tree is as low
as a tree of its size can be.
-/

namespace Msm8916.Balance

variable {α : Type*}

def SizeBalanced : BinaryTree α → Prop
  | .nil => True
  | .node _ left right =>
      left.numNodes ≤ right.numNodes + 1 ∧ right.numNodes ≤ left.numNodes + 1 ∧
        SizeBalanced left ∧ SizeBalanced right

/-- A number has one binary digit more than its half. -/
theorem size_eq_size_half {n : Nat} (hpos : 0 < n) : n.size = (n / 2).size + 1 := by
  have hle : ∀ k, n.size ≤ k + 1 ↔ (n / 2).size ≤ k := by
    intro k
    rw [Nat.size_le, Nat.size_le, Nat.div_lt_iff_lt_mul Nat.two_pos, Nat.pow_succ]
  have hsize : 0 < n.size := Nat.size_pos.mpr hpos
  apply Nat.le_antisymm
  · exact (hle _).mpr (Nat.le_refl _)
  · have hhalf : (n / 2).size ≤ n.size - 1 := (hle (n.size - 1)).mp (by omega)
    omega

theorem size_eq_log2 {n : Nat} (hpos : 0 < n) : n.size = n.log2 + 1 := by
  have hne : n ≠ 0 := Nat.ne_of_gt hpos
  have hle : ∀ k, n.size ≤ k ↔ n.log2 < k := by
    intro k
    rw [Nat.size_le, Nat.log2_lt hne]
  apply Nat.le_antisymm
  · exact (hle _).mpr (Nat.lt_succ_self _)
  · exact (hle _).mp (Nat.le_refl _)

/-- The height is the number of binary digits of the size. -/
theorem SizeBalanced.height_eq {tree : BinaryTree α} (h : SizeBalanced tree) :
    tree.height = tree.numNodes.size := by
  induction tree with
  | nil => rfl
  | node value left right ihl ihr =>
      obtain ⟨hleft, hright, hl, hr⟩ := h
      -- the larger of the subtrees has half of the nodes
      have hhalf : max left.numNodes right.numNodes =
          (left.numNodes + right.numNodes + 1) / 2 := by
        omega
      have hmax : max left.numNodes.size right.numNodes.size =
          (max left.numNodes right.numNodes).size := by
        rcases Nat.le_total left.numNodes right.numNodes with hle | hle
        · rw [Nat.max_eq_right hle, Nat.max_eq_right (Nat.size_le_size hle)]
        · rw [Nat.max_eq_left hle, Nat.max_eq_left (Nat.size_le_size hle)]
      rw [BinaryTree.height, BinaryTree.numNodes, ihl hl, ihr hr, hmax, hhalf,
        size_eq_size_half (Nat.succ_pos _)]

end Msm8916.Balance
