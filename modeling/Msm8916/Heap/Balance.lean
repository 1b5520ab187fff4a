import Msm8916.Heap.Invariant
import Msm8916.Lib.Balance

/-!
Pushes keep the tree of a heap level. `push` chooses the subtree by the recorded sizes, which
are exact whatever the ranks are.
-/

namespace Msm8916.Heap

open Balance

namespace LocHeapNode

variable {α : Type*}

/-- The shape of the tree, with what it stores. -/
def toTree : LocHeapNode α → BinaryTree α
  | .null => .nil
  | .node _ mLeft mRight mData => .node mData mLeft.toTree mRight.toTree

/-- Every `mSize` is the number of nodes of its subtree. -/
def Sized : LocHeapNode α → Prop
  | .null => True
  | .node mSize mLeft mRight _ =>
      mSize = mLeft.count + mRight.count + 1 ∧ mLeft.Sized ∧ mRight.Sized

@[simp]
theorem numNodes_toTree (tree : LocHeapNode α) : tree.toTree.numNodes = tree.count := by
  induction tree with
  | null => rfl
  | node mSize mLeft mRight mData ihl ihr => rw [toTree, BinaryTree.numNodes, ihl, ihr, count]

theorem Sized.getSize_eq {tree : LocHeapNode α} (h : tree.Sized) : tree.getSize = tree.count := by
  cases tree with
  | null => rfl
  | node mSize mLeft mRight mData => exact h.1

variable [LocRankable α]

theorem Sized.push {tree : LocHeapNode α} (h : tree.Sized) (data : α) :
    (tree.push data).Sized := by
  induction tree generalizing data with
  | null => exact ⟨rfl, trivial, trivial⟩
  | node mSize mLeft mRight mData ihl ihr =>
      obtain ⟨hsize, hl, hr⟩ := h
      rw [push_node]
      cases goesLeft mLeft mRight with
      | true =>
          refine ⟨?_, ihl hl _, hr⟩
          rw [count_push, hsize]
          omega
      | false =>
          refine ⟨?_, hl, ihr hr _⟩
          rw [count_push, hsize]
          omega

omit [LocRankable α] in
/-- The new node goes into the smaller subtree. -/
theorem goesLeft_spec {mLeft mRight : LocHeapNode α} (hl : mLeft.Sized) (hr : mRight.Sized) :
    if goesLeft mLeft mRight then mLeft.count ≤ mRight.count else mRight.count ≤ mLeft.count := by
  cases mLeft with
  | null => exact Nat.zero_le _
  | node sl ll lr ld =>
      cases mRight with
      | null => exact Nat.zero_le _
      | node sr rl rr rd =>
          rw [goesLeft, hl.getSize_eq, hr.getSize_eq]
          split
          · rename_i hle
            exact Int.ofNat_le.mp (of_decide_eq_true hle)
          · rename_i hle
            rw [decide_eq_true_eq, Int.ofNat_le] at hle
            exact Nat.le_of_not_le hle

theorem sizeBalanced_push {tree : LocHeapNode α} (hsized : tree.Sized)
    (h : SizeBalanced tree.toTree) (data : α) : SizeBalanced (tree.push data).toTree := by
  induction tree generalizing data with
  | null => exact ⟨Nat.zero_le _, Nat.zero_le _, trivial, trivial⟩
  | node mSize mLeft mRight mData ihl ihr =>
      obtain ⟨-, hsl, hsr⟩ := hsized
      obtain ⟨hleft, hright, hl, hr⟩ := h
      have hspec := goesLeft_spec hsl hsr
      rw [numNodes_toTree, numNodes_toTree] at hleft hright
      rw [push_node]
      cases hgoes : goesLeft mLeft mRight with
      | true =>
          rw [hgoes, if_pos rfl] at hspec
          refine ⟨?_, ?_, ihl hsl hl _, hr⟩
          · rw [numNodes_toTree, numNodes_toTree, count_push]
            omega
          · rw [numNodes_toTree, numNodes_toTree, count_push]
            omega
      | false =>
          rw [hgoes, if_neg Bool.false_ne_true] at hspec
          refine ⟨?_, ?_, hl, ihr hsr hr _⟩
          · rw [numNodes_toTree, numNodes_toTree, count_push]
            omega
          · rw [numNodes_toTree, numNodes_toTree, count_push]
            omega

end LocHeapNode

namespace LocHeap

variable {α : Type*} [LocRankable α]

/-- The heap after pushes of all the data. -/
def pushAll (heap : LocHeap α) (data : List α) : LocHeap α := data.foldl push heap

/-- What a push keeps: exact sizes and a balanced tree, with one node more. -/
theorem pushAll_spec {heap : LocHeap α} (hsized : heap.mTree.Sized)
    (hbalanced : SizeBalanced heap.mTree.toTree) (data : List α) :
    (heap.pushAll data).mTree.Sized ∧ SizeBalanced (heap.pushAll data).mTree.toTree ∧
      (heap.pushAll data).mTree.count = heap.mTree.count + data.length := by
  induction data generalizing heap with
  | nil => exact ⟨hsized, hbalanced, rfl⟩
  | cons x data ih =>
      have hpushed : (heap.push x).mTree.Sized := hsized.push x
      obtain ⟨hsizes, htree, hcount⟩ :=
        ih hpushed (LocHeapNode.sizeBalanced_push hsized hbalanced x)
      refine ⟨hsizes, htree, hcount.trans ?_⟩
      rw [push, LocHeapNode.count_push, List.length_cons]
      omega

/-- Pushes onto an empty heap make a tree of the least height there is. Its sizes are exact,
so that none exceeds the number of pushes. -/
theorem pushes_balanced (data : List α) :
    SizeBalanced (empty.pushAll data).mTree.toTree ∧ (empty.pushAll data).mTree.Sized ∧
      (empty.pushAll data).mTree.toTree.numNodes = data.length ∧
      (empty.pushAll data).mTree.toTree.height =
        if data.length = 0 then 0 else data.length.log2 + 1 := by
  have hempty : (empty : LocHeap α).mTree.Sized := trivial
  obtain ⟨hsized, hbalanced, hcount⟩ := pushAll_spec hempty trivial data
  have hnodes : (empty.pushAll data).mTree.toTree.numNodes = data.length := by
    rw [LocHeapNode.numNodes_toTree, hcount]
    exact Nat.zero_add _
  refine ⟨hbalanced, hsized, hnodes, ?_⟩
  rw [hbalanced.height_eq, hnodes]
  split
  · rename_i hzero
    rw [hzero, Nat.size_zero]
  · rename_i hne
    exact size_eq_log2 (Nat.pos_of_ne_zero hne)

end LocHeap

end Msm8916.Heap
