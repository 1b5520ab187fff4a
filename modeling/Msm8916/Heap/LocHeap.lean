import Msm8916.Lib.PriorityBag

/-!
The timer heap of `gps/utils/LocHeap.cpp`: a pointer tree sorted only
vertically and kept level by subtree sizes. A subtree is a value here, so a
reference to a child pointer becomes the subtree the function hands back.
Stored objects are compared by address, which is equality of `α`.
-/

namespace Msm8916.Heap

/-- `LocRankable`: positive when the first object ranks higher. -/
class LocRankable (α : Type*) where
  ranks : α → α → Int

/-- `LocRankable::outRanks`. -/
def outRanks {α : Type*} [LocRankable α] (x y : α) : Bool :=
  decide (LocRankable.ranks x y > 0)

/-- A `LocHeapNode*`; `null` is the null pointer. -/
inductive LocHeapNode (α : Type*) where
  | null : LocHeapNode α
  | node (mSize : Int) (mLeft mRight : LocHeapNode α) (mData : α) : LocHeapNode α
deriving DecidableEq, Repr

namespace LocHeapNode

variable {α : Type*}

/-- A freshly constructed `LocHeapNode`. -/
def single (data : α) : LocHeapNode α := .node 1 .null .null data

/-- The data of the node, if the pointer is not null. -/
def mData? : LocHeapNode α → Option α
  | .null => none
  | .node _ _ _ mData => some mData

/-- `mSize`, which no caller reads through a null pointer. -/
def getSize : LocHeapNode α → Int
  | .null => 0
  | .node mSize _ _ _ => mSize

/-- The objects stored in the tree. -/
def elements : LocHeapNode α → Multiset α
  | .null => 0
  | .node _ mLeft mRight mData => mData ::ₘ (mLeft.elements + mRight.elements)

/-- The number of nodes of the tree. -/
def count : LocHeapNode α → Nat
  | .null => 0
  | .node _ mLeft mRight _ => mLeft.count + mRight.count + 1

variable [LocRankable α]

/-- `LocHeapNode::push` of a new node that holds `data`; at the null pointer
`LocHeap::push` stores the new node itself. -/
def push (data : α) : LocHeapNode α → LocHeapNode α
  | .null => single data
  | .node mSize mLeft mRight mData =>
      -- `swap(node)` when the incoming node outranks this one
      let kept := if outRanks data mData then data else mData
      let dropped := if outRanks data mData then mData else data
      match mLeft, mRight with
      | .null, _ => .node (mSize + 1) (single dropped) mRight kept
      | .node .., .null => .node (mSize + 1) mLeft (single dropped) kept
      | .node .., .node .. =>
          if mLeft.getSize ≤ mRight.getSize then
            .node (mSize + 1) (mLeft.push dropped) mRight kept
          else
            .node (mSize + 1) mLeft (mRight.push dropped) kept

/-- `LocHeapNode::pop` on a node into which `data` has just been swapped. The
data of the chosen child moves up and `data` is swapped into that child, until
a leaf leaves the tree with it. -/
def popSwapped (data : α) : LocHeapNode α → LocHeapNode α × α
  | .null => (.null, data)
  | .node mSize mLeft mRight _ =>
      match mLeft.mData?, mRight.mData? with
      | none, none => (.null, data)
      | none, some subTop =>
          let (mRight', popped) := mRight.popSwapped data
          (.node (mSize - 1) mLeft mRight' subTop, popped)
      | some subTop, none =>
          let (mLeft', popped) := mLeft.popSwapped data
          (.node (mSize - 1) mLeft' mRight subTop, popped)
      | some left, some right =>
          if outRanks left right then
            let (mLeft', popped) := mLeft.popSwapped data
            (.node (mSize - 1) mLeft' mRight left, popped)
          else
            let (mRight', popped) := mRight.popSwapped data
            (.node (mSize - 1) mLeft mRight' right, popped)

/-- `LocHeapNode::pop`. -/
def pop : LocHeapNode α → LocHeapNode α × Option α
  | .null => (.null, none)
  | .node mSize mLeft mRight mData =>
      let (top, popped) := popSwapped mData (.node mSize mLeft mRight mData)
      (top, some popped)

/-- `LocHeapNode::remove`; a null child answers that it has no such node. -/
def remove [DecidableEq α] (data : α) : LocHeapNode α → LocHeapNode α × Option α
  | .null => (.null, none)
  | .node mSize mLeft mRight mData =>
      if data = mData then
        pop (.node mSize mLeft mRight mData)
      else if !outRanks data mData then
        match mLeft.remove data with
        | (mLeft', some removed) => (.node (mSize - 1) mLeft' mRight mData, some removed)
        | (mLeft', none) =>
            match mRight.remove data with
            | (mRight', some removed) =>
                (.node (mSize - 1) mLeft' mRight' mData, some removed)
            | (mRight', none) => (.node mSize mLeft' mRight' mData, none)
      else
        (.node mSize mLeft mRight mData, none)

/-- The test `checkNodes` makes on one child before it descends into it. -/
def childRanksBelow (child : LocHeapNode α) (mData : α) : Bool :=
  match child with
  | .null => true
  | .node _ _ _ data => !outRanks data mData

/-- `LocHeapNode::checkNodes`, true at the null pointer as in
`LocHeap::checkTree`. -/
def checkNodes : LocHeapNode α → Bool
  | .null => true
  | .node mSize mLeft mRight mData =>
      mLeft.childRanksBelow mData && mLeft.checkNodes &&
        (mRight.childRanksBelow mData && mRight.checkNodes) &&
        (mSize - mLeft.getSize - mRight.getSize == 1)

end LocHeapNode

/-- A `LocHeap`: the pointer to the tree. -/
structure LocHeap (α : Type*) where
  mTree : LocHeapNode α
deriving DecidableEq

namespace LocHeap

variable {α : Type*}

def empty : LocHeap α := ⟨.null⟩

/-- `LocHeap::peek`. -/
def peek (heap : LocHeap α) : Option α := heap.mTree.mData?

def elements (heap : LocHeap α) : Multiset α := heap.mTree.elements

variable [LocRankable α]

/-- `LocHeap::push`. -/
def push (heap : LocHeap α) (data : α) : LocHeap α := ⟨heap.mTree.push data⟩

/-- `LocHeap::pop`. -/
def pop (heap : LocHeap α) : LocHeap α × Option α :=
  let (mTree, popped) := heap.mTree.pop
  (⟨mTree⟩, popped)

/-- `LocHeap::remove`. -/
def remove [DecidableEq α] (heap : LocHeap α) (data : α) : LocHeap α × Option α :=
  let (mTree, removed) := heap.mTree.remove data
  (⟨mTree⟩, removed)

/-- `LocHeap::checkTree`. -/
def checkTree (heap : LocHeap α) : Bool := heap.mTree.checkNodes

end LocHeap

end Msm8916.Heap
