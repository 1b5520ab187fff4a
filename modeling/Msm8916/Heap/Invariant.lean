import Msm8916.Heap.LocHeap
import Mathlib.Algebra.Order.Group.Multiset

/-!
The representation invariant of the heap tree and its preservation. `Valid`
says of a whole subtree what `checkNodes` says of a node and its children: no
element below a node outranks it, and every `mSize` is a node count.
-/

namespace Msm8916.Heap.LocHeapNode

open PriorityBag

variable {α : Type*} [LocRankable α]

/-- `ranks()` is consistent with the total preorder `le`. -/
abbrev ConsistentRanks (le : α → α → Prop) : Prop :=
  Ranking (fun x y : α => outRanks x y = true) le

/-- No element of the tree outranks `data`. -/
def Below (tree : LocHeapNode α) (data : α) : Prop :=
  ∀ x ∈ tree.elements, ¬ outRanks x data = true

def Valid : LocHeapNode α → Prop
  | .null => True
  | .node mSize mLeft mRight mData =>
      mSize = mLeft.count + mRight.count + 1 ∧
        mLeft.Below mData ∧ mRight.Below mData ∧ mLeft.Valid ∧ mRight.Valid

omit [LocRankable α] in
theorem card_elements (tree : LocHeapNode α) : tree.elements.card = tree.count := by
  induction tree with
  | null => rfl
  | node mSize mLeft mRight mData ihl ihr => simp [elements, count, ihl, ihr]

theorem Valid.getSize_eq {tree : LocHeapNode α} (h : tree.Valid) :
    tree.getSize = tree.count := by
  cases tree with
  | null => rfl
  | node mSize mLeft mRight mData => simpa [getSize, count] using h.1

theorem Below.trans {le : α → α → Prop} (hrank : ConsistentRanks le)
    {tree : LocHeapNode α} {low high : α} (h : tree.Below low)
    (hle : ¬ outRanks low high = true) : tree.Below high :=
  fun x hx => hrank.not_above_trans (h x hx) hle

/-- The data of a valid tree's top is not outranked by anything stored. -/
theorem Valid.isTop {le : α → α → Prop} (hrank : ConsistentRanks le)
    {tree : LocHeapNode α} (h : tree.Valid) {top : α} (htop : tree.mData? = some top) :
    IsTop (fun x y : α => outRanks x y = true) tree.elements top := by
  cases tree with
  | null => cases htop
  | node mSize mLeft mRight mData =>
      obtain rfl : mData = top := Option.some.inj htop
      refine ⟨Multiset.mem_cons_self _ _, fun x hx => ?_⟩
      rcases Multiset.mem_cons.mp hx with rfl | hx
      · exact hrank.not_above_self x
      · rcases Multiset.mem_add.mp hx with hx | hx
        · exact h.2.1 x hx
        · exact h.2.2.1 x hx

theorem Valid.below_top {le : α → α → Prop} (hrank : ConsistentRanks le)
    {tree : LocHeapNode α} (h : tree.Valid) {top : α} (htop : tree.mData? = some top) :
    tree.Below top :=
  (h.isTop hrank htop).2

omit [LocRankable α] in
theorem mData?_eq_none {tree : LocHeapNode α} : tree.mData? = none ↔ tree = .null := by
  cases tree <;> simp [mData?]

omit [LocRankable α] in
theorem elements_eq_zero {tree : LocHeapNode α} : tree.elements = 0 ↔ tree = .null := by
  cases tree <;> simp [elements]

/-! ## push -/

/-- Whether `push` drops the new node into the left subtree. -/
def goesLeft (mLeft mRight : LocHeapNode α) : Bool :=
  match mLeft, mRight with
  | .null, _ => true
  | .node .., .null => false
  | .node .., .node .. => mLeft.getSize ≤ mRight.getSize

/-- What a push into a node can do: keep the higher of the two objects and push
the other into one subtree. -/
theorem push_node (data : α) (mSize : Int) (mLeft mRight : LocHeapNode α) (mData : α) :
    (LocHeapNode.node mSize mLeft mRight mData).push data =
      if goesLeft mLeft mRight then
        .node (mSize + 1) (mLeft.push (if outRanks data mData then mData else data)) mRight
          (if outRanks data mData then data else mData)
      else
        .node (mSize + 1) mLeft (mRight.push (if outRanks data mData then mData else data))
          (if outRanks data mData then data else mData) := by
  cases mLeft with
  | null => rfl
  | node sl ll lr ld =>
      cases mRight with
      | null => rfl
      | node sr rl rr rd => simp [push, goesLeft]

/-- The top after a push: the new object if it outranks the old top. -/
theorem mData?_push {tree : LocHeapNode α} {top : α} (h : tree.mData? = some top) (data : α) :
    (tree.push data).mData? = some (if outRanks data top then data else top) := by
  cases tree with
  | null => cases h
  | node mSize mLeft mRight mData =>
      obtain rfl : mData = top := Option.some.inj h
      rw [push_node]
      cases goesLeft mLeft mRight <;> rfl

theorem kept_cons_dropped (data mData : α) (rest : Multiset α) :
    (if outRanks data mData then data else mData) ::ₘ
        (if outRanks data mData then mData else data) ::ₘ rest =
      data ::ₘ mData ::ₘ rest := by
  split
  · rfl
  · exact Multiset.cons_swap _ _ _

theorem elements_push (data : α) (tree : LocHeapNode α) :
    (tree.push data).elements = data ::ₘ tree.elements := by
  induction tree generalizing data with
  | null => rfl
  | node mSize mLeft mRight mData ihl ihr =>
      rw [elements, ← kept_cons_dropped, push_node]
      cases goesLeft mLeft mRight with
      | true => rw [if_pos rfl, elements, ihl, Multiset.cons_add]
      | false => rw [if_neg Bool.false_ne_true, elements, ihr, Multiset.add_cons]

theorem count_push (data : α) (tree : LocHeapNode α) :
    (tree.push data).count = tree.count + 1 := by
  rw [← card_elements, elements_push, Multiset.card_cons, card_elements]

/-- The object a node drops into a subtree does not outrank the one it keeps. -/
theorem not_outRanks_kept {le : α → α → Prop} (hrank : ConsistentRanks le)
    (data mData : α) :
    ¬ outRanks (if outRanks data mData then mData else data)
        (if outRanks data mData then data else mData) = true := by
  by_cases h : outRanks data mData = true
  · simpa [h] using hrank.not_above_of_above h
  · simp [h]

theorem Below.kept {le : α → α → Prop} (hrank : ConsistentRanks le)
    {tree : LocHeapNode α} {mData : α} (data : α) (h : tree.Below mData) :
    tree.Below (if outRanks data mData then data else mData) := by
  by_cases hout : outRanks data mData = true
  · simpa [hout] using h.trans hrank (hrank.not_above_of_above hout)
  · simpa [hout] using h

theorem Below.push {tree : LocHeapNode α} {data kept : α} (h : tree.Below kept)
    (hdata : ¬ outRanks data kept = true) : (tree.push data).Below kept := by
  intro x hx
  rw [elements_push] at hx
  rcases Multiset.mem_cons.mp hx with rfl | hx
  · exact hdata
  · exact h x hx

theorem Valid.push {le : α → α → Prop} (hrank : ConsistentRanks le)
    {tree : LocHeapNode α} (h : tree.Valid) (data : α) : (tree.push data).Valid := by
  induction tree generalizing data with
  | null => exact ⟨rfl, by simp [Below, elements], by simp [Below, elements], trivial, trivial⟩
  | node mSize mLeft mRight mData ihl ihr =>
      obtain ⟨hsize, hbl, hbr, hl, hr⟩ := h
      have hdrop := not_outRanks_kept hrank data mData
      have hkl := hbl.kept hrank data
      have hkr := hbr.kept hrank data
      rw [push_node]
      cases goesLeft mLeft mRight with
      | true =>
          refine ⟨?_, hkl.push hdrop, hkr, ihl hl _, hr⟩
          rw [count_push]
          omega
      | false =>
          refine ⟨?_, hkl, hkr.push hdrop, hl, ihr hr _⟩
          rw [count_push]
          omega

/-! ## pop -/

theorem popSwapped_snd (data : α) (tree : LocHeapNode α) :
    (tree.popSwapped data).2 = data := by
  induction tree with
  | null => rfl
  | node mSize mLeft mRight mData ihl ihr =>
      simp only [popSwapped]
      split
      · rfl
      · exact ihr
      · exact ihl
      · split
        · exact ihl
        · exact ihr

/-- The elements of a tree without the data of its top. -/
def tailElements : LocHeapNode α → Multiset α
  | .null => 0
  | .node _ mLeft mRight _ => mLeft.elements + mRight.elements

omit [LocRankable α] in
theorem elements_eq_cons {tree : LocHeapNode α} {top : α} (h : tree.mData? = some top) :
    tree.elements = top ::ₘ tree.tailElements := by
  cases tree with
  | null => cases h
  | node mSize mLeft mRight mData =>
      obtain rfl : mData = top := Option.some.inj h
      rfl

theorem elements_popSwapped (data : α) (tree : LocHeapNode α) :
    (tree.popSwapped data).1.elements = tree.tailElements := by
  induction tree with
  | null => rfl
  | node mSize mLeft mRight mData ihl ihr =>
      simp only [popSwapped, tailElements]
      split
      · rename_i hl hr
        rw [mData?_eq_none.mp hl, mData?_eq_none.mp hr]
        rfl
      · rename_i subTop hl hr
        rw [elements, ihr, elements_eq_cons hr, Multiset.add_cons]
      · rename_i subTop hl hr
        rw [elements, ihl, elements_eq_cons hl, Multiset.cons_add]
      · rename_i left right hl hr
        split
        · rw [elements, ihl, elements_eq_cons hl, Multiset.cons_add]
        · rw [elements, ihr, elements_eq_cons hr, Multiset.add_cons]

theorem count_popSwapped (data : α) {tree : LocHeapNode α} {top : α}
    (h : tree.mData? = some top) :
    (tree.popSwapped data).1.count + 1 = tree.count := by
  rw [← card_elements, elements_popSwapped, ← card_elements tree, elements_eq_cons h,
    Multiset.card_cons]

theorem Below.popSwapped {tree : LocHeapNode α} {high : α} (h : tree.Below high) (data : α) :
    (tree.popSwapped data).1.Below high := by
  intro x hx
  rw [elements_popSwapped] at hx
  cases tree with
  | null => cases hx
  | node mSize mLeft mRight mData => exact h x (Multiset.mem_cons_of_mem hx)

theorem Valid.popSwapped {le : α → α → Prop} (hrank : ConsistentRanks le)
    {tree : LocHeapNode α} (h : tree.Valid) (data : α) : (tree.popSwapped data).1.Valid := by
  induction tree with
  | null => trivial
  | node mSize mLeft mRight mData ihl ihr =>
      obtain ⟨hsize, hbl, hbr, hl, hr⟩ := h
      simp only [LocHeapNode.popSwapped]
      split
      · trivial
      · rename_i subTop hnone hsome
        have hcount := count_popSwapped data hsome
        refine ⟨by omega, ?_, (hr.below_top hrank hsome).popSwapped data, hl, ihr hr⟩
        rw [mData?_eq_none.mp hnone]
        simp [Below, elements]
      · rename_i subTop hsome hnone
        have hcount := count_popSwapped data hsome
        refine ⟨by omega, (hl.below_top hrank hsome).popSwapped data, ?_, ihl hl, hr⟩
        rw [mData?_eq_none.mp hnone]
        simp [Below, elements]
      · rename_i left right hleft hright
        have htl := hl.below_top hrank hleft
        have htr := hr.below_top hrank hright
        split
        · rename_i hout
          have hcount := count_popSwapped data hleft
          exact ⟨by omega, htl.popSwapped data,
            htr.trans hrank (hrank.not_above_of_above hout), ihl hl, hr⟩
        · rename_i hout
          have hcount := count_popSwapped data hright
          exact ⟨by omega, htl.trans hrank hout, htr.popSwapped data, hl, ihr hr⟩

theorem pop_snd (tree : LocHeapNode α) : tree.pop.2 = tree.mData? := by
  cases tree with
  | null => rfl
  | node mSize mLeft mRight mData =>
      simp only [pop, mData?, popSwapped_snd]

theorem elements_pop (tree : LocHeapNode α) : tree.pop.1.elements = tree.tailElements := by
  cases tree with
  | null => rfl
  | node mSize mLeft mRight mData =>
      exact elements_popSwapped mData (.node mSize mLeft mRight mData)

theorem Valid.pop {le : α → α → Prop} (hrank : ConsistentRanks le)
    {tree : LocHeapNode α} (h : tree.Valid) : tree.pop.1.Valid := by
  cases tree with
  | null => trivial
  | node mSize mLeft mRight mData => exact h.popSwapped hrank mData

/-! ## remove -/

section Remove

variable [DecidableEq α]

/-- What a removal can do at a node: take the top, descend into the left or
the right subtree, or leave the node alone. -/
theorem remove_node (data : α) (mSize : Int) (mLeft mRight : LocHeapNode α) (mData : α) :
    (LocHeapNode.node mSize mLeft mRight mData).remove data =
      if data = mData then (LocHeapNode.node mSize mLeft mRight mData).pop
      else if outRanks data mData then (.node mSize mLeft mRight mData, none)
      else match (mLeft.remove data).2, (mRight.remove data).2 with
        | some removed, _ =>
            (.node (mSize - 1) (mLeft.remove data).1 mRight mData, some removed)
        | none, some removed =>
            (.node (mSize - 1) (mLeft.remove data).1 (mRight.remove data).1 mData, some removed)
        | none, none =>
            (.node mSize (mLeft.remove data).1 (mRight.remove data).1 mData, none) := by
  rw [remove]
  by_cases heq : data = mData
  · simp [heq]
  · by_cases hout : outRanks data mData = true
    · simp [heq, hout]
    · simp only [heq, hout, if_false]
      rcases hl : mLeft.remove data with ⟨mLeft', _ | removed⟩ <;>
        rcases hr : mRight.remove data with ⟨mRight', _ | removed'⟩ <;> simp

/-- A removal that finds nothing changes nothing. -/
theorem remove_eq_self {data : α} {tree : LocHeapNode α}
    (h : (tree.remove data).2 = none) : (tree.remove data).1 = tree := by
  induction tree with
  | null => rfl
  | node mSize mLeft mRight mData ihl ihr =>
      rw [remove_node] at h ⊢
      split at h
      · cases h
      · split at h
        · rw [if_neg ‹_›, if_pos ‹_›]
        · rw [if_neg ‹_›, if_neg ‹_›]
          cases hl : (mLeft.remove data).2 with
          | some removed => simp [hl] at h
          | none =>
              cases hr : (mRight.remove data).2 with
              | some removed => simp [hl, hr] at h
              | none => simp [ihl hl, ihr hr]

/-- A removal that finds something takes exactly `data` out of the tree. -/
theorem remove_eq_some {data removed : α} {tree : LocHeapNode α}
    (h : (tree.remove data).2 = some removed) :
    removed = data ∧ tree.elements = data ::ₘ (tree.remove data).1.elements := by
  induction tree generalizing removed with
  | null => cases h
  | node mSize mLeft mRight mData ihl ihr =>
      rw [remove_node] at h ⊢
      split at h
      · rename_i heq
        subst heq
        rw [if_pos rfl, elements_pop]
        rw [pop_snd] at h
        exact ⟨(Option.some.inj h).symm, rfl⟩
      · split at h
        · cases h
        · rw [if_neg ‹_›, if_neg ‹_›]
          cases hl : (mLeft.remove data).2 with
          | some found =>
              obtain ⟨rfl, hel⟩ := ihl hl
              simp only [hl] at h ⊢
              refine ⟨(Option.some.inj h).symm, ?_⟩
              rw [elements, hel, elements, Multiset.cons_add, Multiset.cons_swap]
          | none =>
              cases hr : (mRight.remove data).2 with
              | some found =>
                  obtain ⟨rfl, her⟩ := ihr hr
                  simp only [hl, hr] at h ⊢
                  refine ⟨(Option.some.inj h).symm, ?_⟩
                  rw [remove_eq_self hl, elements, her, elements, Multiset.add_cons,
                    Multiset.cons_swap]
              | none => simp [hl, hr] at h

/-- A removal that does not take the top leaves the top where it is. -/
theorem mData?_remove {data : α} {tree : LocHeapNode α}
    (h : tree.mData? ≠ (tree.remove data).2) : (tree.remove data).1.mData? = tree.mData? := by
  cases tree with
  | null => rfl
  | node mSize mLeft mRight mData =>
      rw [remove_node] at h ⊢
      split
      · rename_i heq
        rw [if_pos heq, pop_snd] at h
        exact absurd rfl h
      · split
        · rfl
        · split <;> rfl

/-- Pruning by rank loses nothing: in a valid tree a removal that finds
nothing was given an object that is not stored. -/
theorem not_mem_of_remove_eq_none {data : α} {tree : LocHeapNode α} (hvalid : tree.Valid)
    (h : (tree.remove data).2 = none) : data ∉ tree.elements := by
  induction tree with
  | null => simp [elements]
  | node mSize mLeft mRight mData ihl ihr =>
      obtain ⟨hsize, hbl, hbr, hl, hr⟩ := hvalid
      rw [remove_node] at h
      have hmem : ∀ {P : Prop}, (data = mData → P) → (data ∈ mLeft.elements → P) →
          (data ∈ mRight.elements → P) →
          data ∈ (LocHeapNode.node mSize mLeft mRight mData).elements → P := by
        intro P h1 h2 h3 hx
        rcases Multiset.mem_cons.mp hx with hx | hx
        · exact h1 hx
        · exact (Multiset.mem_add.mp hx).elim h2 h3
      split at h
      · cases h
      · rename_i hne
        split at h
        · rename_i hout
          exact fun hx => hmem hne (fun hx => hbl data hx hout) (fun hx => hbr data hx hout) hx
        · cases hrl : (mLeft.remove data).2 with
          | some removed => simp [hrl] at h
          | none =>
              cases hrr : (mRight.remove data).2 with
              | some removed => simp [hrl, hrr] at h
              | none => exact fun hx => hmem hne (ihl hl hrl) (ihr hr hrr) hx

/-- `remove` answers `data` exactly when it is stored. -/
theorem remove_snd {tree : LocHeapNode α} (hvalid : tree.Valid) (data : α) :
    (tree.remove data).2 = if data ∈ tree.elements then some data else none := by
  cases h : (tree.remove data).2 with
  | none => rw [if_neg (not_mem_of_remove_eq_none hvalid h)]
  | some removed =>
      obtain ⟨rfl, hel⟩ := remove_eq_some h
      rw [if_pos (hel ▸ Multiset.mem_cons_self _ _)]

/-- What `remove` leaves stored. -/
theorem elements_remove {tree : LocHeapNode α} (hvalid : tree.Valid) (data : α) :
    (tree.remove data).1.elements = tree.elements.erase data := by
  cases h : (tree.remove data).2 with
  | none =>
      have hnot := not_mem_of_remove_eq_none hvalid h
      rw [remove_eq_self h, Multiset.erase_of_notMem hnot]
  | some removed =>
      obtain ⟨rfl, hel⟩ := remove_eq_some h
      rw [hel, Multiset.erase_cons_head]

theorem elements_remove_le (data : α) (tree : LocHeapNode α) :
    (tree.remove data).1.elements ≤ tree.elements := by
  cases h : (tree.remove data).2 with
  | none => rw [remove_eq_self h]
  | some removed =>
      rw [(remove_eq_some h).2]
      exact Multiset.le_cons_self _ _

theorem count_remove {data removed : α} {tree : LocHeapNode α}
    (h : (tree.remove data).2 = some removed) :
    (tree.remove data).1.count + 1 = tree.count := by
  rw [← card_elements, ← card_elements tree, (remove_eq_some h).2, Multiset.card_cons]

theorem Below.remove {tree : LocHeapNode α} {high : α} (h : tree.Below high) (data : α) :
    (tree.remove data).1.Below high :=
  fun x hx => h x (Multiset.mem_of_le (elements_remove_le data tree) hx)

theorem Valid.remove {le : α → α → Prop} (hrank : ConsistentRanks le)
    {tree : LocHeapNode α} (h : tree.Valid) (data : α) : (tree.remove data).1.Valid := by
  induction tree with
  | null => trivial
  | node mSize mLeft mRight mData ihl ihr =>
      have hnode := h
      obtain ⟨hsize, hbl, hbr, hl, hr⟩ := h
      rw [remove_node]
      split
      · exact hnode.pop hrank
      · split
        · exact hnode
        · cases hrl : (mLeft.remove data).2 with
          | some removed =>
              have hcount := count_remove hrl
              exact ⟨by omega, hbl.remove data, hbr, ihl hl, hr⟩
          | none =>
              cases hrr : (mRight.remove data).2 with
              | some removed =>
                  have hcount := count_remove hrr
                  rw [remove_eq_self hrl]
                  exact ⟨by omega, hbl, hbr.remove data, hl, ihr hr⟩
              | none =>
                  rw [remove_eq_self hrl, remove_eq_self hrr]
                  exact hnode

end Remove

/-! ## checkNodes -/

theorem childRanksBelow_iff {le : α → α → Prop} (hrank : ConsistentRanks le)
    {child : LocHeapNode α} (h : child.Valid) (mData : α) :
    child.childRanksBelow mData = true ↔ child.Below mData := by
  cases child with
  | null => simp [childRanksBelow, Below, elements]
  | node mSize mLeft mRight data =>
      simp only [childRanksBelow, Bool.not_eq_true']
      constructor
      · intro hdata
        exact (h.below_top hrank rfl).trans hrank (by simp [hdata])
      · intro hbelow
        simpa using hbelow data (Multiset.mem_cons_self _ _)

/-- The code's own consistency check accepts exactly the valid trees. -/
theorem checkNodes_iff {le : α → α → Prop} (hrank : ConsistentRanks le)
    (tree : LocHeapNode α) : tree.checkNodes = true ↔ tree.Valid := by
  induction tree with
  | null => exact ⟨fun _ => trivial, fun _ => rfl⟩
  | node mSize mLeft mRight mData ihl ihr =>
      simp only [checkNodes, Valid, Bool.and_eq_true, beq_iff_eq]
      rw [ihl, ihr]
      constructor
      · rintro ⟨⟨⟨hcl, hl⟩, hcr, hr⟩, hsize⟩
        rw [hl.getSize_eq, hr.getSize_eq] at hsize
        exact ⟨by omega, (childRanksBelow_iff hrank hl mData).mp hcl,
          (childRanksBelow_iff hrank hr mData).mp hcr, hl, hr⟩
      · rintro ⟨hsize, hbl, hbr, hl, hr⟩
        refine ⟨⟨⟨(childRanksBelow_iff hrank hl mData).mpr hbl, hl⟩,
          (childRanksBelow_iff hrank hr mData).mpr hbr, hr⟩, ?_⟩
        rw [hl.getSize_eq, hr.getSize_eq]
        omega

end Msm8916.Heap.LocHeapNode

namespace Msm8916.Heap.LocHeap

variable {α : Type*}

theorem peek_eq_none {heap : LocHeap α} : heap.peek = none ↔ heap = empty := by
  rw [peek, LocHeapNode.mData?_eq_none]
  constructor
  · exact fun hnull => congrArg mk hnull
  · rintro rfl
    rfl

theorem eq_empty_iff {heap : LocHeap α} : heap = empty ↔ heap.elements = 0 := by
  rw [← peek_eq_none, peek, elements, LocHeapNode.mData?_eq_none,
    LocHeapNode.elements_eq_zero]

variable [LocRankable α]

theorem elements_push (heap : LocHeap α) (data : α) :
    (heap.push data).elements = data ::ₘ heap.elements :=
  LocHeapNode.elements_push data heap.mTree

theorem pop_eq {heap : LocHeap α} {top : α} (h : heap.peek = some top) :
    heap.pop = (heap.pop.1, some top) :=
  Prod.ext rfl ((LocHeapNode.pop_snd heap.mTree).trans h)

/-- What is stored is the top and what a pop leaves. -/
theorem elements_of_peek {heap : LocHeap α} {top : α} (h : heap.peek = some top) :
    heap.elements = top ::ₘ heap.pop.1.elements := by
  have hpop : heap.pop.1.elements = heap.mTree.tailElements :=
    LocHeapNode.elements_pop heap.mTree
  rw [hpop]
  exact LocHeapNode.elements_eq_cons h

theorem count_pop {heap : LocHeap α} {top : α} (h : heap.peek = some top) :
    heap.pop.1.mTree.count < heap.mTree.count := by
  have hcard := congrArg Multiset.card (elements_of_peek h)
  rw [Multiset.card_cons, elements, elements, LocHeapNode.card_elements,
    LocHeapNode.card_elements] at hcard
  rw [hcard]
  exact Nat.lt_succ_self _

theorem elements_remove [DecidableEq α] {heap : LocHeap α} (hvalid : heap.mTree.Valid)
    (data : α) : (heap.remove data).1.elements = heap.elements.erase data :=
  LocHeapNode.elements_remove hvalid data

end Msm8916.Heap.LocHeap
