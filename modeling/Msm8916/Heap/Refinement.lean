import Msm8916.Heap.Invariant
import Msm8916.Lib.Transition

/-!
`LocHeap` refines the priority bag. A client's run is tracked together with
the set of objects it expects the heap to hold, which is kept from the answers
alone; the heap is related to that set after every operation.
-/

namespace Msm8916.Heap

open PriorityBag Transition

variable {α : Type*} [LocRankable α] [DecidableEq α]

/-- The public operations and their answers. -/
def LocHeap.apply (heap : LocHeap α) : Op α → LocHeap α × Option α
  | .push x => (heap.push x, none)
  | .peek => (heap, heap.peek)
  | .pop => heap.pop
  | .remove x => heap.remove x

/-- A heap and the set of objects its client has put in and not got back. -/
structure Tracked (α : Type*) where
  heap : LocHeap α
  stored : Finset α

namespace Tracked

def init : Tracked α := ⟨LocHeap.empty, ∅⟩

/-- One operation of a client that pushes distinct objects. -/
def step (tracked : Tracked α) (op : Op α) : Option (Tracked α) :=
  if Admits tracked.stored op then
    some ⟨(tracked.heap.apply op).1,
      after tracked.stored op (tracked.heap.apply op).2⟩
  else none

/-- The tree is valid and holds exactly the tracked objects, each once. -/
def Represents (tracked : Tracked α) : Prop :=
  tracked.heap.mTree.Valid ∧ tracked.heap.elements = tracked.stored.val

omit [DecidableEq α] in
theorem init_represents : (init : Tracked α).Represents := ⟨trivial, rfl⟩

theorem Represents.peek_answers {le : α → α → Prop}
    (hrank : LocHeapNode.ConsistentRanks le) {tracked : Tracked α}
    (h : tracked.Represents) :
    Answers (fun x y => outRanks x y = true) tracked.stored .peek tracked.heap.peek := by
  obtain ⟨hvalid, helements⟩ := h
  cases hpeek : tracked.heap.peek with
  | none =>
      rw [LocHeap.elements, LocHeapNode.mData?_eq_none.mp hpeek] at helements
      exact Finset.val_eq_zero.mp helements.symm
  | some top =>
      rw [Answers, ← helements]
      exact hvalid.isTop hrank hpeek

/-- Every operation on a heap that represents the tracked set answers what a
priority bag with that set may answer. -/
theorem Represents.answers {le : α → α → Prop}
    (hrank : LocHeapNode.ConsistentRanks le) {tracked : Tracked α}
    (h : tracked.Represents) (op : Op α) :
    Answers (fun x y => outRanks x y = true) tracked.stored op
      (tracked.heap.apply op).2 := by
  cases op with
  | push x => rfl
  | peek => exact h.peek_answers hrank
  | pop =>
      have hpop : tracked.heap.pop.2 = tracked.heap.peek :=
        LocHeapNode.pop_snd tracked.heap.mTree
      have hpeek := h.peek_answers hrank
      simp only [LocHeap.apply, hpop]
      cases htop : tracked.heap.peek <;> simpa only [htop, Answers] using hpeek
  | remove x =>
      have hmem : x ∈ tracked.heap.mTree.elements ↔ x ∈ tracked.stored := by
        rw [← Finset.mem_val, ← h.2, LocHeap.elements]
      have hremove := LocHeapNode.remove_snd h.1 x
      simp only [hmem] at hremove
      exact hremove

theorem Represents.step {le : α → α → Prop}
    (hrank : LocHeapNode.ConsistentRanks le) {tracked next : Tracked α} {op : Op α}
    (h : tracked.Represents) (hstep : tracked.step op = some next) :
    next.Represents := by
  unfold Tracked.step at hstep
  split at hstep
  case isFalse => cases hstep
  case isTrue hadmits =>
    obtain rfl := Option.some.inj hstep
    obtain ⟨hvalid, helements⟩ := h
    cases op with
    | push x =>
        refine ⟨hvalid.push hrank x, ?_⟩
        change (tracked.heap.mTree.push x).elements = (insert x tracked.stored).val
        rw [LocHeapNode.elements_push, Finset.insert_val_of_notMem hadmits, ← helements,
          LocHeap.elements]
    | peek => exact ⟨hvalid, helements⟩
    | pop =>
        refine ⟨hvalid.pop hrank, ?_⟩
        change tracked.heap.mTree.pop.1.elements =
          (after tracked.stored .pop tracked.heap.mTree.pop.2).val
        rw [LocHeapNode.elements_pop, LocHeapNode.pop_snd]
        cases htop : tracked.heap.mTree.mData? with
        | none =>
            rw [LocHeapNode.mData?_eq_none.mp htop]
            rw [LocHeap.elements, LocHeapNode.mData?_eq_none.mp htop] at helements
            exact helements
        | some top =>
            rw [LocHeap.elements, LocHeapNode.elements_eq_cons htop] at helements
            simp [after, ← helements]
    | remove x =>
        refine ⟨hvalid.remove hrank x, ?_⟩
        change (tracked.heap.mTree.remove x).1.elements =
          (after tracked.stored (.remove x) (tracked.heap.mTree.remove x).2).val
        cases hremove : (tracked.heap.mTree.remove x).2 with
        | none => rw [LocHeapNode.remove_eq_self hremove]; exact helements
        | some removed =>
            obtain ⟨rfl, hel⟩ := LocHeapNode.remove_eq_some hremove
            rw [LocHeap.elements, hel] at helements
            simp [after, ← helements]

theorem represents_of_reachable {le : α → α → Prop}
    (hrank : LocHeapNode.ConsistentRanks le) {tracked : Tracked α}
    (hreach : Reachable step init tracked) : tracked.Represents :=
  invariant_of_step (fun _ _ _ h hstep => h.step hrank hstep) init_represents hreach

/-- Over every run of distinct objects the heap passes its own check, holds
exactly the objects that were pushed and not handed back, answers every
operation as a priority bag does, and is left unchanged by a removal of an
object it does not hold. -/
theorem locHeap_refines_priorityBag {le : α → α → Prop}
    (hrank : LocHeapNode.ConsistentRanks le) {tracked : Tracked α}
    (hreach : Reachable step init tracked) :
    tracked.heap.checkTree = true ∧ tracked.heap.mTree.Valid ∧
      tracked.heap.elements = tracked.stored.val ∧
      (∀ op, Answers (fun x y => outRanks x y = true) tracked.stored op
        (tracked.heap.apply op).2) ∧
      ∀ x ∉ tracked.stored, tracked.heap.remove x = (tracked.heap, none) := by
  have hrep := represents_of_reachable hrank hreach
  refine ⟨(LocHeapNode.checkNodes_iff hrank _).mpr hrep.1, hrep.1, hrep.2,
    hrep.answers hrank, ?_⟩
  intro x hx
  have hnone : (tracked.heap.remove x).2 = none := by
    have hanswer := hrep.answers hrank (.remove x)
    simpa [Answers, LocHeap.apply, hx] using hanswer
  have hself : (tracked.heap.mTree.remove x).1 = tracked.heap.mTree :=
    LocHeapNode.remove_eq_self hnone
  exact Prod.ext (congrArg LocHeap.mk hself) hnone

end Tracked

/-- The objects of the heap's own random test: two of them may share an `mID`
and are still different objects. -/
structure LocHeapDebugData where
  address : Nat
  mID : Int
deriving DecidableEq

instance : LocRankable LocHeapDebugData where
  ranks self testData := testData.mID - self.mID

theorem debugData_consistent :
    LocHeapNode.ConsistentRanks fun x y : LocHeapDebugData => y.mID ≤ x.mID where
  total a b := (le_total b.mID a.mID)
  trans _ _ _ hab hbc := hbc.trans hab
  above_iff a b := by simp [outRanks, LocRankable.ranks]

theorem locHeap_refines_priorityBag_debugData :
    let low : LocHeapDebugData := ⟨0, 7⟩
    let high : LocHeapDebugData := ⟨1, 3⟩
    let twin : LocHeapDebugData := ⟨2, 3⟩
    let heap := (((LocHeap.empty.push low).push high).push twin).pop.1
    heap.checkTree = true ∧ heap.mTree.Valid ∧
      heap.elements = ({twin, low} : Finset LocHeapDebugData).val ∧
      (∀ op, Answers (fun x y => outRanks x y = true) {twin, low} op (heap.apply op).2) ∧
      ∀ x ∉ ({twin, low} : Finset LocHeapDebugData), heap.remove x = (heap, none) := by
  intro low high twin heap
  have hreach : Reachable Tracked.step Tracked.init
      (⟨heap, {twin, low}⟩ : Tracked LocHeapDebugData) :=
    ⟨[.push low, .push high, .push twin, .pop], rfl⟩
  exact Tracked.locHeap_refines_priorityBag debugData_consistent hreach

end Msm8916.Heap
