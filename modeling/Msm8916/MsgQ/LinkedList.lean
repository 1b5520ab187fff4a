import Mathlib.Data.List.AList
import Msm8916.Lib.Chain

/-!
The list of `gps/utils/linked_list.c` in memory, as the message queue uses it.
`malloc`'s answer is an argument; an access to memory that is not allocated has
no result.
-/

namespace Msm8916.MsgQ

variable {α δ : Type*}

/-- `linked_list_err_type`. -/
inductive LinkedListErr
  | success
  | failureGeneral
  | invalidParameter
  | invalidHandle
  | unavailableResource
  | insufficientBuffer
deriving DecidableEq, Repr

/-- `list_element`. -/
structure ListElement (α δ : Type*) where
  next : Option Nat
  prev : Option Nat
  data_ptr : α
  dealloc_func : Option δ

/-- `list_state` and the elements that are allocated for it. -/
structure LinkedList (α δ : Type*) where
  heap : AList fun _ : Nat => ListElement α δ
  p_head : Option Nat
  p_tail : Option Nat

def linkedListInit : LinkedList α δ := ⟨∅, none, none⟩

def linkedListAdd (list : LinkedList α δ) (data_obj : Option α) (dealloc : Option δ)
    (elem : Nat) : Option (LinkedList α δ × LinkedListErr) :=
  match data_obj with
  | none => some (list, .invalidParameter)
  | some data =>
      let tmp := list.p_head
      let heap := list.heap.insert elem ⟨tmp, none, data, dealloc⟩
      match tmp with
      | some head => do
          let element ← heap.lookup head
          some (⟨heap.insert head { element with prev := some elem }, some elem, list.p_tail⟩,
            .success)
      | none => some (⟨heap, some elem, some elem⟩, .success)

/-- The third result is what is copied to the output parameter. -/
def linkedListRemove (list : LinkedList α δ) :
    Option (LinkedList α δ × LinkedListErr × Option α) :=
  match list.p_tail with
  | none => some (list, .unavailableResource, none)
  | some tail => do
      let tmp ← list.heap.lookup tail
      match tmp.prev with
      | some prev => do
          let element ← list.heap.lookup prev
          let heap := list.heap.insert prev { element with next := none }
          some (⟨heap.erase tail, list.p_head, some prev⟩, .success, some tmp.data_ptr)
      | none => some (⟨list.heap.erase tail, none, none⟩, .success, some tmp.data_ptr)

def linkedListEmpty (list : LinkedList α δ) : Bool := list.p_head.isNone

/-- The call of `dealloc_func` on the way through the list, if there is one. -/
def deallocCall (item : α × Option δ) : Option (δ × α) :=
  item.2.map fun dealloc => (dealloc, item.1)

/-- The loop of `linked_list_flush` and the calls it makes. -/
def flushLoop : Nat → LinkedList α δ → Option (LinkedList α δ × List (δ × α))
  | 0, _ => none
  | rounds + 1, list =>
      match list.p_head with
      | none => some (list, [])
      | some head => do
          let element ← list.heap.lookup head
          let call := deallocCall (element.data_ptr, element.dealloc_func)
          let (list, calls) ← flushLoop rounds ⟨list.heap.erase head, element.next, list.p_tail⟩
          some (list, call.toList ++ calls)

/-- The loop takes one round for each element and finds the list empty in the
last one. -/
def linkedListFlush (list : LinkedList α δ) :
    Option (LinkedList α δ × LinkedListErr × List (δ × α)) := do
  let (list, calls) ← flushLoop (list.heap.keys.length + 1) list
  some ({ list with p_tail := none }, .success, calls)

/-! ## What a list holds -/

def ListElement.node (element : ListElement α δ) : Node (α × Option δ) :=
  ⟨element.next, element.prev, element.data_ptr, element.dealloc_func⟩

def memoryOf (heap : AList fun _ : Nat => ListElement α δ) : NodeMemory (α × Option δ) :=
  fun address => (heap.lookup address).map ListElement.node

theorem memoryOf_insert (heap : AList fun _ : Nat => ListElement α δ) (address : Nat)
    (element : ListElement α δ) :
    memoryOf (heap.insert address element) =
      Function.update (memoryOf heap) address (some element.node) := by
  funext other
  by_cases h : other = address
  · subst h
    simp [memoryOf]
  · rw [Function.update_of_ne h, memoryOf, memoryOf, AList.lookup_insert_ne h]

theorem memoryOf_erase (heap : AList fun _ : Nat => ListElement α δ) (address : Nat) :
    memoryOf (heap.erase address) = Function.update (memoryOf heap) address none := by
  funext other
  by_cases h : other = address
  · subst h
    simp [memoryOf]
  · rw [Function.update_of_ne h, memoryOf, memoryOf, AList.lookup_erase_ne h]

/-- What a lookup finds when the memory has a node there. -/
theorem lookup_of_memoryOf {heap : AList fun _ : Nat => ListElement α δ} {address : Nat}
    {next prev : Option Nat} {item : α × Option δ}
    (h : memoryOf heap address = some ⟨next, prev, item⟩) :
    heap.lookup address = some ⟨next, prev, item.1, item.2⟩ := by
  obtain ⟨element, hlookup, hnode⟩ := Option.map_eq_some_iff.mp h
  rw [hlookup]
  cases element
  cases hnode
  rfl

/-- The elements of a list from its head to its tail. They are the only ones
that are allocated. -/
structure Holds (list : LinkedList α δ) (cells : List (Nat × α × Option δ)) : Prop where
  linked : Chained (memoryOf list.heap) none cells none
  head : list.p_head = frontOf cells none
  tail : list.p_tail = backOf none cells
  nodup : (cells.map Prod.fst).Nodup
  allocated : ∀ address, address ∈ list.heap ↔ address ∈ cells.map Prod.fst

/-- What a list holds, from its tail, where elements are taken, to its head. -/
def Represents (list : LinkedList α δ) (items : List (α × Option δ)) : Prop :=
  ∃ cells, Holds list cells ∧ items = (cells.map Prod.snd).reverse

variable {list : LinkedList α δ} {items : List (α × Option δ)}

theorem linkedListInit_represents : Represents (linkedListInit : LinkedList α δ) [] := by
  refine ⟨[], ⟨trivial, rfl, rfl, List.nodup_nil, fun address => ?_⟩, rfl⟩
  simp [linkedListInit, AList.notMem_empty]

theorem Represents.unique {others : List (α × Option δ)} (h : Represents list items)
    (hother : Represents list others) : items = others := by
  obtain ⟨cells, hholds, rfl⟩ := h
  obtain ⟨otherCells, hotherHolds, rfl⟩ := hother
  rw [hholds.linked.unique hotherHolds.linked (hholds.head.symm.trans hotherHolds.head)]

theorem linkedListEmpty_eq (h : Represents list items) :
    linkedListEmpty list = items.isEmpty := by
  obtain ⟨cells, hholds, rfl⟩ := h
  rw [linkedListEmpty, hholds.head]
  cases cells with
  | nil => rfl
  | cons cell rest => simp

/-- An element is added in front of the head, that is, behind all that the list
holds. -/
theorem linkedListAdd_spec (h : Represents list items) {elem : Nat} (hfresh : elem ∉ list.heap)
    (data : α) (dealloc : Option δ) :
    ∃ added, linkedListAdd list (some data) dealloc elem = some (added, .success) ∧
      Represents added (items ++ [(data, dealloc)]) := by
  obtain ⟨cells, hholds, rfl⟩ := h
  have hoff : elem ∉ cells.map Prod.fst := fun hmem => hfresh ((hholds.allocated elem).mpr hmem)
  have hkept : Chained (Function.update (memoryOf list.heap) elem
      (some ⟨list.p_head, none, data, dealloc⟩)) none cells none := by
    apply hholds.linked.update
    rintro cell hcell rfl
    exact hoff (List.mem_map_of_mem hcell)
  cases cells with
  | nil =>
      have hhead : list.p_head = none := hholds.head
      refine ⟨⟨list.heap.insert elem ⟨none, none, data, dealloc⟩, some elem, some elem⟩, ?_,
        [(elem, data, dealloc)], ⟨⟨?_, trivial⟩, rfl, rfl, List.nodup_singleton _, ?_⟩, rfl⟩
      · simp [linkedListAdd, hhead]
      · rw [memoryOf_insert, Function.update_self]
        rfl
      · intro address
        have hnone := hholds.allocated address
        simp only [List.map_nil, List.not_mem_nil, iff_false] at hnone
        simp [AList.mem_insert, hnone]
  | cons cell rest =>
      obtain ⟨head, data', dealloc'⟩ := cell
      have hhead : list.p_head = some head := hholds.head
      rw [hhead] at hkept
      have hne : head ≠ elem := fun heq => hoff (by simp [heq])
      have hlookup : (list.heap.insert elem ⟨some head, none, data, dealloc⟩).lookup head =
          some ⟨frontOf rest none, none, data', dealloc'⟩ := by
        rw [AList.lookup_insert_ne hne]
        exact lookup_of_memoryOf hholds.linked.front
      have hrelinked := hkept.relinkFront hholds.nodup (some elem)
      refine ⟨⟨(list.heap.insert elem ⟨some head, none, data, dealloc⟩).insert head
          ⟨frontOf rest none, some elem, data', dealloc'⟩, some elem, list.p_tail⟩, ?_,
        (elem, data, dealloc) :: (head, data', dealloc') :: rest, ⟨⟨?_, ?_⟩, rfl, ?_, ?_, ?_⟩, ?_⟩
      · simp [linkedListAdd, hhead, hlookup]
      · rw [memoryOf_insert, memoryOf_insert, Function.update_of_ne hne.symm, Function.update_self]
        rfl
      · rw [memoryOf_insert, memoryOf_insert]
        exact hrelinked
      · rw [backOf_cons, hholds.tail, backOf_cons, backOf_cons]
      · rw [List.map_cons, List.nodup_cons]
        exact ⟨hoff, hholds.nodup⟩
      · intro address
        have hallocated := hholds.allocated address
        simp only [AList.mem_insert, List.map_cons, List.mem_cons] at hallocated ⊢
        tauto
      · simp

theorem linkedListRemove_nil (h : Represents list ([] : List (α × Option δ))) :
    linkedListRemove list = some (list, .unavailableResource, none) := by
  obtain ⟨cells, hholds, hitems⟩ := h
  have hcells : cells = [] := by simpa using hitems.symm
  have htail : list.p_tail = none := by rw [hholds.tail, hcells, backOf_nil]
  simp [linkedListRemove, htail]

/-- The element at the tail is taken off and freed. -/
theorem linkedListRemove_cons {data : α} {dealloc : Option δ}
    (h : Represents list ((data, dealloc) :: items)) :
    ∃ removed, linkedListRemove list = some (removed, .success, some data) ∧
      Represents removed items := by
  obtain ⟨cells, hholds, hitems⟩ := h
  rcases cells.eq_nil_or_concat' with rfl | ⟨first, ⟨tail, item⟩, rfl⟩
  · cases hitems
  · simp only [List.map_append, List.map_cons, List.map_nil, List.reverse_append,
      List.reverse_cons, List.reverse_nil, List.nil_append, List.cons_append,
      List.cons.injEq] at hitems
    obtain ⟨rfl, rfl⟩ := hitems
    have htail : list.p_tail = some tail := by rw [hholds.tail, backOf_append]
    have hlookup := lookup_of_memoryOf hholds.linked.back
    have hnodup := hholds.nodup
    rw [List.map_append] at hnodup
    have hoff : ∀ cell ∈ first, cell.1 ≠ tail := by
      rintro cell hcell rfl
      exact List.disjoint_of_nodup_append hnodup (List.mem_map_of_mem hcell) (by simp)
    have hallocated : ∀ address,
        address ∈ list.heap.erase tail ↔ address ∈ first.map Prod.fst := by
      intro address
      rw [AList.mem_erase, hholds.allocated]
      simp only [List.map_append, List.map_cons, List.map_nil, List.mem_append,
        List.mem_singleton]
      constructor
      · rintro ⟨hne, hmem | heq⟩
        · exact hmem
        · exact absurd heq hne
      · intro hmem
        obtain ⟨cell, hcell, rfl⟩ := List.mem_map.mp hmem
        exact ⟨hoff cell hcell, Or.inl hmem⟩
    rcases first.eq_nil_or_concat' with rfl | ⟨init, ⟨prev, item⟩, rfl⟩
    · refine ⟨⟨list.heap.erase tail, none, none⟩, ?_, [],
        ⟨trivial, rfl, rfl, List.nodup_nil, hallocated⟩, rfl⟩
      simp only [backOf_nil] at hlookup
      simp [linkedListRemove, htail, hlookup]
    · simp only [backOf_append] at hlookup
      have hfirst := ((Chained.append_iff _ _).mp hholds.linked).1
      have hprev := lookup_of_memoryOf hfirst.back
      have hdistinct : (init ++ [(prev, item)]).map Prod.fst |>.Nodup :=
        List.Nodup.of_append_left hnodup
      refine ⟨⟨(list.heap.insert prev ⟨none, backOf none init, item.1, item.2⟩).erase tail,
        list.p_head, some prev⟩, ?_, init ++ [(prev, item)], ⟨?_, ?_, ?_, hdistinct, ?_⟩, rfl⟩
      · simp [linkedListRemove, htail, hlookup, hprev]
      · rw [memoryOf_erase, memoryOf_insert]
        exact (hfirst.relinkBack hdistinct none).update hoff none
      · rw [hholds.head, frontOf_append, frontOf_append, frontOf_append]
        rfl
      · rw [backOf_append]
      · intro address
        have hprevIn : prev ∈ list.heap := (hholds.allocated prev).mpr (by simp)
        rw [← hallocated, AList.mem_erase, AList.mem_erase, AList.mem_insert]
        constructor
        · rintro ⟨hne, rfl | hmem⟩
          · exact ⟨hne, hprevIn⟩
          · exact ⟨hne, hmem⟩
        · rintro ⟨hne, hmem⟩
          exact ⟨hne, Or.inr hmem⟩

/-- The loop visits the elements from the head to the tail; it needs one round
more than there are elements. -/
theorem flushLoop_spec {rounds : Nat} {cells : List (Nat × α × Option δ)} {prev : Option Nat}
    (hrounds : cells.length < rounds) (hlinked : Chained (memoryOf list.heap) prev cells none)
    (hhead : list.p_head = frontOf cells none) (hnodup : (cells.map Prod.fst).Nodup)
    (hallocated : ∀ address, address ∈ list.heap ↔ address ∈ cells.map Prod.fst) :
    ∃ flushed, flushLoop rounds list =
        some (flushed, (cells.map Prod.snd).filterMap deallocCall) ∧
      flushed.p_head = none ∧ ∀ address, address ∉ flushed.heap := by
  induction cells generalizing list rounds prev with
  | nil =>
      cases rounds with
      | zero => cases hrounds
      | succ rounds =>
          refine ⟨list, ?_, hhead, fun address => ?_⟩
          · simp [flushLoop, hhead]
          · rw [hallocated]
            exact List.not_mem_nil
  | cons cell rest ih =>
      obtain ⟨head, item⟩ := cell
      cases rounds with
      | zero => cases hrounds
      | succ rounds =>
          rw [List.map_cons, List.nodup_cons] at hnodup
          have hlookup := lookup_of_memoryOf hlinked.front
          have hrest : Chained (memoryOf (list.heap.erase head)) (some head) rest none := by
            rw [memoryOf_erase]
            apply hlinked.2.update
            rintro cell hcell rfl
            exact hnodup.1 (List.mem_map.mpr ⟨cell, hcell, rfl⟩)
          have hafter : ∀ address,
              address ∈ list.heap.erase head ↔ address ∈ rest.map Prod.fst := by
            intro address
            rw [AList.mem_erase, hallocated, List.map_cons, List.mem_cons]
            constructor
            · rintro ⟨hne, heq | hmem⟩
              · exact absurd heq hne
              · exact hmem
            · intro hmem
              exact ⟨fun heq => hnodup.1 (heq ▸ hmem), Or.inr hmem⟩
          have hnext : (⟨list.heap.erase head, frontOf rest none, list.p_tail⟩ :
              LinkedList α δ).p_head = frontOf rest none := rfl
          obtain ⟨flushed, hflush, hempty⟩ :=
            ih (Nat.lt_of_succ_lt_succ hrounds) hrest hnext hnodup.2 hafter
          refine ⟨flushed, ?_, hempty⟩
          rw [frontOf_cons] at hhead
          simp only [flushLoop, hhead, hlookup, Option.bind_eq_bind, Option.bind_some, hflush,
            List.map_cons, List.filterMap_cons, Option.some.injEq, Prod.mk.injEq, true_and]
          cases deallocCall item with
          | none => rfl
          | some call => rfl

/-- A loop has rounds enough for all elements that are allocated. -/
theorem Holds.length_lt {cells : List (Nat × α × Option δ)} (h : Holds list cells) :
    cells.length < list.heap.keys.length + 1 := by
  have hsubset : cells.map Prod.fst ⊆ list.heap.keys := fun address hmem =>
    AList.mem_keys.mp ((h.allocated address).mpr hmem)
  have hle := (List.subperm_of_subset h.nodup hsubset).length_le
  rw [List.length_map] at hle
  exact Nat.lt_succ_of_le hle

/-- A flush empties the list and calls each `dealloc_func` there is once, the
newest element first. -/
theorem linkedListFlush_spec (h : Represents list items) :
    ∃ flushed, linkedListFlush list =
        some (flushed, .success, items.reverse.filterMap deallocCall) ∧
      Represents flushed ([] : List (α × Option δ)) := by
  obtain ⟨cells, hholds, rfl⟩ := h
  obtain ⟨flushed, hflush, hhead, hempty⟩ := flushLoop_spec hholds.length_lt
    hholds.linked hholds.head hholds.nodup hholds.allocated
  refine ⟨{ flushed with p_tail := none }, ?_, [],
    ⟨trivial, hhead, rfl, List.nodup_nil, fun address => ?_⟩, rfl⟩
  · simp [linkedListFlush, hflush]
  · simp [hempty address]

end Msm8916.MsgQ
