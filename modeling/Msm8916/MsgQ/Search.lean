import Msm8916.MsgQ.LinkedList

/-!
`linked_list_search` of `gps/utils/linked_list.c` in memory. It walks from the head to the first
element whose data are accepted and may take that element off the list.
-/

namespace Msm8916.MsgQ

variable {α δ : Type*}

/-! ## The code -/

/-- `address->next = next`. -/
def writeNext (heap : AList fun _ : Nat => ListElement α δ) (address : Nat) (next : Option Nat) :
    Option (AList fun _ : Nat => ListElement α δ) :=
  (heap.lookup address).map fun element => heap.insert address { element with next }

/-- `address->prev = prev`. -/
def writePrev (heap : AList fun _ : Nat => ListElement α δ) (address : Nat) (prev : Option Nat) :
    Option (AList fun _ : Nat => ListElement α δ) :=
  (heap.lookup address).map fun element => heap.insert address { element with prev }

/-- What is in front of `tmp` is linked to what is behind it. -/
def unlinkFront (list : LinkedList α δ) (tmp : ListElement α δ) : Option (LinkedList α δ) :=
  match tmp.prev with
  | none => some { list with p_head := tmp.next }
  | some prev => (writeNext list.heap prev tmp.next).map fun heap => { list with heap }

/-- What is behind `tmp` is linked to what is in front of it. -/
def unlinkBack (list : LinkedList α δ) (tmp : ListElement α δ) : Option (LinkedList α δ) :=
  match tmp.next with
  | none => some { list with p_tail := tmp.prev }
  | some next => (writePrev list.heap next tmp.prev).map fun heap => { list with heap }

/-- The element at the address is taken off the list and freed. -/
def unlink (list : LinkedList α δ) (address : Nat) (tmp : ListElement α δ) :
    Option (LinkedList α δ) := do
  let list ← unlinkFront list tmp
  let list ← unlinkBack list tmp
  some { list with heap := list.heap.erase address }

/-- The loop of `linked_list_search`: the element it finds. -/
def searchLoop (heap : AList fun _ : Nat => ListElement α δ) (equal : α → Bool) :
    Nat → (tmp : Option Nat) → Option (Option (Nat × ListElement α δ))
  | 0, _ => none
  | rounds + 1, tmp =>
      match tmp with
      | none => some none
      | some address => do
          let element ← heap.lookup address
          if equal element.data_ptr then some (some (address, element))
          else searchLoop heap equal rounds element.next

/-- What a call returns, what it writes to its output parameter, if it writes there at all, and
the calls of `dealloc_func` that it makes. -/
structure Answer (α δ : Type*) where
  err : LinkedListErr
  output : Option (Option α)
  calls : List (δ × α)

/-- `linked_list_search`. `data_p` says whether there is an output parameter; without it the data
of an element that is taken off are deallocated. -/
def linkedListSearch (list : LinkedList α δ) (equal : Option (α → Bool))
    (data_p rm_if_found : Bool) : Option (LinkedList α δ × Answer α δ) :=
  match equal, list.p_tail with
  | none, _ => some (list, ⟨.invalidHandle, none, []⟩)
  | some _, none => some (list, ⟨.unavailableResource, none, []⟩)
  | some equal, some _ => do
      match ← searchLoop list.heap equal (list.heap.keys.length + 1) list.p_head with
      | none => some (list, ⟨.success, if data_p then some none else none, []⟩)
      | some (address, tmp) =>
          let output := if data_p then some (some tmp.data_ptr) else none
          if rm_if_found then
            let call := if data_p then none else deallocCall (tmp.data_ptr, tmp.dealloc_func)
            let list ← unlink list address tmp
            some (list, ⟨.success, output, call.toList⟩)
          else
            some (list, ⟨.success, output, []⟩)

/-! ## Taking an element off -/

section Unlink

variable {heap : AList fun _ : Nat => ListElement α δ} {list : LinkedList α δ}

theorem writeNext_spec {address : Nat} (h : address ∈ heap) (next : Option Nat) :
    ∃ written, writeNext heap address next = some written ∧
      memoryOf written = (memoryOf heap).setNext (some address) next ∧
      ∀ other, other ∈ written ↔ other ∈ heap := by
  obtain ⟨element, helement⟩ := Option.isSome_iff_exists.mp (AList.lookup_isSome.mpr h)
  refine ⟨heap.insert address { element with next }, ?_, ?_, ?_⟩
  · rw [writeNext, helement, Option.map_some]
  · rw [memoryOf_insert, NodeMemory.setNext, memoryOf, helement]
    rfl
  · intro other
    rw [AList.mem_insert]
    exact ⟨fun hor => hor.elim (fun heq => heq ▸ h) id, .inr⟩

theorem writePrev_spec {address : Nat} (h : address ∈ heap) (prev : Option Nat) :
    ∃ written, writePrev heap address prev = some written ∧
      memoryOf written = (memoryOf heap).setPrev (some address) prev ∧
      ∀ other, other ∈ written ↔ other ∈ heap := by
  obtain ⟨element, helement⟩ := Option.isSome_iff_exists.mp (AList.lookup_isSome.mpr h)
  refine ⟨heap.insert address { element with prev }, ?_, ?_, ?_⟩
  · rw [writePrev, helement, Option.map_some]
  · rw [memoryOf_insert, NodeMemory.setPrev, memoryOf, helement]
    rfl
  · intro other
    rw [AList.mem_insert]
    exact ⟨fun hor => hor.elim (fun heq => heq ▸ h) id, .inr⟩

theorem unlinkFront_spec {tmp : ListElement α δ}
    (h : ∀ prev, tmp.prev = some prev → prev ∈ list.heap) :
    ∃ unlinked, unlinkFront list tmp = some unlinked ∧
      memoryOf unlinked.heap = (memoryOf list.heap).setNext tmp.prev tmp.next ∧
      (∀ other, other ∈ unlinked.heap ↔ other ∈ list.heap) ∧
      unlinked.p_head = (if tmp.prev = none then tmp.next else list.p_head) ∧
      unlinked.p_tail = list.p_tail := by
  rw [unlinkFront]
  cases hprev : tmp.prev with
  | none => exact ⟨_, rfl, rfl, fun _ => Iff.rfl, rfl, rfl⟩
  | some prev =>
      obtain ⟨written, hwrite, hmemory, hsame⟩ := writeNext_spec (h prev hprev) tmp.next
      refine ⟨{ list with heap := written }, ?_, hmemory, hsame, rfl, rfl⟩
      dsimp only
      rw [hwrite, Option.map_some]

theorem unlinkBack_spec {tmp : ListElement α δ}
    (h : ∀ next, tmp.next = some next → next ∈ list.heap) :
    ∃ unlinked, unlinkBack list tmp = some unlinked ∧
      memoryOf unlinked.heap = (memoryOf list.heap).setPrev tmp.next tmp.prev ∧
      (∀ other, other ∈ unlinked.heap ↔ other ∈ list.heap) ∧
      unlinked.p_head = list.p_head ∧
      unlinked.p_tail = (if tmp.next = none then tmp.prev else list.p_tail) := by
  rw [unlinkBack]
  cases hnext : tmp.next with
  | none => exact ⟨_, rfl, rfl, fun _ => Iff.rfl, rfl, rfl⟩
  | some next =>
      obtain ⟨written, hwrite, hmemory, hsame⟩ := writePrev_spec (h next hnext) tmp.prev
      refine ⟨{ list with heap := written }, ?_, hmemory, hsame, rfl, rfl⟩
      dsimp only
      rw [hwrite, Option.map_some]

variable {before after : List (Nat × α × Option δ)} {address : Nat} {item : α × Option δ}

/-- The element between two parts of a list. -/
def between (before after : List (Nat × α × Option δ)) (item : α × Option δ) : ListElement α δ :=
  ⟨frontOf after none, backOf none before, item.1, item.2⟩

/-- The node between two parts of a chain is bridged. -/
theorem bridged_spec {memory : NodeMemory (α × Option δ)}
    (h : Chained memory none (before ++ (address, item) :: after) none)
    (hnodup : ((before ++ (address, item) :: after).map Prod.fst).Nodup) :
    Chained (((memory.setNext (backOf none before) (frontOf after none)).setPrev
      (frontOf after none) (backOf none before))) none (before ++ after) none := by
  rw [List.map_append, List.map_cons] at hnodup
  obtain ⟨hbefore, hrest, hdisjoint⟩ := List.nodup_append'.mp hnodup
  obtain ⟨-, hafter⟩ := List.nodup_cons.mp hrest
  obtain ⟨hfirst, -, hsecond⟩ := (Chained.append_iff _ _).mp h
  have hbehind : ∀ cell ∈ after, some cell.1 ≠ backOf none before := by
    intro cell hcell heq
    exact hdisjoint (mem_of_backOf heq.symm)
      (List.mem_cons_of_mem _ (List.mem_map_of_mem hcell))
  have hahead : ∀ cell ∈ before, some cell.1 ≠ frontOf after none := by
    intro cell hcell heq
    exact hdisjoint (List.mem_map_of_mem hcell)
      (List.mem_cons_of_mem _ (mem_of_frontOf heq.symm))
  rw [Chained.append_iff]
  constructor
  · exact (hfirst.setNext hbefore _).setPrev_of_ne hahead _
  · exact (hsecond.setNext_of_ne hbehind _).setPrev hafter _

/-- An element is taken off wherever it is: at the head, at the tail, between or alone. -/
theorem unlink_spec (h : Holds list (before ++ (address, item) :: after)) :
    ∃ unlinked, unlink list address (between before after item) = some unlinked ∧
      Holds unlinked (before ++ after) := by
  have hnodup := h.nodup
  rw [List.map_append, List.map_cons] at hnodup
  have hoff : address ∉ (before ++ after).map Prod.fst := by
    rw [List.map_append]
    exact (List.nodup_cons.mp (List.nodup_middle.mp hnodup)).1
  have hprev : ∀ prev, (between before after item).prev = some prev → prev ∈ list.heap := by
    intro prev hback
    rw [h.allocated, List.map_append]
    exact List.mem_append_left _ (mem_of_backOf hback)
  obtain ⟨front, hfront, hmemory, hsame, hhead, htail⟩ := unlinkFront_spec hprev
  have hnext : ∀ next, (between before after item).next = some next → next ∈ front.heap := by
    intro next hahead
    rw [hsame, h.allocated, List.map_append, List.map_cons]
    exact List.mem_append_right _ (List.mem_cons_of_mem _ (mem_of_frontOf hahead))
  obtain ⟨back, hback, hmemory', hsame', hhead', htail'⟩ := unlinkBack_spec hnext
  refine ⟨{ back with heap := back.heap.erase address }, ?_, ?_⟩
  · rw [unlink, hfront, Option.bind_eq_bind, Option.bind_some, hback]
    rfl
  · constructor
    · have hlinked := bridged_spec h.linked h.nodup
      rw [memoryOf_erase, hmemory', hmemory]
      apply hlinked.update
      rintro cell hcell rfl
      exact hoff (List.mem_map_of_mem hcell)
    · rw [← frontOf_bridged before after (address, item), ← h.head]
      exact hhead'.trans hhead
    · rw [← backOf_bridged before after (address, item), ← h.tail, ← htail]
      exact htail'
    · have hsub := List.nodup_middle.mp hnodup
      rw [List.map_append]
      exact (List.nodup_cons.mp hsub).2
    · intro other
      rw [AList.mem_erase, hsame', hsame, h.allocated]
      constructor
      · rintro ⟨hne, hmem⟩
        rw [List.map_append, List.map_cons] at hmem
        rw [List.map_append]
        exact (List.mem_cons.mp (List.perm_middle.subset hmem)).resolve_left hne
      · intro hmem
        refine ⟨fun heq => hoff (heq ▸ hmem), ?_⟩
        rw [List.map_append, List.map_cons]
        rw [List.map_append] at hmem
        exact List.perm_middle.symm.subset (List.mem_cons_of_mem _ hmem)

end Unlink

/-! ## Searching -/

section Search

variable {heap : AList fun _ : Nat => ListElement α δ} {list : LinkedList α δ}
  {equal : α → Bool} {cells before after : List (Nat × α × Option δ)} {address : Nat}
  {item : α × Option δ}

/-- The loop takes one round for each element that is not accepted. -/
theorem searchLoop_skip {prev : Option Nat}
    (hlinked : Chained (memoryOf heap) prev (before ++ after) none)
    (hrejected : ∀ cell ∈ before, equal cell.2.1 = false) (rounds : Nat) :
    searchLoop heap equal (before.length + rounds) (frontOf (before ++ after) none) =
      searchLoop heap equal rounds (frontOf after none) := by
  induction before generalizing prev with
  | nil => rw [List.length_nil, Nat.zero_add, List.nil_append]
  | cons cell rest ih =>
      obtain ⟨head, data, dealloc⟩ := cell
      have hlookup := lookup_of_memoryOf hlinked.1
      have hno : equal data = false := hrejected (head, data, dealloc) List.mem_cons_self
      have hrounds : (((head, data, dealloc) :: rest).length + rounds) =
          rest.length + rounds + 1 := by
        rw [List.length_cons]
        omega
      rw [hrounds, List.cons_append, frontOf_cons, searchLoop]
      dsimp only
      rw [hlookup, Option.bind_eq_bind, Option.bind_some]
      dsimp only
      rw [hno, if_neg Bool.false_ne_true]
      exact ih hlinked.2 fun cell hcell => hrejected cell (List.mem_cons_of_mem _ hcell)

theorem Holds.exists_tail (h : Holds list cells) (hne : cells ≠ []) :
    ∃ tail, list.p_tail = some tail := by
  rcases cells.eq_nil_or_concat' with rfl | ⟨first, cell, rfl⟩
  · exact absurd rfl hne
  · exact ⟨cell.1, by rw [h.tail, backOf_append]⟩

theorem searchLoop_none (h : Holds list cells)
    (hrejected : ∀ cell ∈ cells, equal cell.2.1 = false) :
    searchLoop list.heap equal (list.heap.keys.length + 1) list.p_head = some none := by
  obtain ⟨extra, hextra⟩ := Nat.exists_eq_add_of_lt h.length_lt
  have hlinked := h.linked
  rw [← List.append_nil cells] at hlinked
  have hskip := searchLoop_skip hlinked hrejected (extra + 1)
  rw [List.append_nil, ← h.head] at hskip
  rw [hextra, Nat.add_assoc, hskip]
  rfl

theorem searchLoop_found (h : Holds list (before ++ (address, item) :: after))
    (hrejected : ∀ cell ∈ before, equal cell.2.1 = false) (haccepted : equal item.1 = true) :
    searchLoop list.heap equal (list.heap.keys.length + 1) list.p_head =
      some (some (address, between before after item)) := by
  obtain ⟨extra, hextra⟩ := Nat.exists_eq_add_of_lt h.length_lt
  have hskip := searchLoop_skip h.linked hrejected (after.length + 1 + extra + 1)
  have hlookup := lookup_of_memoryOf ((Chained.append_iff _ _).mp h.linked).2.1
  have hrounds : list.heap.keys.length + 1 = before.length + (after.length + 1 + extra + 1) := by
    rw [hextra, List.length_append, List.length_cons]
    omega
  rw [h.head, hrounds, hskip, frontOf_cons, searchLoop]
  dsimp only
  rw [hlookup, Option.bind_eq_bind, Option.bind_some]
  dsimp only
  rw [haccepted, if_pos rfl, between]

theorem linkedListSearch_rejected (h : Holds list cells) (hne : cells ≠ [])
    (hrejected : ∀ cell ∈ cells, equal cell.2.1 = false) (data_p rm_if_found : Bool) :
    linkedListSearch list (some equal) data_p rm_if_found =
      some (list, ⟨.success, if data_p then some none else none, []⟩) := by
  obtain ⟨tail, htail⟩ := h.exists_tail hne
  unfold linkedListSearch
  rw [htail]
  dsimp only
  rw [searchLoop_none h hrejected]
  rfl

/-- The first element that is accepted is copied out if there is an output parameter, and taken
off if that is asked for. -/
theorem linkedListSearch_found (h : Holds list (before ++ (address, item) :: after))
    (hrejected : ∀ cell ∈ before, equal cell.2.1 = false) (haccepted : equal item.1 = true)
    (data_p rm_if_found : Bool) :
    ∃ searched, linkedListSearch list (some equal) data_p rm_if_found =
        some (searched, ⟨.success, if data_p then some (some item.1) else none,
          if rm_if_found && !data_p then (deallocCall item).toList else []⟩) ∧
      Holds searched
        (if rm_if_found then before ++ after else before ++ (address, item) :: after) := by
  obtain ⟨tail, htail⟩ := h.exists_tail (by simp)
  unfold linkedListSearch
  rw [htail]
  dsimp only
  rw [searchLoop_found h hrejected haccepted]
  cases rm_if_found with
  | false => exact ⟨list, rfl, h⟩
  | true =>
      obtain ⟨unlinked, hunlink, hholds⟩ := unlink_spec h
      refine ⟨unlinked, ?_, hholds⟩
      simp only [Option.bind_eq_bind, Option.bind_some, if_true, hunlink]
      cases data_p with
      | false => rfl
      | true => rfl

end Search

end Msm8916.MsgQ
