import Mathlib.Logic.Function.Basic
import Mathlib.Data.List.Nodup

/-!
Doubly linked chains in a memory. A memory gives every address the node that is
allocated there, or none. A chain lists the addresses and payloads of linked
nodes from the first to the last.
-/

namespace Msm8916

variable {β : Type*}

structure Node (β : Type*) where
  next : Option Nat
  prev : Option Nat
  payload : β

abbrev NodeMemory (β : Type*) := Nat → Option (Node β)

/-- The memory with another node behind the one at the address, if there is an address. -/
def NodeMemory.setNext (memory : NodeMemory β) (address next : Option Nat) : NodeMemory β :=
  match address with
  | none => memory
  | some address =>
      Function.update memory address ((memory address).map fun node => { node with next })

/-- The memory with another node in front of the one at the address. -/
def NodeMemory.setPrev (memory : NodeMemory β) (address prev : Option Nat) : NodeMemory β :=
  match address with
  | none => memory
  | some address =>
      Function.update memory address ((memory address).map fun node => { node with prev })

/-- The address at the front of a chain, or what follows when it is empty. -/
def frontOf (cells : List (Nat × β)) (next : Option Nat) : Option Nat :=
  (cells.head?.map Prod.fst).or next

/-- The address at the back of a chain, or what precedes when it is empty. -/
def backOf (prev : Option Nat) (cells : List (Nat × β)) : Option Nat :=
  (cells.getLast?.map Prod.fst).or prev

/-- The nodes of `cells` are linked to each other both ways; `prev` precedes the
first of them and `next` follows the last. -/
def Chained (memory : NodeMemory β) : Option Nat → List (Nat × β) → Option Nat → Prop
  | _, [], _ => True
  | prev, (address, payload) :: rest, next =>
      memory address = some ⟨frontOf rest next, prev, payload⟩ ∧
        Chained memory (some address) rest next

@[simp]
theorem frontOf_nil (next : Option Nat) : frontOf ([] : List (Nat × β)) next = next := rfl

@[simp]
theorem frontOf_cons (cell : Nat × β) (rest : List (Nat × β)) (next : Option Nat) :
    frontOf (cell :: rest) next = some cell.1 := rfl

@[simp]
theorem backOf_nil (prev : Option Nat) : backOf prev ([] : List (Nat × β)) = prev := rfl

@[simp]
theorem backOf_append (prev : Option Nat) (cells : List (Nat × β)) (cell : Nat × β) :
    backOf prev (cells ++ [cell]) = some cell.1 := by
  simp [backOf]

theorem frontOf_append (first second : List (Nat × β)) (next : Option Nat) :
    frontOf (first ++ second) next = frontOf first (frontOf second next) := by
  cases first with
  | nil => rfl
  | cons cell rest => rfl

theorem backOf_cons (prev : Option Nat) (cell : Nat × β) (rest : List (Nat × β)) :
    backOf prev (cell :: rest) = backOf (some cell.1) rest := by
  simp only [backOf, List.getLast?_cons]
  cases rest.getLast? with
  | none => rfl
  | some last => rfl

/-- The front of a chain without the node between two parts. -/
theorem frontOf_bridged (before after : List (Nat × β)) (cell : Nat × β) :
    (if backOf none before = none then frontOf after none
      else frontOf (before ++ cell :: after) none) = frontOf (before ++ after) none := by
  cases before with
  | nil => rfl
  | cons first rest =>
      have hne : backOf none (first :: rest) ≠ none := by simp [backOf]
      rw [if_neg hne]
      rfl

/-- The back of a chain without the node between two parts. -/
theorem backOf_bridged (before after : List (Nat × β)) (cell : Nat × β) :
    (if frontOf after none = none then backOf none before
      else backOf none (before ++ cell :: after)) = backOf none (before ++ after) := by
  rcases after.eq_nil_or_concat' with rfl | ⟨init, last, rfl⟩
  · rw [List.append_nil]
    rfl
  · have hne : frontOf (init ++ [last]) none ≠ none := by simp [frontOf]
    rw [if_neg hne, ← List.cons_append, ← List.append_assoc, backOf_append, ← List.append_assoc,
      backOf_append]

theorem mem_of_frontOf {cells : List (Nat × β)} {address : Nat}
    (h : frontOf cells none = some address) : address ∈ cells.map Prod.fst := by
  cases cells with
  | nil => cases h
  | cons cell rest =>
      obtain rfl : cell.1 = address := Option.some.inj h
      exact List.mem_map_of_mem List.mem_cons_self

theorem mem_of_backOf {cells : List (Nat × β)} {address : Nat}
    (h : backOf none cells = some address) : address ∈ cells.map Prod.fst := by
  rcases cells.eq_nil_or_concat' with rfl | ⟨first, cell, rfl⟩
  · cases h
  · rw [backOf_append] at h
    obtain rfl := Option.some.inj h
    exact List.mem_map_of_mem (List.mem_append_right _ List.mem_cons_self)

namespace Chained

variable {memory other : NodeMemory β} {prev next : Option Nat} {cells : List (Nat × β)}

/-- A chain reads only the nodes on it. -/
theorem congr (hsame : ∀ cell ∈ cells, memory cell.1 = other cell.1)
    (h : Chained memory prev cells next) : Chained other prev cells next := by
  induction cells generalizing prev with
  | nil => trivial
  | cons cell rest ih =>
      obtain ⟨hnode, hrest⟩ := h
      refine ⟨?_, ih (fun cell hcell => hsame cell (List.mem_cons_of_mem _ hcell)) hrest⟩
      rw [← hsame cell List.mem_cons_self]
      exact hnode

theorem append_iff (first second : List (Nat × β)) :
    Chained memory prev (first ++ second) next ↔
      Chained memory prev first (frontOf second next) ∧
        Chained memory (backOf prev first) second next := by
  induction first generalizing prev with
  | nil => simp [Chained]
  | cons cell rest ih =>
      obtain ⟨address, payload⟩ := cell
      rw [List.cons_append, Chained, Chained, ih, frontOf_append, backOf_cons, and_assoc]

/-- A node that is on no chain may change. -/
theorem update (h : Chained memory prev cells next) {address : Nat}
    (hoff : ∀ cell ∈ cells, cell.1 ≠ address) (node : Option (Node β)) :
    Chained (Function.update memory address node) prev cells next :=
  h.congr fun cell hcell => (Function.update_of_ne (hoff cell hcell) node memory).symm

/-- The first node of a chain gets another one in front of it. -/
theorem relinkFront {front : Nat} {payload : β} {rest : List (Nat × β)}
    (h : Chained memory prev ((front, payload) :: rest) next)
    (hnodup : (((front, payload) :: rest).map Prod.fst).Nodup) (before : Option Nat) :
    Chained (Function.update memory front (some ⟨frontOf rest next, before, payload⟩)) before
      ((front, payload) :: rest) next := by
  obtain ⟨-, hrest⟩ := h
  refine ⟨Function.update_self _ _ _, hrest.update ?_ _⟩
  rintro cell hcell rfl
  rw [List.map_cons, List.nodup_cons] at hnodup
  exact hnodup.1 (List.mem_map.mpr ⟨cell, hcell, rfl⟩)

/-- The last node of a chain gets another one behind it. -/
theorem relinkBack {back : Nat} {payload : β} {first : List (Nat × β)}
    (h : Chained memory prev (first ++ [(back, payload)]) next)
    (hnodup : ((first ++ [(back, payload)]).map Prod.fst).Nodup) (behind : Option Nat) :
    Chained (Function.update memory back (some ⟨behind, backOf prev first, payload⟩)) prev
      (first ++ [(back, payload)]) behind := by
  rw [append_iff] at h ⊢
  refine ⟨h.1.update ?_ _, Function.update_self _ _ _, trivial⟩
  rintro cell hcell rfl
  rw [List.map_append] at hnodup
  exact List.disjoint_of_nodup_append hnodup (List.mem_map_of_mem hcell) (by simp)

theorem setNext_of_ne (h : Chained memory prev cells next) {address : Option Nat}
    (hoff : ∀ cell ∈ cells, some cell.1 ≠ address) (behind : Option Nat) :
    Chained (memory.setNext address behind) prev cells next := by
  cases address with
  | none => exact h
  | some address => exact h.update (fun cell hcell heq => hoff cell hcell (congrArg some heq)) _

theorem setPrev_of_ne (h : Chained memory prev cells next) {address : Option Nat}
    (hoff : ∀ cell ∈ cells, some cell.1 ≠ address) (before : Option Nat) :
    Chained (memory.setPrev address before) prev cells next := by
  cases address with
  | none => exact h
  | some address => exact h.update (fun cell hcell heq => hoff cell hcell (congrArg some heq)) _

/-- The last node of a chain, if there is one, gets another node behind it. -/
theorem setNext {first : List (Nat × β)} {behind : Option Nat}
    (h : Chained memory none first behind) (hnodup : (first.map Prod.fst).Nodup)
    (next : Option Nat) :
    Chained (memory.setNext (backOf none first) next) none first next := by
  rcases first.eq_nil_or_concat' with rfl | ⟨init, ⟨back, payload⟩, rfl⟩
  · trivial
  · have hback := ((append_iff init [(back, payload)]).mp h).2.1
    rw [backOf_append, NodeMemory.setNext, hback]
    exact h.relinkBack hnodup next

/-- The first node of a chain, if there is one, gets another node in front of it. -/
theorem setPrev {second : List (Nat × β)} (h : Chained memory prev second none)
    (hnodup : (second.map Prod.fst).Nodup) (before : Option Nat) :
    Chained (memory.setPrev (frontOf second none) before) before second none := by
  cases second with
  | nil => trivial
  | cons cell rest =>
      obtain ⟨front, payload⟩ := cell
      rw [frontOf_cons, NodeMemory.setPrev, h.1]
      exact h.relinkFront hnodup before

/-- What the memory has at the front of a chain. -/
theorem front {cell : Nat × β} {rest : List (Nat × β)}
    (h : Chained memory prev (cell :: rest) next) :
    memory cell.1 = some ⟨frontOf rest next, prev, cell.2⟩ := h.1

/-- What the memory has at the back of a chain. -/
theorem back {cell : Nat × β} {first : List (Nat × β)}
    (h : Chained memory prev (first ++ [cell]) next) :
    memory cell.1 = some ⟨next, backOf prev first, cell.2⟩ :=
  ((append_iff first [cell]).mp h).2.1

/-- A memory has at most one chain from a given node to the end. -/
theorem unique {others : List (Nat × β)} (h : Chained memory prev cells none)
    (hother : Chained memory prev others none)
    (hfront : frontOf cells none = frontOf others none) : cells = others := by
  induction cells generalizing prev others with
  | nil =>
      cases others with
      | nil => rfl
      | cons other rest => cases hfront
  | cons cell rest ih =>
      cases others with
      | nil => cases hfront
      | cons other otherRest =>
          obtain ⟨address, payload⟩ := cell
          obtain ⟨otherAddress, otherPayload⟩ := other
          obtain rfl : address = otherAddress := Option.some.inj hfront
          have hnode := h.1.symm.trans hother.1
          simp only [Option.some.injEq, Node.mk.injEq, true_and] at hnode
          rw [ih h.2 hother.2 hnode.1, hnode.2]

end Chained

end Msm8916
