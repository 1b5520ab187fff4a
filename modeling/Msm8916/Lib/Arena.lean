import Mathlib.Data.List.Nodup

/-!
Objects with a live flag. An object is a number that is never used twice; it is
live from its construction until it is deleted or its scope ends. An arena
records every deletion, and for every use of an object whether it was live.
-/

namespace Msm8916

structure Arena where
  next : Nat
  live : List Nat
  deletions : List Nat
  uses : List (Nat × Bool)

namespace Arena

def empty : Arena := ⟨0, [], [], []⟩

def construct (arena : Arena) : Nat × Arena :=
  (arena.next, { arena with next := arena.next + 1, live := arena.next :: arena.live })

/-- The end of the scope of an object that was not made by `new`. -/
def leave (arena : Arena) (object : Nat) : Arena :=
  { arena with live := arena.live.filter fun other => other ≠ object }

def delete (arena : Arena) (object : Nat) : Arena :=
  { arena.leave object with deletions := arena.deletions ++ [object] }

def use (arena : Arena) (objects : List Nat) : Arena :=
  { arena with
    uses := arena.uses ++ objects.map fun object => (object, decide (object ∈ arena.live)) }

/-- Every object used so far was live when it was used. -/
def Clean (arena : Arena) : Prop := ∀ used ∈ arena.uses, used.2 = true

/-- What holds of any arena whose deletions were of live objects. -/
structure Sound (arena : Arena) : Prop where
  fresh : ∀ object ∈ arena.live, object < arena.next
  dead : ∀ object ∈ arena.deletions, object < arena.next ∧ object ∉ arena.live
  once : arena.deletions.Nodup

theorem empty_sound : empty.Sound := ⟨by simp [empty], by simp [empty], List.nodup_nil⟩

theorem empty_clean : empty.Clean := by simp [Clean, empty]

variable {arena : Arena}

/-! ## Uses -/

@[simp]
theorem live_use (objects : List Nat) : (arena.use objects).live = arena.live := rfl

@[simp]
theorem use_nil : arena.use [] = arena := by simp [use]

theorem use_use (first second : List Nat) :
    (arena.use first).use second = arena.use (first ++ second) := by
  rw [use, use, List.append_assoc, use, List.map_append]

theorem Sound.use (h : arena.Sound) (objects : List Nat) : (arena.use objects).Sound :=
  ⟨h.fresh, h.dead, h.once⟩

theorem clean_use_iff {objects : List Nat} :
    (arena.use objects).Clean ↔ arena.Clean ∧ ∀ object ∈ objects, object ∈ arena.live := by
  constructor
  · intro h
    refine ⟨fun used hused => h used (List.mem_append_left _ hused), fun object hobject => ?_⟩
    have hlive := h (object, decide (object ∈ arena.live))
      (List.mem_append_right _ (List.mem_map_of_mem hobject))
    exact of_decide_eq_true hlive
  · rintro ⟨hclean, hlive⟩ used hused
    rcases List.mem_append.mp hused with hold | hnew
    · exact hclean used hold
    · obtain ⟨object, hobject, rfl⟩ := List.mem_map.mp hnew
      exact decide_eq_true (hlive object hobject)

/-! ## Construction and deletion -/

theorem mem_live_leave {object other : Nat} :
    other ∈ (arena.leave object).live ↔ other ∈ arena.live ∧ other ≠ object := by
  simp [leave]

theorem Sound.construct (h : arena.Sound) : arena.construct.2.Sound where
  fresh object hobject := by
    rcases List.mem_cons.mp hobject with rfl | hold
    · exact Nat.lt_succ_self _
    · exact Nat.lt_succ_of_lt (h.fresh object hold)
  dead object hobject := by
    obtain ⟨hless, hdead⟩ := h.dead object hobject
    refine ⟨Nat.lt_succ_of_lt hless, fun hlive => ?_⟩
    rcases List.mem_cons.mp hlive with rfl | hold
    · exact Nat.lt_irrefl _ hless
    · exact hdead hold
  once := h.once

/-- A constructed object is a new one. -/
theorem Sound.construct_fresh (h : arena.Sound) : arena.construct.1 ∉ arena.live :=
  fun hlive => Nat.lt_irrefl _ (h.fresh _ hlive)

theorem Sound.leave (h : arena.Sound) (object : Nat) : (arena.leave object).Sound where
  fresh other hother := h.fresh other (mem_live_leave.mp hother).1
  dead other hother := by
    obtain ⟨hless, hdead⟩ := h.dead other hother
    exact ⟨hless, fun hlive => hdead (mem_live_leave.mp hlive).1⟩
  once := h.once

theorem Sound.delete (h : arena.Sound) {object : Nat} (hlive : object ∈ arena.live) :
    (arena.delete object).Sound where
  fresh other hother := h.fresh other (mem_live_leave.mp hother).1
  dead other hother := by
    rcases List.mem_append.mp hother with hold | hnew
    · obtain ⟨hless, hdead⟩ := h.dead other hold
      exact ⟨hless, fun hother => hdead (mem_live_leave.mp hother).1⟩
    · obtain rfl := List.mem_singleton.mp hnew
      exact ⟨h.fresh _ hlive, fun hother => (mem_live_leave.mp hother).2 rfl⟩
  once := by
    refine List.nodup_append.mpr ⟨h.once, List.nodup_singleton _, ?_⟩
    rintro other hold _ hnew rfl
    obtain rfl := List.mem_singleton.mp hnew
    exact (h.dead _ hold).2 hlive

end Arena

end Msm8916
