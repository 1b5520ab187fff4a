import Mathlib.Data.List.Perm.Basic

/-!
An array of optional entries whose occupied slots come first. It holds a list: an entry is
added behind the last one, and one is removed by moving the last one into its place.
-/

namespace Msm8916.Compact

variable {α : Type*}

/-- What is in a slot; there is nothing beyond the array. -/
def slot (slots : List (Option α)) (i : Nat) : Option α := slots.getD i none

/-- The array of `size` slots that holds the list. -/
def slotsOf (size : Nat) (order : List α) : List (Option α) :=
  order.map some ++ List.replicate (size - order.length) none

section Slots

variable {size : Nat} {order : List α}

@[simp]
theorem slot_slotsOf (size : Nat) (order : List α) (i : Nat) :
    slot (slotsOf size order) i = order[i]? := by
  rw [slot, slotsOf, List.getD_eq_getElem?_getD]
  rcases Nat.lt_or_ge i order.length with hin | hout
  · rw [List.getElem?_append_left (by rwa [List.length_map]), List.getElem?_map,
      List.getElem?_eq_getElem hin]
    rfl
  · rw [List.getElem?_append_right (by rwa [List.length_map]), List.getElem?_eq_none hout,
      List.getElem?_replicate]
    split
    · rfl
    · rfl

/-- A new entry behind the last one. -/
theorem set_slotsOf_end (h : order.length < size) (a : α) :
    (slotsOf size order).set order.length (some a) = slotsOf size (order ++ [a]) := by
  obtain ⟨room, hroom⟩ : ∃ room, size - order.length = room + 1 :=
    ⟨size - order.length - 1, by omega⟩
  have hrest : size - (order ++ [a]).length = room := by
    rw [List.length_append, List.length_singleton]
    omega
  rw [slotsOf, slotsOf, hroom, hrest, List.set_append_right _ _ (Nat.le_of_eq (List.length_map _)),
    List.length_map, Nat.sub_self, List.replicate_succ, List.set_cons_zero, List.map_append,
    List.append_assoc]
  rfl

/-- An entry in the place of another. -/
theorem set_slotsOf_inside {i : Nat} (h : i < order.length) (a : α) :
    (slotsOf size order).set i (some a) = slotsOf size (order.set i a) := by
  rw [slotsOf, slotsOf, List.set_append_left _ _ (by rwa [List.length_map]), List.map_set,
    List.length_set]

/-- The last entry goes. -/
theorem set_slotsOf_last (h : order.length < size) (a : α) :
    (slotsOf size (order ++ [a])).set order.length none = slotsOf size order := by
  rw [← set_slotsOf_end h, List.set_set]
  obtain ⟨room, hroom⟩ : ∃ room, size - order.length = room + 1 :=
    ⟨size - order.length - 1, by omega⟩
  rw [slotsOf, hroom, List.set_append_right _ _ (Nat.le_of_eq (List.length_map _)), List.length_map,
    Nat.sub_self, List.replicate_succ, List.set_cons_zero]

end Slots

/-! ## Removing an entry -/

section Remove

variable {front : List α} {last a : α} {j : Nat}

/-- The last entry in the place of another leaves all entries but that one. -/
theorem perm_cons_set (h : (front ++ [last])[j]? = some a) :
    (a :: front.set j last).Perm (front ++ [last]) := by
  have hlast : (last :: front).Perm (front ++ [last]) :=
    (List.perm_append_singleton last front).symm
  rcases Nat.lt_or_ge j front.length with hin | hend
  · rw [List.getElem?_append_left hin, List.getElem?_eq_getElem hin] at h
    obtain rfl := Option.some.inj h
    calc (front[j] :: front.set j last).Perm (front[j] :: last :: front.eraseIdx j) :=
          (List.set_perm_cons_eraseIdx hin last).cons _
      _ |>.Perm (last :: front[j] :: front.eraseIdx j) := List.Perm.swap _ _ _
      _ |>.Perm (last :: front) := (List.getElem_cons_eraseIdx_perm hin).cons _
      _ |>.Perm (front ++ [last]) := hlast
  · have hj : j = front.length := by
      have hlt := (List.getElem?_eq_some_iff.mp h).1
      rw [List.length_append, List.length_singleton] at hlt
      omega
    subst hj
    rw [List.getElem?_concat_length] at h
    obtain rfl := Option.some.inj h
    rw [List.set_eq_of_length_le (Nat.le_refl _)]
    exact hlast

theorem nodup_set (hnodup : (front ++ [last]).Nodup) (h : (front ++ [last])[j]? = some a) :
    (front.set j last).Nodup :=
  (List.nodup_cons.mp ((perm_cons_set h).nodup_iff.mpr hnodup)).2

theorem mem_set_iff (hnodup : (front ++ [last]).Nodup) (h : (front ++ [last])[j]? = some a)
    (b : α) : b ∈ front.set j last ↔ b ∈ front ++ [last] ∧ b ≠ a := by
  have hperm := perm_cons_set h
  have hnot := (List.nodup_cons.mp (hperm.nodup_iff.mpr hnodup)).1
  rw [← hperm.mem_iff, List.mem_cons]
  constructor
  · intro hb
    refine ⟨.inr hb, ?_⟩
    rintro rfl
    exact hnot hb
  · rintro ⟨hb, hne⟩
    exact hb.resolve_left hne

end Remove

end Msm8916.Compact
