import Mathlib.Data.List.Basic

/-!
The fields of a text that a separator keeps apart.
-/

namespace Msm8916.Fields

variable {α : Type*}

/-- What is left starts with an element that is not dropped. -/
theorem eq_false_of_dropWhile {p : α → Bool} {text rest : List α} {x : α}
    (h : text.dropWhile p = x :: rest) : p x = false := by
  have hhead := List.head?_dropWhile_not p text
  rw [h] at hhead
  simpa using hhead

section Split

variable [DecidableEq α]

theorem splitOn_cons_ne {sep x : α} (hx : x ≠ sep) (text : List α) :
    ∃ field fields, text.splitOn sep = field :: fields ∧
      (x :: text).splitOn sep = (x :: field) :: fields := by
  obtain ⟨field, fields, hsplit⟩ := List.exists_cons_of_ne_nil (List.splitOn_ne_nil sep text)
  refine ⟨field, fields, hsplit, ?_⟩
  rw [List.splitOn_cons_eq_if_modifyHead, if_neg (by simpa using hx), hsplit, List.modifyHead_cons]

theorem splitOn_cons_self (sep : α) (text : List α) :
    (sep :: text).splitOn sep = [] :: text.splitOn sep := by
  rw [List.splitOn_cons_eq_if_modifyHead, if_pos BEq.rfl]

/-- There is a field more than separators. -/
theorem length_splitOn (sep : α) (text : List α) :
    (text.splitOn sep).length = text.count sep + 1 := by
  induction text with
  | nil => rfl
  | cons x text ih =>
      by_cases hx : x = sep
      · subst hx
        rw [splitOn_cons_self, List.length_cons, ih, List.count_cons_self]
      · obtain ⟨field, fields, hsplit, hcons⟩ := splitOn_cons_ne hx text
        rw [hsplit] at ih
        rw [hcons, List.count_cons_of_ne hx]
        exact ih

/-- A field has no separator, and all its elements are elements of the text. -/
theorem mem_field {sep : α} {text field : List α} (hfield : field ∈ text.splitOn sep) {y : α}
    (hy : y ∈ field) : y ≠ sep ∧ y ∈ text := by
  induction text generalizing field with
  | nil =>
      obtain rfl := List.mem_singleton.mp hfield
      cases hy
  | cons x text ih =>
      by_cases hx : x = sep
      · subst hx
        rw [splitOn_cons_self] at hfield
        rcases List.mem_cons.mp hfield with rfl | hrest
        · cases hy
        · obtain ⟨hne, hmem⟩ := ih hrest hy
          exact ⟨hne, List.mem_cons_of_mem _ hmem⟩
      · obtain ⟨first, fields, hsplit, hcons⟩ := splitOn_cons_ne hx text
        rw [hsplit] at ih
        rw [hcons] at hfield
        rcases List.mem_cons.mp hfield with rfl | hrest
        · rcases List.mem_cons.mp hy with rfl | hin
          · exact ⟨hx, List.mem_cons_self⟩
          · obtain ⟨hne, hmem⟩ := ih List.mem_cons_self hin
            exact ⟨hne, List.mem_cons_of_mem _ hmem⟩
        · obtain ⟨hne, hmem⟩ := ih (List.mem_cons_of_mem _ hrest) hy
          exact ⟨hne, List.mem_cons_of_mem _ hmem⟩

end Split

/-! ## Joined fields -/

theorem intercalate_cons_cons (sep : α) (first second : List α) (fields : List (List α)) :
    [sep].intercalate (first :: second :: fields) =
      first ++ sep :: [sep].intercalate (second :: fields) := by
  rw [List.intercalate_cons_cons, List.append_assoc, List.singleton_append]

/-- The offsets of the fields, the first one at `start`. -/
def fieldStarts : Nat → List (List α) → List Nat
  | _, [] => []
  | start, field :: fields => start :: fieldStarts (start + field.length + 1) fields

@[simp]
theorem length_fieldStarts (start : Nat) (fields : List (List α)) :
    (fieldStarts start fields).length = fields.length := by
  induction fields generalizing start with
  | nil => rfl
  | cons field fields ih => rw [fieldStarts, List.length_cons, List.length_cons, ih]

/-- The fields up to some field, joined, are the text up to the end of that field. -/
theorem intercalate_take (sep : α) (start : Nat) {fields : List (List α)} (hne : fields ≠ [])
    (count : Nat) :
    ∃ offset field,
      ((fieldStarts start fields).take (count + 1)).getLast? = some (start + offset) ∧
      (fields.take (count + 1)).getLast? = some field ∧
      [sep].intercalate (fields.take (count + 1)) =
        ([sep].intercalate fields).take (offset + field.length) := by
  induction fields generalizing start count with
  | nil => exact absurd rfl hne
  | cons first fields ih =>
      cases fields with
      | nil => exact ⟨0, first, by simp [fieldStarts], by simp, by simp⟩
      | cons second fields =>
          have hwhole := intercalate_cons_cons sep first second fields
          cases count with
          | zero => exact ⟨0, first, by simp [fieldStarts], by simp, by rw [hwhole]; simp⟩
          | succ count =>
              obtain ⟨offset, field, hstart, hlast, hjoin⟩ :=
                ih (start + first.length + 1) nofun count
              refine ⟨first.length + 1 + offset, field, ?_, ?_, ?_⟩
              · rw [fieldStarts, List.take_succ_cons, List.getLast?_cons, hstart]
                simp only [Option.getD_some, Option.some.injEq]
                omega
              · rw [List.take_succ_cons, List.getLast?_cons, hlast]
                rfl
              · have htake : first.length + 1 + offset + field.length =
                    first.length + (offset + field.length + 1) := by
                  omega
                have htail : [sep].intercalate ((first :: second :: fields).take (count + 1 + 1)) =
                    first ++ sep :: [sep].intercalate ((second :: fields).take (count + 1)) := by
                  rw [List.take_succ_cons, List.take_succ_cons, intercalate_cons_cons]
                rw [htail, hwhole, hjoin, htake, List.take_length_add_append, List.take_succ_cons]

end Msm8916.Fields
