import Mathlib.Data.List.TakeWhile
import Msm8916.Lib.Fields

/-!
Buffers of characters, and the strings in them: a string ends before the first
character that is NUL.
-/

namespace Msm8916.Buffer

def NUL : Char := '\x00'

/-- A store at an index; outside the buffer there is none. -/
def write {α : Type*} (buf : List α) (i : Nat) (c : α) : Option (List α) :=
  if i < buf.length then some (buf.set i c) else none

/-- The string at an index, unless it runs over the end of the buffer. -/
def stringAt (buf : List Char) (i : Nat) : Option (List Char) :=
  if NUL ∈ buf.drop i then some ((buf.drop i).takeWhile (· != NUL)) else none

/-- `strlen` of the string at the start. -/
def strlen (buf : List Char) : Option Nat := (stringAt buf 0).map List.length

section Strings

variable {s rest : List Char}

theorem ne_NUL_of_mem (hs : NUL ∉ s) {c : Char} (hc : c ∈ s) : c ≠ NUL :=
  fun heq => hs (heq ▸ hc)

theorem takeWhile_string (hs : NUL ∉ s) (rest : List Char) :
    (s ++ NUL :: rest).takeWhile (· != NUL) = s := by
  rw [List.takeWhile_append_of_pos fun c hc => bne_iff_ne.mpr (ne_NUL_of_mem hs hc),
    List.takeWhile_cons_of_neg (by simp), List.append_nil]

/-- What is before a string does not matter, nor what is behind its end. -/
theorem stringAt_append (hs : NUL ∉ s) {before : List Char} {i : Nat} (hi : i = before.length)
    (rest : List Char) : stringAt (before ++ (s ++ NUL :: rest)) i = some s := by
  subst hi
  rw [stringAt, List.drop_left, if_pos (by simp), takeWhile_string hs]

theorem stringAt_zero (hs : NUL ∉ s) (rest : List Char) :
    stringAt (s ++ NUL :: rest) 0 = some s := by
  have hnone : stringAt ([] ++ (s ++ NUL :: rest)) 0 = some s := stringAt_append hs rfl rest
  exact hnone

theorem strlen_eq (hs : NUL ∉ s) (rest : List Char) :
    strlen (s ++ NUL :: rest) = some s.length := by
  rw [strlen, stringAt_zero hs, Option.map_some]

/-- With a NUL behind it any text is a string with something behind its NUL. -/
theorem exists_rest (text after : List Char) :
    ∃ rest, text ++ NUL :: after = text.takeWhile (· != NUL) ++ NUL :: rest := by
  have hparts : text.takeWhile (· != NUL) ++ text.dropWhile (· != NUL) = text :=
    List.takeWhile_append_dropWhile
  cases hdrop : text.dropWhile (· != NUL) with
  | nil =>
      rw [hdrop, List.append_nil] at hparts
      exact ⟨after, by rw [hparts]⟩
  | cons c more =>
      have hc : c = NUL := by simpa using Fields.eq_false_of_dropWhile hdrop
      subst hc
      rw [hdrop] at hparts
      refine ⟨more ++ NUL :: after, ?_⟩
      calc text ++ NUL :: after
          = text.takeWhile (· != NUL) ++ NUL :: more ++ NUL :: after := by rw [hparts]
        _ = text.takeWhile (· != NUL) ++ NUL :: (more ++ NUL :: after) := by
            rw [List.append_assoc, List.cons_append]

end Strings

section Write

variable {α : Type*} {before : List α}

/-- A store right behind a part of the buffer. -/
theorem write_append {i : Nat} (hi : i = before.length) (old new : α) (after : List α) :
    write (before ++ old :: after) i new = some (before ++ new :: after) := by
  subst hi
  rw [write, if_pos (by simp), List.set_append_right _ _ (Nat.le_refl _), Nat.sub_self,
    List.set_cons_zero]

/-- A NUL behind a part of a string makes that part the string. -/
theorem write_end {front : List Char} (hfront : NUL ∉ front) (gap rest : List Char) :
    ∃ head, head.length = (front ++ gap).length ∧
      write (front ++ (gap ++ NUL :: rest)) front.length NUL = some (head ++ NUL :: rest) ∧
      stringAt (head ++ NUL :: rest) 0 = some front := by
  cases gap with
  | nil =>
      exact ⟨front, by simp, write_append rfl NUL NUL rest, stringAt_zero hfront rest⟩
  | cons g gap =>
      refine ⟨front ++ NUL :: gap, by simp, ?_, ?_⟩
      · rw [List.cons_append, write_append rfl, List.append_assoc, List.cons_append]
      · rw [List.append_assoc, List.cons_append]
        exact stringAt_zero hfront _

theorem getElem?_append_cons {i : Nat} (hi : i = before.length) (c : α) (after : List α) :
    (before ++ c :: after)[i]? = some c := by
  subst hi
  rw [List.getElem?_append_right (Nat.le_refl _), Nat.sub_self, List.getElem?_cons_zero]

end Write

end Msm8916.Buffer
