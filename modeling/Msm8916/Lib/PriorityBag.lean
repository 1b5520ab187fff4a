import Mathlib.Data.Finset.Insert
import Mathlib.Data.Finset.Erase
import Mathlib.Data.Multiset.ZeroCons

/-!
What a priority container is for, without a representation: a finite set of
objects ranked by a relation `above`, from which a highest one can be read or
taken. `above` is the strict part of a total preorder, so objects may tie and
any of the tied ones is an acceptable answer.
-/

namespace Msm8916.PriorityBag

variable {α : Type*}

/-- `above` ranks objects consistently with the total preorder `le`. -/
structure Ranking (above le : α → α → Prop) : Prop where
  total : ∀ a b, le a b ∨ le b a
  trans : ∀ a b c, le a b → le b c → le a c
  above_iff : ∀ a b, above a b ↔ ¬ le a b

namespace Ranking

variable {above le : α → α → Prop}

theorem not_above_iff (h : Ranking above le) (a b : α) : ¬ above a b ↔ le a b := by
  rw [h.above_iff, not_not]

theorem not_above_self (h : Ranking above le) (a : α) : ¬ above a a := by
  rw [h.not_above_iff]
  exact (h.total a a).elim id id

theorem not_above_of_above (h : Ranking above le) {a b : α} (hab : above a b) :
    ¬ above b a := by
  rw [h.not_above_iff]
  exact (h.total a b).resolve_left ((h.above_iff a b).mp hab)

theorem not_above_trans (h : Ranking above le) {a b c : α}
    (hab : ¬ above a b) (hbc : ¬ above b c) : ¬ above a c := by
  rw [h.not_above_iff] at *
  exact h.trans a b c hab hbc

end Ranking

/-- `top` is one of the stored objects and none of them is above it. -/
def IsTop (above : α → α → Prop) (stored : Multiset α) (top : α) : Prop :=
  top ∈ stored ∧ ∀ x ∈ stored, ¬ above x top

inductive Op (α : Type*) where
  | push (x : α)
  | peek
  | pop
  | remove (x : α)

variable [DecidableEq α]

/-- The stored set after an operation that answered `answer`: what was pushed
minus what was handed back by a pop or a removal. -/
def after (stored : Finset α) : Op α → Option α → Finset α
  | .push x, _ => insert x stored
  | .peek, _ => stored
  | .pop, answer => answer.elim stored stored.erase
  | .remove _, answer => answer.elim stored stored.erase

/-- The answers a priority bag may give. -/
def Answers (above : α → α → Prop) (stored : Finset α) : Op α → Option α → Prop
  | .push _, answer => answer = none
  | .peek, none => stored = ∅
  | .peek, some top => IsTop above stored.val top
  | .pop, none => stored = ∅
  | .pop, some top => IsTop above stored.val top
  | .remove x, answer => answer = if x ∈ stored then some x else none

/-- Objects are distinct: one that is stored is not pushed again. -/
def Admits (stored : Finset α) : Op α → Prop
  | .push x => x ∉ stored
  | _ => True

instance (stored : Finset α) (op : Op α) : Decidable (Admits stored op) :=
  match op with
  | .push x => inferInstanceAs (Decidable (x ∉ stored))
  | .peek => inferInstanceAs (Decidable True)
  | .pop => inferInstanceAs (Decidable True)
  | .remove _ => inferInstanceAs (Decidable True)

end Msm8916.PriorityBag
