import Mathlib.Data.List.Basic

/-!
Words, occurrences and periods, for string matching that compares a pattern
from its right end. Positions are read with `[·]?`, so a position outside a
word is simply different from every position inside one.
-/

namespace Msm8916.Word

variable {α : Type*}

/-- The pattern occurs in the text at offset `k`. -/
def OccursAt (text pat : List α) (k : Nat) : Prop :=
  ∀ t < pat.length, text[k + t]? = pat[t]?

/-- The suffix of the word that starts at `q` is also a prefix of it. -/
def Period (word : List α) (q : Nat) : Prop :=
  ∀ k < word.length - q, word[k]? = word[k + q]?

/-- What follows position `j` occurs again `d` places further left, and there
it is preceded by a different letter. -/
def Reoccurs (word : List α) (j d : Nat) : Prop :=
  0 < d ∧ d ≤ j ∧ (∀ k < word.length, j < k → word[k - d]? = word[k]?) ∧
    word[j - d]? ≠ word[j]?

instance [DecidableEq α] (text pat : List α) (k : Nat) : Decidable (OccursAt text pat k) :=
  inferInstanceAs (Decidable (∀ t < pat.length, text[k + t]? = pat[t]?))

instance [DecidableEq α] (word : List α) (q : Nat) : Decidable (Period word q) :=
  inferInstanceAs (Decidable (∀ k < word.length - q, word[k]? = word[k + q]?))

instance [DecidableEq α] (word : List α) (j d : Nat) : Decidable (Reoccurs word j d) :=
  inferInstanceAs (Decidable (0 < d ∧ d ≤ j ∧
    (∀ k < word.length, j < k → word[k - d]? = word[k]?) ∧ word[j - d]? ≠ word[j]?))

theorem period_zero (word : List α) : Period word 0 := fun _ _ => rfl

/-- A word whose last letter occurs nowhere else in it has no period but its length. -/
theorem not_period_of_last {word : List α} {q : Nat} (hpos : 0 < q) (hlt : q < word.length)
    (hlast : ∀ k < word.length - 1, word[k]? ≠ word[word.length - 1]?) : ¬ Period word q := by
  intro hperiod
  have hshifted := hperiod (word.length - 1 - q) (by omega)
  rw [show word.length - 1 - q + q = word.length - 1 by omega] at hshifted
  exact hlast (word.length - 1 - q) (by omega) hshifted

theorem OccursAt.add_length_le {text pat : List α} {k : Nat} (h : OccursAt text pat k)
    (hpos : 0 < pat.length) : k + pat.length ≤ text.length := by
  have hlast := h (pat.length - 1) (by omega)
  rw [List.getElem?_eq_getElem (by omega : pat.length - 1 < pat.length)] at hlast
  obtain ⟨hlt, _⟩ := List.getElem?_eq_some_iff.mp hlast
  omega

/-- The pattern, aligned at offset `a`, agrees with the text to the right of
position `j` and differs from it there. -/
structure MismatchAt (text pat : List α) (a j : Nat) : Prop where
  lt : j < pat.length
  suffix : ∀ k < pat.length, j < k → text[a + k]? = pat[k]?
  differs : text[a + j]? ≠ pat[j]?

namespace MismatchAt

variable {text pat : List α} {a j e : Nat}

theorem not_occursAt (h : MismatchAt text pat a j) : ¬ OccursAt text pat a :=
  fun hocc => h.differs (hocc j h.lt)

/-- An occurrence at most `j` places further right lines the mismatched text
letter up with a pattern letter left of `j`. -/
theorem letter_of_occursAt (h : MismatchAt text pat a j) (hej : e ≤ j)
    (hocc : OccursAt text pat (a + e)) : pat[j - e]? = text[a + j]? := by
  rw [← hocc (j - e) (by have := h.lt; omega)]
  congr 1
  omega

/-- Such an occurrence is a recurrence of the matched suffix. -/
theorem reoccurs_of_occursAt (h : MismatchAt text pat a j) (hpos : 0 < e) (hej : e ≤ j)
    (hocc : OccursAt text pat (a + e)) : Reoccurs pat j e := by
  refine ⟨hpos, hej, fun k hk hjk => ?_, ?_⟩
  · rw [← h.suffix k hk hjk, ← hocc (k - e) (by omega)]
    congr 1
    omega
  · rw [h.letter_of_occursAt hej hocc]
    exact h.differs

/-- An occurrence further right than `j` places overlaps the matched suffix in
a period of the pattern. -/
theorem period_of_occursAt (h : MismatchAt text pat a j) (hje : j < e)
    (hocc : OccursAt text pat (a + e)) : Period pat e := by
  intro k hk
  rw [← h.suffix (k + e) (by omega) (by omega), ← hocc k (by omega)]
  congr 1
  omega

/-- The rightmost difference is at one position only. -/
theorem unique {j' : Nat} (h : MismatchAt text pat a j) (h' : MismatchAt text pat a j') :
    j' = j := by
  rcases Nat.lt_trichotomy j' j with hlt | heq | hgt
  · exact absurd (h'.suffix j h.lt hlt) h.differs
  · exact heq
  · exact absurd (h.suffix j' h'.lt hgt) h'.differs

end MismatchAt

/-! ## The run at the end of a word -/

/-- The last `run` letters of the word are `letter`, and no letter before them is. -/
structure EndsInRun (word : List α) (letter : α) (run : Nat) : Prop where
  pos : 0 < run
  le : run ≤ word.length
  letters : ∀ k < word.length, word.length - run ≤ k → word[k]? = some letter
  maximal : run = word.length ∨ ∃ other ≠ letter, word[word.length - 1 - run]? = some other

theorem exists_endsInRun {word : List α} (hpos : 0 < word.length) :
    ∃ letter run, EndsInRun word letter run := by
  classical
  induction word with
  | nil => exact absurd hpos (Nat.lt_irrefl 0)
  | cons first rest ih =>
      rcases Nat.eq_zero_or_pos rest.length with hnil | hrest
      · obtain rfl := List.length_eq_zero_iff.mp hnil
        refine ⟨first, 1, Nat.one_pos, Nat.le_refl 1, fun k hk _ => ?_, .inl rfl⟩
        obtain rfl : k = 0 := Nat.lt_one_iff.mp hk
        rfl
      · obtain ⟨letter, run, hrun⟩ := ih hrest
        have hle := hrun.le
        have hletters : ∀ k < rest.length + 1, rest.length + 1 - run ≤ k → k ≠ 0 →
            (first :: rest)[k]? = some letter := by
          intro k hk hlow hne
          obtain ⟨k, rfl⟩ := Nat.exists_eq_succ_of_ne_zero hne
          rw [List.getElem?_cons_succ]
          exact hrun.letters k (by omega) (by omega)
        by_cases hwhole : run = rest.length
        · by_cases hsame : first = letter
          · refine ⟨letter, run + 1, Nat.succ_pos run, Nat.succ_le_succ hle, fun k hk _ => ?_,
              .inl (congrArg (· + 1) hwhole)⟩
            rcases Nat.eq_zero_or_pos k with rfl | hkpos
            · rw [List.getElem?_cons_zero, hsame]
            · exact hletters k hk (by omega) (by omega)
          · refine ⟨letter, run, hrun.pos, Nat.le_succ_of_le hle, fun k hk hlow => ?_,
              .inr ⟨first, hsame, ?_⟩⟩
            · rw [List.length_cons] at hk hlow
              exact hletters k hk hlow (by omega)
            · rw [List.length_cons, show rest.length + 1 - 1 - run = 0 by omega]
              rfl
        · obtain ⟨other, hother, hbefore⟩ := hrun.maximal.resolve_left hwhole
          refine ⟨letter, run, hrun.pos, Nat.le_succ_of_le hle, fun k hk hlow => ?_,
            .inr ⟨other, hother, ?_⟩⟩
          · rw [List.length_cons] at hk hlow
            exact hletters k hk hlow (by omega)
          · rw [List.length_cons,
              show rest.length + 1 - 1 - run = rest.length - 1 - run + 1 by omega,
              List.getElem?_cons_succ]
            exact hbefore

namespace EndsInRun

variable {word : List α} {letter : α} {run t d : Nat}

/-- A part of the run recurs first where the whole run begins. -/
theorem reoccurs (h : EndsInRun word letter run) (hlt : run < word.length) (ht : t < run) :
    Reoccurs word (word.length - 1 - t) (run - t) := by
  obtain ⟨other, hother, hbefore⟩ := h.maximal.resolve_left (Nat.ne_of_lt hlt)
  refine ⟨by omega, by omega, fun k hk hlow => ?_, ?_⟩
  · rw [h.letters k hk (by omega), h.letters (k - (run - t)) (by omega) (by omega)]
  · rw [show word.length - 1 - t - (run - t) = word.length - 1 - run by omega, hbefore,
      h.letters (word.length - 1 - t) (by omega) (by omega)]
    exact fun heq => hother (Option.some.inj heq)

/-- It does not recur inside the run. -/
theorem le_of_reoccurs (h : EndsInRun word letter run) (ht : t < run)
    (hd : Reoccurs word (word.length - 1 - t) d) : run - t ≤ d ∧ run < word.length := by
  obtain ⟨hpos, hle, -, hdiffers⟩ := hd
  have hlen := h.le
  have hfar : run - t ≤ d := by
    by_contra hnear
    apply hdiffers
    rw [h.letters (word.length - 1 - t - d) (by omega) (by omega),
      h.letters (word.length - 1 - t) (by omega) (by omega)]
  exact ⟨hfar, by omega⟩

/-- A word of one letter has every period. -/
theorem period (h : EndsInRun word letter word.length) (q : Nat) : Period word q := by
  intro k hk
  rw [h.letters k (by omega) (by omega), h.letters (k + q) (by omega) (by omega)]

end EndsInRun

/-- `answer` is the first occurrence of the pattern, or tells that there is
none. -/
def Finds (text pat : List α) : Option Nat → Prop
  | some k => OccursAt text pat k ∧ ∀ k' < k, ¬ OccursAt text pat k'
  | none => ∀ k, ¬ OccursAt text pat k

end Msm8916.Word
