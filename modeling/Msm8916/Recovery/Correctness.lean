import Msm8916.Recovery.Runaway

/-!
Which patterns `bm_search` finds in every text of a length. The lengths must be such that
the index of the search and the length of the text are in the range of `int`, unless the
pattern is longer than the text.
-/

namespace Msm8916.Recovery

open Word

/-! ## Lengths out of the range of `int` -/

/-- A length that is no `int` becomes one that is smaller by `2 ^ 32` at least. -/
theorem toInt_add_le {value : Nat} (h : 2 ^ 31 ≤ value) : toInt value + 2 ^ 32 ≤ value := by
  have hlt : toInt value < 2 ^ 31 :=
    Int.bmod_lt (x := (value : Int)) (m := 2 ^ 32) (by decide)
  have hmod : toInt value % 2 ^ 32 = value % 2 ^ 32 := @Int.bmod_emod value (2 ^ 32)
  omega

theorem matchBack_le {text pat : List Byte} {j : Nat} {i i' j' : Int}
    (h : matchBack text pat j i = some (i', j')) : i' ≤ i ∧ (j' < 0 → i' + j = i) := by
  induction j generalizing i with
  | zero =>
      obtain ⟨rfl, -⟩ := Prod.mk.inj (Option.some.inj h)
      exact ⟨Int.le_refl _, fun _ => Int.add_zero _⟩
  | succ j ih =>
      obtain ⟨c, -, hrest⟩ := Option.bind_eq_some_iff.mp h
      obtain ⟨d, -, hrest⟩ := Option.bind_eq_some_iff.mp hrest
      split at hrest
      · obtain ⟨hle, hwhole⟩ := ih hrest
        refine ⟨by omega, fun hj => ?_⟩
        have := hwhole hj
        omega
      · obtain ⟨rfl, rfl⟩ := Prod.mk.inj (Option.some.inj hrest)
        exact ⟨Int.le_refl _, fun hj => by omega⟩

/-- What the search finds begins before the end of the text as the code sees it. -/
theorem lt_of_searchFrom {text pat : List Byte} {delta1 : Byte → Int} {delta2 : Delta2}
    (hpos : 0 < pat.length) {fuel : Nat} {i k : Int}
    (h : searchFrom text pat delta1 delta2 fuel i = some (some k)) : k < toInt text.length := by
  induction fuel generalizing i with
  | zero => cases h
  | succ fuel ih =>
      rw [searchFrom] at h
      split at h
      · rename_i hin
        obtain ⟨⟨i', j'⟩, hback, hrest⟩ := Option.bind_eq_some_iff.mp h
        obtain ⟨-, hwhole⟩ := matchBack_le hback
        dsimp only at hrest
        split at hrest
        · rename_i hfound
          obtain rfl : i' + 1 = k := Option.some.inj (Option.some.inj hrest)
          have := hwhole hfound
          omega
        · obtain ⟨c, -, hrest⟩ := Option.bind_eq_some_iff.mp hrest
          obtain ⟨shift2, -, hrest⟩ := Option.bind_eq_some_iff.mp hrest
          obtain ⟨next, -, hrest⟩ := Option.bind_eq_some_iff.mp hrest
          exact ih hrest
      · cases h

/-- NULs, and the pattern at the end. -/
def lateText (pat : List Byte) (textLen : Nat) : List Byte :=
  List.replicate (textLen - pat.length) 0 ++ pat

theorem length_lateText {pat : List Byte} {textLen : Nat} (hle : pat.length ≤ textLen) :
    (lateText pat textLen).length = textLen := by
  rw [lateText, List.length_append, List.length_replicate]
  omega

theorem lateText_occursAt (pat : List Byte) (textLen : Nat) :
    OccursAt (lateText pat textLen) pat (textLen - pat.length) := by
  intro t ht
  rw [lateText, List.getElem?_append_right (by rw [List.length_replicate]; omega),
    List.length_replicate, Nat.add_sub_cancel_left]

theorem le_of_lateText_occursAt {pat : List Byte} {textLen k : Nat} (hnul : ∀ c ∈ pat, c ≠ 0)
    (hpos : 0 < pat.length) (h : OccursAt (lateText pat textLen) pat k) :
    textLen - pat.length ≤ k := by
  by_contra hlt
  have hfirst := h 0 hpos
  rw [lateText, List.getElem?_append_left (by rw [List.length_replicate]; omega),
    List.getElem?_replicate, if_pos (by omega), List.getElem?_eq_getElem hpos] at hfirst
  exact hnul _ (List.getElem_mem hpos) (Option.some.inj hfirst).symm

/-- A search in a text whose length is no `int` does not get as far as its end. -/
theorem not_correct_lateText {pat : List Byte} {textLen : Nat} (hnul : ∀ c ∈ pat, c ≠ 0)
    (hpos : 0 < pat.length) (hlen : pat.length < 2 ^ 31) (hlong : 2 ^ 31 ≤ textLen) :
    ¬ Correct (lateText pat textLen) pat := by
  rintro ⟨answer, hanswer, hfinds⟩
  obtain ⟨delta1, hmake1, -⟩ := bmMakeDelta1_spec hpos hlen
  obtain ⟨delta2, hmake2, -⟩ := bmMakeDelta2_spec hnul hpos hlen
  rw [bmSearch_eq hpos hlen hmake1 hmake2] at hanswer
  cases answer with
  | none => exact hfinds _ (lateText_occursAt pat textLen)
  | some k =>
      have hlt := lt_of_searchFrom hpos hanswer
      have hge := le_of_lateText_occursAt hnul hpos hfinds.1
      have hwrap := toInt_add_le hlong
      rw [length_lateText (by omega)] at hlt
      have hindex : (k : Int) < toInt textLen := hlt
      omega

/-- A pattern that is longer than the text is not found, as it should be. -/
theorem correct_of_longer {text pat : List Byte} (hnul : ∀ c ∈ pat, c ≠ 0)
    (hlen : pat.length < 2 ^ 31) (hlonger : text.length < pat.length) : Correct text pat := by
  have hpos : 0 < pat.length := by omega
  obtain ⟨delta1, hmake1, -⟩ := bmMakeDelta1_spec hpos hlen
  obtain ⟨delta2, hmake2, -⟩ := bmMakeDelta2_spec hnul hpos hlen
  refine ⟨none, ?_, fun k hocc => ?_⟩
  · have htoInt := toInt_le text.length
    rw [bmSearch_eq hpos hlen hmake1 hmake2, searchFrom, if_neg (by omega)]
    rfl
  · have hfits := hocc.add_length_le hpos
    omega

/-! ## The patterns that are found -/

/-- Where `bm_search` of a pattern is right in every text of a length, the pattern is longer
than the text or the two lengths stay together in the range of `int`. -/
theorem le_of_correct {pat : List Byte} {textLen : Nat} (hpos : 0 < pat.length)
    (hnul : ∀ c ∈ pat, c ≠ 0) (hlen : pat.length < 2 ^ 31)
    (hcorrect : ∀ text : List Byte, text.length = textLen → Correct text pat) :
    textLen < pat.length ∨ textLen + pat.length ≤ 2 ^ 31 := by
  by_contra hnot
  rcases Nat.lt_or_ge textLen (2 ^ 31) with hlt | hge
  · have htoInt := toInt_eq hlt
    obtain ⟨text, htext, hnone⟩ :=
      @exists_runaway pat textLen hnul hpos hlen (by omega) (by omega)
    obtain ⟨answer, hanswer, -⟩ := hcorrect text htext
    cases hnone.symm.trans hanswer
  · exact not_correct_lateText hnul hpos hlen hge (hcorrect _ (length_lateText (by omega)))

/-- `bm_search` of a pattern finds the first occurrence in every text of a given length
exactly when no position of the pattern overshoots within that length, and the two lengths
together stay in the range of `int` or the pattern is longer than the text. -/
theorem bmSearch_correct_iff (pat : List Byte) (textLen : Nat) (hpos : 0 < pat.length)
    (hnul : ∀ c ∈ pat, c ≠ 0) (hpat : (pat.length : Int) ≤ intMax) :
    (∀ text : List Byte, text.length = textLen → Correct text pat) ↔
      ¬ OvershootsWithin pat textLen ∧
        (textLen < pat.length ∨ textLen + pat.length ≤ 2 ^ 31) := by
  have hlen : pat.length < 2 ^ 31 := by unfold intMax at hpat; omega
  constructor
  · intro hcorrect
    have hrange := le_of_correct hpos hnul hlen hcorrect
    refine ⟨?_, hrange⟩
    rintro ⟨j, hj, q, hq, hover, hfit⟩
    obtain ⟨delta1, hmake1, hdelta1⟩ := bmMakeDelta1_spec hpos hlen
    obtain ⟨delta2, hmake2, hdelta2⟩ := bmMakeDelta2_spec hnul hpos hlen
    have hlength := missedText_length pat j q textLen
    obtain ⟨answer, hanswer, hfinds⟩ := hcorrect _ hlength
    rw [bmSearch_eq hpos hlen hmake1 hmake2] at hanswer
    exact searchFrom_misses hdelta1 hpos hdelta2 (by rw [hlength]; omega)
      (missedText_mismatchAt hnul hover hfit) hover
      (missedText_occursAt hover.1 hfit) _ (Nat.le_refl _) answer hanswer hfinds
  · rintro ⟨hsafe, hlonger | hint⟩ text rfl
    · exact correct_of_longer hnul hlen hlonger
    · exact correct_of_not_overshoots hpos hnul hlen hint hsafe

/-- The pattern `AB` overshoots nowhere, `ABA` does in every text long enough. -/
theorem bmSearch_correct_iff_aba :
    ((∀ text : List Byte, text.length = 500 → Correct text [65, 66]) ↔
        ¬ OvershootsWithin [65, 66] 500 ∧ (500 < 2 ∨ 500 + 2 ≤ 2 ^ 31)) ∧
      ((∀ text : List Byte, text.length = 500 → Correct text [65, 66, 65]) ↔
        ¬ OvershootsWithin [65, 66, 65] 500 ∧ (500 < 3 ∨ 500 + 3 ≤ 2 ^ 31)) :=
  ⟨bmSearch_correct_iff [65, 66] 500 (by decide) (by simp) (by decide),
    bmSearch_correct_iff [65, 66, 65] 500 (by decide) (by simp) (by decide)⟩

/-- Searching `ACABA` for `ABA` answers that there is no occurrence, although
the pattern occurs at offset 2. -/
theorem bmSearch_misses_aba :
    ¬ ∀ text pat : List Byte, 0 < pat.length → (∀ c ∈ pat, c ≠ 0) →
      (text.length : Int) ≤ intMax → (pat.length : Int) ≤ intMax → Correct text pat := by
  intro h
  obtain ⟨answer, hanswer, hfinds⟩ := h [65, 67, 65, 66, 65] [65, 66, 65]
    (by decide) (by simp) (by decide) (by decide)
  have hnull : bmSearch [65, 67, 65, 66, 65] [65, 66, 65] = some none := by decide
  rw [hnull] at hanswer
  cases answer with
  | none => exact hfinds 2 (by decide)
  | some k => simp at hanswer

example : OvershootsWithin [65, 66, 65] 5 ∧ ¬ OvershootsWithin [65, 66, 65] 4 := by decide

end Msm8916.Recovery
