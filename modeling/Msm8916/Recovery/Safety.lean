import Msm8916.Recovery.Runaway

/-!
Where `bm_search` stays inside its arrays and comes to an end. The tables of every pattern
but the empty one move each alignment to the right; what is left to go wrong is the
addition of a shift to an index near the largest `int`.
-/

namespace Msm8916.Recovery

open Word

/-! ## The tables of any pattern -/

/-- The shift moves an alignment to the right, by the length of the pattern at most. -/
def Moves (patLen : Nat) (_ shift : Nat) : Prop := 0 < shift ∧ shift ≤ patLen

/-- A comparison inside the pattern reads nothing else. -/
theorem strncmpEqual_inside {pat : List Byte} (a b n : Nat) (ha : a + n ≤ pat.length)
    (hb : b + n ≤ pat.length) :
    ∃ answer, strncmpEqual pat a b n = some answer ∧ (a = b → answer = true) := by
  induction n generalizing a b with
  | zero => exact ⟨true, rfl, fun _ => rfl⟩
  | succ n ih =>
      have hla : a < pat.length := by omega
      have hlb : b < pat.length := by omega
      simp only [strncmpEqual, List.getElem?_eq_getElem hla, List.getElem?_eq_getElem hlb,
        Option.bind_eq_bind, Option.bind_some, Option.pure_def]
      by_cases hxy : pat[a] = pat[b]
      · rw [if_neg (not_not.mpr hxy)]
        split
        · exact ⟨true, rfl, fun _ => rfl⟩
        · obtain ⟨answer, hanswer, hself⟩ := ih (a + 1) (b + 1) (by omega) (by omega)
          exact ⟨answer, hanswer, fun heq => hself (congrArg (· + 1) heq)⟩
      · rw [if_pos hxy]
        refine ⟨false, rfl, ?_⟩
        rintro rfl
        exact absurd rfl hxy

/-- Only the last position may find no prefix yet, and position 0 always finds one. -/
theorem delta2Prefix_moves {pat : List Byte} (p lastPrefix : Nat) (hp : p ≤ pat.length)
    (hle : lastPrefix ≤ pat.length) (hpos : 0 < lastPrefix ∨ p = 1) (delta2 : Delta2)
    (h : Holds pat (Moves pat.length) p delta2) :
    ∃ table, delta2Prefix pat p lastPrefix delta2 = some table ∧
      Holds pat (Moves pat.length) 0 table := by
  induction p generalizing lastPrefix delta2 with
  | zero => exact ⟨delta2, rfl, h⟩
  | succ p ih =>
      have hlt : p < pat.length := hp
      obtain ⟨answer, hanswer, hself⟩ := strncmpEqual_inside p 0 (pat.length - p)
        (Nat.le_of_eq (Nat.add_sub_cancel' (Nat.le_of_lt hlt))) (by omega)
      have hmoves : Moves pat.length p (if answer then p + 1 else lastPrefix) := by
        cases answer with
        | true => exact ⟨Nat.succ_pos p, hp⟩
        | false =>
            refine ⟨hpos.resolve_right fun hone => ?_, hle⟩
            exact Bool.false_ne_true (hself (Nat.succ_inj.mp hone))
      have hholds : Holds pat (Moves pat.length) p
          (Function.update delta2 p (some (toInt
            ((if answer then p + 1 else lastPrefix) + (pat.length - 1 - p))))) := by
        intro j hj hpj
        by_cases hjp : j = p
        · subst hjp
          exact ⟨_, by rw [Function.update_self], hmoves⟩
        · rw [Function.update_of_ne hjp]
          exact h j hj (by omega)
      obtain ⟨table, htable, hall⟩ := ih _ (Nat.le_of_lt hlt) hmoves.2 (.inl hmoves.1) _ hholds
      refine ⟨table, ?_, hall⟩
      simp [delta2Prefix, hanswer, writeDelta2, hlt, htable]

theorem delta2Suffix_moves {pat : List Byte} (remaining p : Nat)
    (hp : p + remaining = pat.length - 1) (delta2 : Delta2)
    (h : Holds pat (Moves pat.length) 0 delta2) :
    ∃ table, delta2Suffix pat remaining p delta2 = some table ∧
      Holds pat (Moves pat.length) 0 table := by
  induction remaining generalizing p delta2 with
  | zero => exact ⟨delta2, rfl, h⟩
  | succ remaining ih =>
      obtain ⟨len, hlen, hsuffix⟩ := maxSuffixLen_spec (show p < pat.length by omega)
      have hle := hsuffix.le
      have hleft : p - len < pat.length := by omega
      have hright : pat.length - 1 - len < pat.length := by omega
      by_cases hdiff : pat[p - len] = pat[pat.length - 1 - len]
      · obtain ⟨table, htable, hall⟩ := ih (p + 1) (by omega) delta2 h
        refine ⟨table, ?_, hall⟩
        simp [delta2Suffix, hlen, List.getElem?_eq_getElem hleft,
          List.getElem?_eq_getElem hright, hdiff, htable]
      · have hholds : Holds pat (Moves pat.length) 0
            (Function.update delta2 (pat.length - 1 - len)
              (some (toInt (pat.length - 1 - p + len)))) := by
          intro j hj hzero
          by_cases hjlen : j = pat.length - 1 - len
          · refine ⟨pat.length - 1 - p, ?_, by omega, by omega⟩
            rw [hjlen, Function.update_self,
              show pat.length - 1 - (pat.length - 1 - len) = len by omega]
          · rw [Function.update_of_ne hjlen]
            exact h j hj hzero
        obtain ⟨table, htable, hall⟩ := ih (p + 1) (by omega) _ hholds
        refine ⟨table, ?_, hall⟩
        simp [delta2Suffix, hlen, List.getElem?_eq_getElem hleft, hdiff, writeDelta2, hright,
          htable]

/-- The second table of every pattern that is not empty, NULs in it or not. -/
theorem bmMakeDelta2_moves {pat : List Byte} (hpos : 0 < pat.length)
    (hlen : pat.length < 2 ^ 31) :
    ∃ delta2, bmMakeDelta2 pat = some delta2 ∧ Holds pat (Moves pat.length) 0 delta2 := by
  have hlast : lastIndex pat.length % 2 ^ 32 = pat.length - 1 := by
    rw [lastIndex_eq hpos, Nat.mod_eq_of_lt (by omega)]
  obtain ⟨first, hfirst, hprefix⟩ := delta2Prefix_moves pat.length (pat.length - 1)
    (Nat.le_refl _) (by omega) (by omega) (fun _ => none) (fun j hj hle => by omega)
  obtain ⟨table, htable, hholds⟩ := delta2Suffix_moves (pat.length - 1) 0 (by omega) first hprefix
  refine ⟨table, ?_, hholds⟩
  simp only [bmMakeDelta2, hlast, hfirst, htable, Option.bind_eq_bind, Option.bind_some]

/-! ## The search of any pattern -/

/-- A pattern that fits the range of `int`, or is longer than the text, is searched for
without leaving an array. -/
theorem bmSearch_isSome {text pat : List Byte} (hpos : 0 < pat.length)
    (hlen : pat.length < 2 ^ 31) (h : toInt text.length < pat.length ∨ Fits text pat) :
    (bmSearch text pat).isSome := by
  obtain ⟨delta1, hmake1, hdelta1⟩ := bmMakeDelta1_spec hpos hlen
  obtain ⟨delta2, hmake2, hdelta2⟩ := bmMakeDelta2_moves hpos hlen
  rw [bmSearch_eq hpos hlen hmake1 hmake2]
  rcases h with hlonger | hfits
  · have hout : ¬ (pat.length : Int) - 1 < toInt text.length := by omega
    rw [searchFrom, if_neg hout]
    rfl
  · obtain ⟨answer, hanswer, -⟩ := searchFrom_total hdelta1 hpos hdelta2
      (fun _ _ _ hmoves => hmoves) hfits (text.length + 1) 0 (Nat.zero_le _) (by omega)
    rw [show ((0 : Nat) : Int) + pat.length - 1 = pat.length - 1 by omega] at hanswer
    rw [hanswer]
    rfl

/-- The table of an empty pattern is filled from `pat_len - 1`, the largest `size_t`,
characters of it. -/
theorem bmSearch_nil (text : List Byte) : bmSearch text [] = none := by
  have hmake : bmMakeDelta1 [] = none := rfl
  rw [bmSearch, hmake]
  rfl

/-- For every pair of lengths, the pattern's an `int`: all searches of these lengths are safe
exactly if the pattern is not empty, and has one letter, is longer than the text (as the
`int` that the code makes of its length), or stays with it in the range of `int`. -/
theorem bm_search_safe_iff (textLen patLen : Nat) (hpat : (patLen : Int) ≤ intMax) :
    (∀ text pat : List Byte, text.length = textLen → pat.length = patLen →
      (bmSearch text pat).isSome) ↔
    0 < patLen ∧ (patLen = 1 ∨ toInt textLen < patLen ∨ toInt textLen + patLen ≤ 2 ^ 31) := by
  have hlen : patLen < 2 ^ 31 := by unfold intMax at hpat; omega
  constructor
  · intro hsafe
    have hpos : 0 < patLen := by
      apply Nat.pos_of_ne_zero
      rintro rfl
      have hnil := hsafe (List.replicate textLen 0) [] List.length_replicate rfl
      rw [bmSearch_nil] at hnil
      cases hnil
    refine ⟨hpos, ?_⟩
    by_contra hnot
    have hnul : ∀ c ∈ List.replicate patLen (97 : Byte), c ≠ 0 := fun c hc => by
      rw [List.eq_of_mem_replicate hc]
      decide
    have hlength : (List.replicate patLen (97 : Byte)).length = patLen := List.length_replicate
    obtain ⟨text, htext, hnone⟩ :=
      @exists_runaway _ textLen hnul (by omega) (by omega) (by omega) (by omega)
    have hsome := hsafe text _ htext hlength
    rw [hnone] at hsome
    cases hsome
  · rintro ⟨hpos, hrange⟩ text pat rfl rfl
    apply bmSearch_isSome hpos hlen
    unfold Fits
    omega

/-- A text of 500 KiB and a pattern of 24 letters, the lengths of the only caller. -/
theorem bm_search_safe_iff_tz :
    (∀ text pat : List Byte, text.length = 512000 → pat.length = 24 →
      (bmSearch text pat).isSome) ↔
    0 < 24 ∧ (24 = 1 ∨ toInt 512000 < (24 : Nat) ∨ toInt 512000 + (24 : Nat) ≤ 2 ^ 31) :=
  bm_search_safe_iff 512000 24 (by decide)

theorem empty_pattern_unsafe : ¬ ∀ text pat : List Byte, (bmSearch text pat).isSome := by
  intro hall
  have hsome := hall [65] []
  rw [bmSearch_nil] at hsome
  cases hsome

end Msm8916.Recovery
