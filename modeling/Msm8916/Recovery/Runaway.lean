import Msm8916.Recovery.Search

/-!
Texts that a search leaves the range of `int` in. A letter that the pattern does not have
moves the index by the length of the pattern. For every pattern and every index there is a
text that leads the search to it: the letter before the run at the pattern's end moves an
alignment by what is left of the run.
-/

namespace Msm8916.Recovery

open Word

/-- A letter that the pattern does not have keeps the length of the pattern. -/
theorem delta1From_of_not_mem {pat : List Byte} {c : Byte} (hc : c ∉ pat) {remaining i : Nat}
    {delta1 table : Byte → Int} (h : delta1From pat remaining i delta1 = some table) :
    table c = delta1 c := by
  induction remaining generalizing i delta1 with
  | zero =>
      obtain rfl := Option.some.inj h
      rfl
  | succ remaining ih =>
      obtain ⟨idx, hidx, hrest⟩ := Option.bind_eq_some_iff.mp h
      have hne : c ≠ idx := by
        rintro rfl
        exact hc (List.mem_of_getElem? hidx)
      rw [ih hrest, Function.update_of_ne hne]

/-- A mismatch in the run at the end of the pattern moves the alignment by the part of the
run that was not matched. -/
theorem StoredShift.eq_of_run {pat : List Byte} {letter : Byte} {run t shift : Nat}
    (h : EndsInRun pat letter run) (ht : t < run)
    (hshift : StoredShift pat (pat.length - 1 - t) shift) : shift = run - t := by
  have hle := h.le
  rcases Nat.lt_or_ge run pat.length with hlt | hge
  · have hre := h.reoccurs hlt ht
    rcases hshift with ⟨hreoccurs, hleast⟩ | ⟨hnone, -⟩
    · exact Nat.le_antisymm (hleast _ hre) (h.le_of_reoccurs ht hreoccurs).1
    · exact absurd hre (hnone _)
  · obtain rfl : run = pat.length := Nat.le_antisymm hle hge
    have hperiod := h.period (pat.length - 1 - t)
    rcases hshift with ⟨hreoccurs, -⟩ | ⟨-, ⟨q, ⟨hq, -, -, hleast⟩, rfl⟩ | ⟨hnone, -⟩⟩
    · exact absurd (h.le_of_reoccurs ht hreoccurs).2 (Nat.lt_irrefl _)
    · have heq : q = pat.length - 1 - t := by
        by_contra hne
        exact hleast (pat.length - 1 - t) (by omega) le_rfl hperiod
      omega
    · exact absurd hperiod (hnone _ (by omega) le_rfl)

/-- What the tables of a pattern hold for the run at its end, for a NUL and for the letter
`other` before the run. -/
structure RunTables (pat : List Byte) (letter other : Byte) (run : Nat) (delta1 : Byte → Int)
    (delta2 : Delta2) : Prop where
  endsInRun : EndsInRun pat letter run
  letter_ne : letter ≠ other
  letter_ne_nul : letter ≠ 0
  delta1_nul : delta1 0 = pat.length
  delta1_other : delta1 other ≤ run
  delta2_run : ∀ t < run, delta2 (pat.length - 1 - t) = some (run : Int)

theorem exists_runTables {pat : List Byte} (hnul : ∀ c ∈ pat, c ≠ 0) (hpos : 0 < pat.length)
    (hlen : pat.length < 2 ^ 31) {delta1 : Byte → Int} {delta2 : Delta2}
    (hmake1 : bmMakeDelta1 pat = some delta1)
    (hdelta1 : Delta1Spec pat (pat.length - 1) delta1)
    (hdelta2 : Holds pat (StoredShift pat) 0 delta2) :
    ∃ letter other run, RunTables pat letter other run delta1 delta2 := by
  obtain ⟨letter, run, hrun⟩ := exists_endsInRun hpos
  have hrunPos := hrun.pos
  have hle := hrun.le
  have hletter : letter ≠ 0 := by
    apply hnul
    exact List.mem_of_getElem? (hrun.letters (pat.length - 1) (by omega) (by omega))
  have hzero : delta1 0 = pat.length := by
    rw [delta1From_of_not_mem (fun hmem => hnul 0 hmem rfl) hmake1, toInt_eq hlen]
  have hentries : ∀ t < run, delta2 (pat.length - 1 - t) = some (run : Int) := by
    intro t ht
    obtain ⟨shift, hentry, hshift⟩ :=
      hdelta2 (pat.length - 1 - t) (by omega) (Nat.zero_le _)
    rw [hentry, hshift.eq_of_run hrun ht, toInt_eq (by omega)]
    congr 1
    omega
  rcases Nat.lt_or_ge run pat.length with hlt | hge
  · obtain ⟨other, hother, hbefore⟩ := hrun.maximal.resolve_left (Nat.ne_of_lt hlt)
    refine ⟨letter, other, run, hrun, hother.symm, hletter, hzero, ?_, hentries⟩
    have hbound := hdelta1.le_of_letter other (pat.length - 1 - run) (by omega) hbefore
    omega
  · refine ⟨letter, 0, run, hrun, hletter, hletter, hzero, ?_, hentries⟩
    rw [hzero]
    exact Int.ofNat_le.mpr hge

/-! ## The text -/

/-- The letter of the run, but `other` in each `run`-th place back from the last index that
the search looks at, and there a NUL. -/
def runawayText (letter other : Byte) (run limit textLen : Nat) : List Byte :=
  (List.range textLen).map fun k =>
    if k + 1 = limit then 0 else if (limit - 1 - k) % run = 0 then other else letter

theorem length_runawayText (letter other : Byte) (run limit textLen : Nat) :
    (runawayText letter other run limit textLen).length = textLen := by
  simp [runawayText]

theorem getElem?_runawayText (letter other : Byte) (run limit : Nat) {textLen k : Nat}
    (hk : k < textLen) :
    (runawayText letter other run limit textLen)[k]? =
      some (if k + 1 = limit then 0
        else if (limit - 1 - k) % run = 0 then other else letter) := by
  simp [runawayText, hk]

/-- The next multiple of `run` from `distance` on. -/
theorem exists_next_multiple (distance : Nat) {run : Nat} (hrun : 0 < run) :
    ∃ t < run, (distance + t) % run = 0 ∧ ∀ s < t, (distance + s) % run ≠ 0 := by
  have hmod := Nat.mod_lt distance hrun
  rcases Nat.eq_zero_or_pos (distance % run) with hzero | hpos
  · exact ⟨0, hrun, hzero, fun s hs => absurd hs (Nat.not_lt_zero s)⟩
  · refine ⟨run - distance % run, by omega, ?_, fun s hs => ?_⟩
    · rw [Nat.add_mod, Nat.mod_eq_of_lt (show run - distance % run < run by omega),
        Nat.add_sub_cancel' (Nat.le_of_lt hmod), Nat.mod_self]
    · rw [Nat.add_mod, Nat.mod_eq_of_lt (show s < run by omega),
        Nat.mod_eq_of_lt (by omega)]
      omega

section Runaway

variable {pat : List Byte} {letter other : Byte} {run limit textLen : Nat}
variable {delta1 : Byte → Int} {delta2 : Delta2}

/-- At every alignment the first difference is in the run: before the last index it is the
letter `other`. -/
theorem runawayText_mismatchAt (h : RunTables pat letter other run delta1 delta2)
    (hle : limit ≤ textLen) {a t : Nat} (hfit : a + pat.length ≤ limit) (ht : t < run)
    (hmultiple : (limit - pat.length - a + t) % run = 0)
    (hleast : ∀ s < t, (limit - pat.length - a + s) % run ≠ 0) :
    MismatchAt (runawayText letter other run limit textLen) pat a (pat.length - 1 - t) := by
  have hrun := h.endsInRun.le
  have hdistance : ∀ s < run, limit - 1 - (a + (pat.length - 1 - s)) =
      limit - pat.length - a + s := fun s hs => by omega
  refine ⟨by omega, fun k hk hlow => ?_, ?_⟩
  · obtain ⟨s, hs, rfl⟩ : ∃ s < t, k = pat.length - 1 - s := ⟨pat.length - 1 - k, by omega⟩
    have hnot := hleast s hs
    have hbefore : a + (pat.length - 1 - s) + 1 ≠ limit := by
      intro heq
      -- the last index is a multiple of `run` away from itself
      have hzero : limit - pat.length - a + s = 0 := by omega
      exact hnot (by rw [hzero, Nat.zero_mod])
    rw [getElem?_runawayText _ _ _ _ (by omega), if_neg hbefore, hdistance s (by omega),
      if_neg hnot, h.endsInRun.letters _ hk (by omega)]
  · rw [getElem?_runawayText _ _ _ _ (by omega), hdistance t ht, if_pos hmultiple,
      h.endsInRun.letters _ (by omega) (by omega)]
    split
    · exact fun heq => h.letter_ne_nul (Option.some.inj heq).symm
    · exact fun heq => h.letter_ne (Option.some.inj heq).symm

/-- The alignments move up to the last index, and there the NUL moves the index out of the
range of `int`. -/
theorem searchFrom_runaway (h : RunTables pat letter other run delta1 delta2)
    (hlimit : toInt textLen = limit) (hover : 2 ^ 31 < limit + pat.length) (fuel a : Nat)
    (hfit : a + pat.length ≤ limit) :
    searchFrom (runawayText letter other run limit textLen) pat delta1 delta2 fuel
      (a + pat.length - 1) = none := by
  have hlength := length_runawayText letter other run limit textLen
  have hle : limit ≤ textLen := Int.ofNat_le.mp (hlimit ▸ toInt_le textLen)
  have hmax : (limit : Int) < 2 ^ 31 :=
    hlimit ▸ Int.bmod_lt (x := (textLen : Int)) (m := 2 ^ 32) (by decide)
  have hrun := h.endsInRun.le
  induction fuel generalizing a with
  | zero => rfl
  | succ fuel ih =>
      obtain ⟨t, ht, hmultiple, hleast⟩ :=
        exists_next_multiple (limit - pat.length - a) h.endsInRun.pos
      have hmis := runawayText_mismatchAt h hle hfit ht hmultiple hleast
      have hback : matchBack (runawayText letter other run limit textLen) pat pat.length
          (a + pat.length - 1) =
            some (((a + (pat.length - 1 - t) : Nat) : Int),
              ((pat.length - 1 - t : Nat) : Int)) := by
        have hinside : a + pat.length ≤ (runawayText letter other run limit textLen).length := by
          omega
        rcases matchBack_spec hinside pat.length le_rfl (fun k hk hge => by omega) with
          ⟨hocc, -⟩ | ⟨j, hj, hmatch⟩
        · exact absurd hocc hmis.not_occursAt
        · rw [hmatch, hmis.unique hj]
      have hread := getElem?_runawayText letter other run limit
        (show a + (pat.length - 1 - t) < textLen by omega)
      have hnonneg : ¬ ((pat.length - 1 - t : Nat) : Int) < 0 := by omega
      rw [searchFrom, hlength, hlimit, if_pos (by omega), hback]
      simp only [Option.bind_eq_bind, Option.bind_some, hnonneg, if_false, readAt_natCast, hread,
        Int.toNat_natCast, h.delta2_run t ht]
      by_cases hlast : a + (pat.length - 1 - t) + 1 = limit
      · have hnone : addInt ((a + (pat.length - 1 - t) : Nat) : Int)
            (max (pat.length : Int) run) = none := by
          unfold addInt intMax
          exact if_neg (by omega)
        rw [if_pos hlast, h.delta1_nul, hnone]
        rfl
      · have hpos : 0 < limit - pat.length - a + t := by omega
        have hge : run ≤ limit - pat.length - a + t :=
          Nat.le_of_dvd hpos (Nat.dvd_of_mod_eq_zero hmultiple)
        have hadd : addInt ((a + (pat.length - 1 - t) : Nat) : Int) (max (delta1 other) run) =
            some (((a + (run - t) : Nat) : Int) + pat.length - 1) := by
          have hother := h.delta1_other
          have hshift : max (delta1 other) (run : Int) = run := by omega
          have hindex : ((a + (pat.length - 1 - t) : Nat) : Int) + run =
              ((a + (run - t) : Nat) : Int) + pat.length - 1 := by omega
          unfold addInt intMax
          rw [hshift, hindex, if_pos (by omega)]
        have hdistance : limit - 1 - (a + (pat.length - 1 - t)) = limit - pat.length - a + t := by
          omega
        rw [if_neg hlast, hdistance, if_pos hmultiple, hadd]
        exact ih (a + (run - t)) (by omega)

end Runaway

/-- Where the range of `int` ends before the sum of the lengths does, every pattern has a
text in which the search leaves it. -/
theorem exists_runaway {pat : List Byte} {textLen : Nat} (hnul : ∀ c ∈ pat, c ≠ 0)
    (hpos : 0 < pat.length) (hlen : pat.length < 2 ^ 31)
    (hfit : (pat.length : Int) ≤ toInt textLen) (hover : 2 ^ 31 < toInt textLen + pat.length) :
    ∃ text : List Byte, text.length = textLen ∧ bmSearch text pat = none := by
  obtain ⟨limit, hlimit⟩ : ∃ limit : Nat, toInt textLen = limit :=
    ⟨(toInt textLen).toNat, by omega⟩
  obtain ⟨delta1, hmake1, hdelta1⟩ := bmMakeDelta1_spec hpos hlen
  obtain ⟨delta2, hmake2, hdelta2⟩ := bmMakeDelta2_spec hnul hpos hlen
  obtain ⟨letter, other, run, htables⟩ :=
    exists_runTables hnul hpos hlen hmake1 hdelta1 hdelta2
  refine ⟨runawayText letter other run limit textLen, length_runawayText _ _ _ _ _, ?_⟩
  rw [bmSearch_eq hpos hlen hmake1 hmake2]
  have hrun := searchFrom_runaway htables hlimit (by omega)
    ((runawayText letter other run limit textLen).length + 1) 0 (by omega)
  rwa [show ((0 : Nat) : Int) + pat.length - 1 = pat.length - 1 by omega] at hrun

end Msm8916.Recovery
