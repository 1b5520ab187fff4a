import Msm8916.Recovery.Tables

/-!
What `bm_search` finds. An occurrence can be lost in one way only: at a
mismatch whose matched suffix does not recur, `delta2` moves one place beyond
the shortest period of the pattern to the right of the mismatch.
-/

namespace Msm8916.Recovery

open Word

/-- The search has a value and it is the first occurrence, if there is one. -/
def Correct (text pat : List Byte) : Prop :=
  ∃ answer : Option Nat, bmSearch text pat = some (answer.map Int.ofNat) ∧
    Finds text pat answer

/-- A mismatch at `j` moves the alignment past an occurrence `q` places to the
right: the suffix behind `j` does not recur after another letter, the pattern's
own suffix at `j` is not a prefix of it, and its next one that is starts at `q`. -/
def Overshoots (pat : List Byte) (j q : Nat) : Prop :=
  j < q ∧ LeastPeriod pat j q ∧ ∀ d ≤ j, ¬ Reoccurs pat j d

/-- Some mismatch position of the pattern overshoots within the text length. -/
def OvershootsWithin (pat : List Byte) (textLen : Nat) : Prop :=
  ∃ j < pat.length, ∃ q < pat.length, Overshoots pat j q ∧ q + pat.length ≤ textLen

instance (pat : List Byte) (j q : Nat) : Decidable (LeastPeriod pat j q) :=
  inferInstanceAs (Decidable (j ≤ q ∧ q < pat.length ∧ Period pat q ∧
    ∀ q' < q, j ≤ q' → ¬ Period pat q'))

instance (pat : List Byte) (j q : Nat) : Decidable (Overshoots pat j q) :=
  inferInstanceAs (Decidable (j < q ∧ LeastPeriod pat j q ∧ ∀ d ≤ j, ¬ Reoccurs pat j d))

instance (pat : List Byte) (textLen : Nat) : Decidable (OvershootsWithin pat textLen) :=
  inferInstanceAs (Decidable (∃ j < pat.length, ∃ q < pat.length,
    Overshoots pat j q ∧ q + pat.length ≤ textLen))

/-! ## one alignment -/

theorem readAt_natCast (text : List Byte) (k : Nat) : readAt text k = text[k]? := by
  simp [readAt]

/-- The inner loop runs from the end of the pattern to the first mismatch, or
through the whole pattern. -/
theorem matchBack_spec {text pat : List Byte} {a : Nat}
    (hfit : a + pat.length ≤ text.length) (j : Nat) (hj : j ≤ pat.length)
    (hsuffix : ∀ k < pat.length, j ≤ k → text[a + k]? = pat[k]?) :
    (OccursAt text pat a ∧
        matchBack text pat j (a + j - 1) = some ((a : Int) - 1, -1)) ∨
      ∃ j', MismatchAt text pat a j' ∧
        matchBack text pat j (a + j - 1) = some (((a + j' : Nat) : Int), (j' : Int)) := by
  induction j with
  | zero => exact Or.inl ⟨fun t ht => hsuffix t ht (Nat.zero_le t), by simp [matchBack]⟩
  | succ j ih =>
      have hpat : j < pat.length := by omega
      have htext : a + j < text.length := by omega
      have hindex : (a : Int) + (j + 1 : Nat) - 1 = (a + j : Nat) := by omega
      rw [hindex]
      simp only [matchBack, readAt_natCast, List.getElem?_eq_getElem hpat,
        List.getElem?_eq_getElem htext, Option.bind_eq_bind, Option.bind_some]
      by_cases heq : text[a + j] = pat[j]
      · rw [if_pos heq, show ((a + j : Nat) : Int) - 1 = a + j - 1 by omega]
        refine ih (by omega) fun k hk hjk => ?_
        by_cases hkj : k = j
        · subst hkj
          rw [List.getElem?_eq_getElem hpat, List.getElem?_eq_getElem htext, heq]
        · exact hsuffix k hk (by omega)
      · rw [if_neg heq]
        refine Or.inr ⟨j, ⟨hpat, fun k hk hjk => hsuffix k hk (by omega), ?_⟩, rfl⟩
        simpa [List.getElem?_eq_getElem hpat, List.getElem?_eq_getElem htext] using heq

/-- An occurrence inside the stored shift is one the pattern overshoots. -/
theorem overshoots_of_occursAt {text pat : List Byte} {a j shift e : Nat}
    (h : MismatchAt text pat a j) (hshift : StoredShift pat j shift) (he : e < shift)
    (hocc : OccursAt text pat (a + e)) : Overshoots pat j e := by
  have hpos : 0 < e := by
    apply Nat.pos_of_ne_zero
    rintro rfl
    exact h.not_occursAt hocc
  have hlt := (hshift.bounds h.lt).2
  by_cases hej : e ≤ j
  · have hre := h.reoccurs_of_occursAt hpos hej hocc
    rcases hshift with ⟨_, hleast⟩ | ⟨hnone, _⟩
    · exact absurd (hleast e hre) (by omega)
    · exact absurd hre (hnone e)
  · have hper := h.period_of_occursAt (by omega) hocc
    rcases hshift with ⟨hre, _⟩ | ⟨hnone, ⟨q, hq, rfl⟩ | ⟨hnoPeriod, rfl⟩⟩
    · exact absurd hre.2.1 (by omega)
    · have hqe : q = e := by
        by_contra hne
        exact hq.2.2.2 e (by omega) (by omega) hper |>.elim
      subst hqe
      exact ⟨by omega, hq, fun d _ => hnone d⟩
    · exact absurd hper (hnoPeriod e (by omega) (by omega))

/-- Conversely, the stored shift passes the place where a pattern overshoots. -/
theorem Overshoots.lt_shift {pat : List Byte} {j q shift : Nat} (h : Overshoots pat j q)
    (hshift : StoredShift pat j shift) : q < shift := by
  obtain ⟨hjq, ⟨hle, hlt, hper, hleast⟩, hnone⟩ := h
  rcases hshift with ⟨hre, _⟩ | ⟨_, ⟨q', hq', rfl⟩ | ⟨hnoPeriod, rfl⟩⟩
  · exact absurd hre (hnone shift hre.2.1)
  · by_contra hge
    exact hleast q' (by omega) hq'.1 hq'.2.2.1
  · exact absurd hper (hnoPeriod q hlt hle)

/-- An occurrence that the bad-character shift would pass does not exist. -/
theorem le_of_occursAt {text pat : List Byte} {delta1 : Byte → Int} {a j e : Nat}
    (h : MismatchAt text pat a j) (hdelta1 : Delta1Spec pat (pat.length - 1) delta1)
    {c : Byte} (hc : text[a + j]? = some c) (hpos : 0 < e)
    (hocc : OccursAt text pat (a + e)) :
    delta1 c ≤ e + (pat.length - 1 - j : Nat) := by
  have hlt := h.lt
  by_cases hej : e ≤ j
  · have hletter := h.letter_of_occursAt hej hocc
    rw [hc] at hletter
    have hle := hdelta1.le_of_letter c (j - e) (by omega) hletter
    omega
  · have hle := hdelta1.le_length c
    omega

/-- The indices of the search stay in the range of `int`. -/
def Fits (text pat : List Byte) : Prop :=
  pat.length = 1 ∨ toInt text.length + pat.length ≤ 2 ^ 31

theorem fits_of_le {text pat : List Byte} (h : text.length + pat.length ≤ 2 ^ 31) :
    Fits text pat := by
  have htoInt := toInt_le text.length
  exact .inr (by omega)

/-- One turn of the outer loop: the alignment is an occurrence, or it moves
right by at least the stored shift and past nothing but what that shift passes. -/
theorem searchFrom_step {text pat : List Byte} {delta1 : Byte → Int} {delta2 : Delta2}
    {P : Nat → Nat → Prop} (hdelta1 : Delta1Spec pat (pat.length - 1) delta1)
    (hdelta2 : Holds pat P 0 delta2)
    (hmoves : ∀ j < pat.length, ∀ shift, P j shift → 0 < shift ∧ shift ≤ pat.length)
    (hint : Fits text pat) {a : Nat} (hpos : 0 < pat.length)
    (hfit : (a : Int) + pat.length ≤ toInt text.length) (fuel : Nat) :
    (OccursAt text pat a ∧
        searchFrom text pat delta1 delta2 (fuel + 1) (a + pat.length - 1) =
          some (some (a : Int))) ∨
      ∃ j shift a', MismatchAt text pat a j ∧ P j shift ∧
        a + shift ≤ a' ∧ a' ≤ a + pat.length ∧
        (∀ e, a + e < a' → OccursAt text pat (a + e) → e < shift) ∧
        searchFrom text pat delta1 delta2 (fuel + 1) (a + pat.length - 1) =
          searchFrom text pat delta1 delta2 fuel (a' + pat.length - 1) := by
  have hin : (a : Int) + pat.length - 1 < toInt text.length := by omega
  have htoInt := toInt_le text.length
  have hmax : toInt text.length < 2 ^ 31 :=
    Int.bmod_lt (x := (text.length : Int)) (m := 2 ^ 32) (by decide)
  unfold Fits at hint
  simp only [searchFrom, if_pos hin]
  have htextFit : a + pat.length ≤ text.length := by omega
  rcases matchBack_spec htextFit pat.length (Nat.le_refl _) (fun k hk hle => by omega) with
    ⟨hocc, hmatch⟩ | ⟨j, hmis, hmatch⟩
  · exact Or.inl ⟨hocc, by simp [hmatch]⟩
  · right
    have hj := hmis.lt
    have htext : a + j < text.length := by omega
    obtain ⟨shift, hentry, hshift⟩ := hdelta2 j hj (Nat.zero_le j)
    have hbounds := hmoves j hj shift hshift
    rw [toInt_eq (by omega)] at hentry
    have hle := hdelta1.le_length text[a + j]
    -- the new index of the pattern's last letter, as the code computes it
    obtain ⟨a', ha'⟩ : ∃ a' : Nat, (a' : Int) = a + max (shift : Int)
        (delta1 text[a + j] - (pat.length - 1 - j : Nat)) := by
      refine ⟨(a + max (shift : Int) (delta1 text[a + j] - (pat.length - 1 - j : Nat))).toNat, ?_⟩
      omega
    refine ⟨j, shift, a', hmis, hshift, by omega, by omega, fun e he hocc => ?_, ?_⟩
    · by_contra hge
      have hd1 := le_of_occursAt hmis hdelta1 (List.getElem?_eq_getElem htext)
        (by omega : 0 < e) hocc
      omega
    · have hadd : addInt ((a + j : Nat) : Int)
          (max (delta1 text[a + j]) ((shift + (pat.length - 1 - j) : Nat) : Int)) =
            some ((a' : Int) + pat.length - 1) := by
        unfold addInt intMax
        rw [if_pos (by omega)]
        congr 1
        omega
      have hnonneg : ¬ (j : Int) < 0 := by omega
      simp only [hmatch, Option.bind_eq_bind, Option.bind_some, hnonneg, if_false,
        readAt_natCast, List.getElem?_eq_getElem htext, Int.toNat_natCast, hentry, hadd]

/-! ## whole searches -/

section Tables

variable {text pat : List Byte} {delta1 : Byte → Int} {delta2 : Delta2}
variable (hdelta1 : Delta1Spec pat (pat.length - 1) delta1) (hpos : 0 < pat.length)
include hdelta1 hpos

/-- The search always has a value, and never one left of where it started. -/
theorem searchFrom_total {P : Nat → Nat → Prop} (hdelta2 : Holds pat P 0 delta2)
    (hmoves : ∀ j < pat.length, ∀ shift, P j shift → 0 < shift ∧ shift ≤ pat.length)
    (hint : Fits text pat) (fuel a : Nat) (ha : a ≤ text.length)
    (hfuel : text.length + 1 ≤ a + fuel) :
    ∃ answer : Option Nat,
      searchFrom text pat delta1 delta2 fuel (a + pat.length - 1) =
        some (answer.map Int.ofNat) ∧ ∀ k ∈ answer, a ≤ k ∧ OccursAt text pat k := by
  induction fuel generalizing a with
  | zero => omega
  | succ fuel ih =>
      by_cases hfit : (a : Int) + pat.length ≤ toInt text.length
      · rcases searchFrom_step hdelta1 hdelta2 hmoves hint hpos hfit fuel with
          ⟨hocc, hfound⟩ | ⟨j, shift, a', hmis, hshift, hlow, hhigh, _, hnext⟩
        · exact ⟨some a, hfound, fun k hk => by
            obtain rfl : a = k := Option.some.inj hk
            exact ⟨Nat.le_refl a, hocc⟩⟩
        · have hbounds := hmoves j hmis.lt shift hshift
          have htoInt := toInt_le text.length
          obtain ⟨answer, hanswer, hle⟩ := ih a' (by omega) (by omega)
          refine ⟨answer, hnext.trans hanswer, fun k hk => ⟨?_, (hle k hk).2⟩⟩
          have := (hle k hk).1
          omega
      · refine ⟨none, ?_, by simp⟩
        have hout : ¬ (a : Int) + pat.length - 1 < toInt text.length := by omega
        simp [searchFrom, hout]

variable (hdelta2 : Holds pat (StoredShift pat) 0 delta2)
variable (hint : text.length + pat.length ≤ 2 ^ 31)
include hdelta2 hint

/-- Where no position of the pattern overshoots, nothing is lost: each turn of
the loop keeps every occurrence at or right of the alignment. -/
theorem searchFrom_finds (hsafe : ¬ OvershootsWithin pat text.length) (fuel a : Nat)
    (ha : a ≤ text.length) (hfuel : text.length + 1 ≤ a + fuel)
    (hbefore : ∀ k < a, ¬ OccursAt text pat k) :
    ∃ answer : Option Nat,
      searchFrom text pat delta1 delta2 fuel (a + pat.length - 1) =
        some (answer.map Int.ofNat) ∧ Finds text pat answer := by
  induction fuel generalizing a with
  | zero => omega
  | succ fuel ih =>
      have htoInt := toInt_eq (show text.length < 2 ^ 31 by omega)
      by_cases hfit : a + pat.length ≤ text.length
      · have hlimit : (a : Int) + pat.length ≤ toInt text.length := by omega
        rcases searchFrom_step hdelta1 hdelta2 (fun j hj _ h => StoredShift.bounds hj h)
            (fits_of_le hint) hpos hlimit fuel with
          ⟨hocc, hfound⟩ | ⟨j, shift, a', hmis, hshift, hlow, hhigh, hkept, hnext⟩
        · exact ⟨some a, hfound, hocc, hbefore⟩
        · have hbounds := hshift.bounds hmis.lt
          have hnone : ∀ k < a', ¬ OccursAt text pat k := by
            intro k hk hocc
            by_cases hka : k < a
            · exact hbefore k hka hocc
            · obtain ⟨e, rfl⟩ := Nat.exists_eq_add_of_le (Nat.le_of_not_lt hka)
              have hover := overshoots_of_occursAt hmis hshift (hkept e hk hocc) hocc
              have hfits := hocc.add_length_le hpos
              exact hsafe ⟨j, hmis.lt, e, hover.2.1.2.1, hover, by omega⟩
          obtain ⟨answer, hanswer, hfinds⟩ := ih a' (by omega) (by omega) hnone
          exact ⟨answer, hnext.trans hanswer, hfinds⟩
      · refine ⟨none, ?_, fun k hocc => ?_⟩
        · have hout : ¬ (a : Int) + pat.length - 1 < toInt text.length := by omega
          simp [searchFrom, hout]
        · have hfits := hocc.add_length_le hpos
          exact hbefore k (by omega) hocc

/-- A mismatch at the first alignment that overshoots an occurrence loses it. -/
theorem searchFrom_misses {j q : Nat} (hmis : MismatchAt text pat 0 j)
    (hover : Overshoots pat j q) (hocc : OccursAt text pat q)
    (fuel : Nat) (hfuel : text.length + 1 ≤ fuel) (answer : Option Nat)
    (hanswer : searchFrom text pat delta1 delta2 fuel (pat.length - 1) =
      some (answer.map Int.ofNat)) : ¬ Finds text pat answer := by
  have hfits := hocc.add_length_le hpos
  obtain ⟨fuel, rfl⟩ : ∃ n, fuel = n + 1 := ⟨fuel - 1, by omega⟩
  have htoInt := toInt_eq (show text.length < 2 ^ 31 by omega)
  have hlimit : ((0 : Nat) : Int) + pat.length ≤ toInt text.length := by omega
  rcases searchFrom_step hdelta1 hdelta2 (fun j hj _ h => StoredShift.bounds hj h)
    (fits_of_le hint) hpos hlimit fuel with
    ⟨hocc0, _⟩ | ⟨j', shift, a', hmis', hshift, hlow, hhigh, _, hnext⟩
  · exact absurd hocc0 hmis.not_occursAt
  · obtain rfl := hmis.unique hmis'
    have hbounds := hshift.bounds hmis.lt
    have hq := hover.lt_shift hshift
    obtain ⟨answer', hanswer', hle⟩ := searchFrom_total hdelta1 hpos hdelta2
      (fun j hj _ h => StoredShift.bounds hj h) (fits_of_le hint) fuel a' (by omega) (by omega)
    rw [show ((0 : Nat) : Int) + pat.length - 1 = pat.length - 1 by omega] at hnext
    rw [hnext, hanswer'] at hanswer
    have heq : answer' = answer :=
      Option.map_injective (fun _ _ => Int.ofNat.inj) (Option.some.inj hanswer)
    subst heq
    intro hfinds
    cases answer' with
    | none => exact hfinds q hocc
    | some k =>
        have hk := (hle k rfl).1
        exact hfinds.2 q (by omega) hocc

end Tables

/-! ## which patterns are searched correctly -/

/-- A text in which a pattern that overshoots at `j` is lost at offset `q`:
the pattern stands at `q`, and what precedes it continues the suffix behind
`j` to the left, with a NUL where the pattern has its letter `j`. -/
def missedText (pat : List Byte) (j q textLen : Nat) : List Byte :=
  (List.range textLen).map fun k =>
    if k ≤ j then 0 else if k < q then pat.getD k 0 else pat.getD (k - q) 0

theorem missedText_length (pat : List Byte) (j q textLen : Nat) :
    (missedText pat j q textLen).length = textLen := by
  simp [missedText]

theorem missedText_getElem? {pat : List Byte} {j q textLen k : Nat} (h : k < textLen) :
    (missedText pat j q textLen)[k]? =
      some (if k ≤ j then 0 else if k < q then pat.getD k 0 else pat.getD (k - q) 0) := by
  simp [missedText, h]

theorem missedText_occursAt {pat : List Byte} {j q textLen : Nat} (hjq : j < q)
    (hfit : q + pat.length ≤ textLen) :
    OccursAt (missedText pat j q textLen) pat q := by
  intro t ht
  rw [missedText_getElem? (by omega), if_neg (by omega), if_neg (by omega),
    Nat.add_sub_cancel_left, List.getD_eq_getElem?_getD, List.getElem?_eq_getElem ht,
    Option.getD_some]

theorem missedText_mismatchAt {pat : List Byte} (hnul : ∀ c ∈ pat, c ≠ 0)
    {j q textLen : Nat} (h : Overshoots pat j q) (hfit : q + pat.length ≤ textLen) :
    MismatchAt (missedText pat j q textLen) pat 0 j := by
  obtain ⟨hjq, ⟨_, hlt, hper, _⟩, _⟩ := h
  have hj : j < pat.length := by omega
  refine ⟨hj, fun k hk hjk => ?_, ?_⟩
  · rw [Nat.zero_add, missedText_getElem? (by omega), if_neg (by omega)]
    by_cases hkq : k < q
    · rw [if_pos hkq, List.getD_eq_getElem?_getD, List.getElem?_eq_getElem hk,
        Option.getD_some]
    · have hshifted := hper (k - q) (by omega)
      rw [show k - q + q = k by omega, List.getElem?_eq_getElem hk] at hshifted
      rw [if_neg hkq, List.getD_eq_getElem?_getD, hshifted, List.getElem?_eq_getElem hk,
        Option.getD_some]
  · rw [Nat.zero_add, missedText_getElem? (by omega), if_pos (Nat.le_refl j),
      List.getElem?_eq_getElem hj]
    intro heq
    exact hnul _ (List.getElem_mem hj) (Option.some.inj heq).symm

theorem bmSearch_eq {pat : List Byte} (hpos : 0 < pat.length) (hlen : pat.length < 2 ^ 31)
    {delta1 : Byte → Int} {delta2 : Delta2} (hmake1 : bmMakeDelta1 pat = some delta1)
    (hmake2 : bmMakeDelta2 pat = some delta2) (text : List Byte) :
    bmSearch text pat =
      searchFrom text pat delta1 delta2 (text.length + 1) (pat.length - 1) := by
  have hstart : toInt (pat.length - 1) = (pat.length : Int) - 1 := by
    rw [toInt_eq (by omega)]
    omega
  have hmade : bmSearch text pat =
      if pat.length = 0 then some (some 0)
      else searchFrom text pat delta1 delta2 (text.length + 1) (toInt (pat.length - 1)) := by
    unfold bmSearch
    rw [hmake1, hmake2]
    rfl
  rw [hmade, if_neg (Nat.ne_of_gt hpos), hstart]

/-- A pattern that overshoots nowhere within the text is found. -/
theorem correct_of_not_overshoots {text pat : List Byte} (hpos : 0 < pat.length)
    (hnul : ∀ c ∈ pat, c ≠ 0) (hlen : pat.length < 2 ^ 31)
    (hint : text.length + pat.length ≤ 2 ^ 31) (hsafe : ¬ OvershootsWithin pat text.length) :
    Correct text pat := by
  obtain ⟨delta1, hmake1, hdelta1⟩ := bmMakeDelta1_spec hpos hlen
  obtain ⟨delta2, hmake2, hdelta2⟩ := bmMakeDelta2_spec hnul hpos hlen
  obtain ⟨answer, hanswer, hfinds⟩ := searchFrom_finds hdelta1 hpos hdelta2 hint hsafe
    (text.length + 1) 0 (by omega) (by omega) (by omega)
  rw [show ((0 : Nat) : Int) + pat.length - 1 = pat.length - 1 by omega] at hanswer
  exact ⟨answer, (bmSearch_eq hpos hlen hmake1 hmake2 text).trans hanswer, hfinds⟩

end Msm8916.Recovery
