import Msm8916.Recovery.BoyerMoore
import Msm8916.Lib.Word

/-!
What the two shift tables hold. `delta1` is the usual bad-character rule. An
entry of `delta2` is a shift of the alignment plus the distance to the end of
the pattern; the shift is that of the nearest recurrence of the matched suffix,
and where there is none it is one more than the shortest period of the pattern
that is at least the mismatch position.
-/

namespace Msm8916.Recovery

open Word

theorem toInt_eq {value : Nat} (h : value < 2 ^ 31) : toInt value = value := by
  unfold toInt
  rw [Int.bmod_eq_of_le] <;> omega

/-- The conversion never makes a length larger. -/
theorem toInt_le (value : Nat) : toInt value ≤ value := by
  unfold toInt
  rcases Nat.lt_or_ge value (2 ^ 31) with hlt | hge
  · rw [Int.bmod_eq_of_le] <;> omega
  · have hbmod := Int.bmod_lt (x := (value : Int)) (m := 2 ^ 32) (by decide)
    omega

theorem lastIndex_eq {patLen : Nat} (h : 0 < patLen) : lastIndex patLen = patLen - 1 :=
  if_neg (by omega)

/-! ## delta1 -/

/-- Every shift of the bad-character table reaches at most the end of the
pattern, and never passes an occurrence of the letter before its last position. -/
structure Delta1Spec (pat : List Byte) (limit : Nat) (delta1 : Byte → Int) : Prop where
  le_length : ∀ c, delta1 c ≤ pat.length
  le_of_letter : ∀ c, ∀ k < limit, pat[k]? = some c → delta1 c ≤ pat.length - 1 - k

theorem delta1From_spec {pat : List Byte} (hlen : pat.length < 2 ^ 31)
    (remaining i : Nat) (hbound : i + remaining + 1 = pat.length) (delta1 : Byte → Int)
    (h : Delta1Spec pat i delta1) :
    ∃ table, delta1From pat remaining i delta1 = some table ∧
      Delta1Spec pat (pat.length - 1) table := by
  induction remaining generalizing i delta1 with
  | zero =>
      refine ⟨delta1, rfl, ?_⟩
      have hi : i = pat.length - 1 := by omega
      rwa [← hi]
  | succ remaining ih =>
      have hi : i < pat.length := by omega
      have hvalue : toInt (pat.length - 1 - i) = (pat.length : Int) - 1 - i := by
        rw [toInt_eq (by omega)]
        omega
      have hnext : Delta1Spec pat (i + 1)
          (Function.update delta1 pat[i] (toInt (pat.length - 1 - i))) := by
        constructor
        · intro c
          by_cases hc : c = pat[i]
          · subst hc
            rw [Function.update_self, hvalue]
            omega
          · rw [Function.update_of_ne hc]
            exact h.le_length c
        · intro c k hk hletter
          by_cases hc : c = pat[i]
          · subst hc
            rw [Function.update_self, hvalue]
            omega
          · rw [Function.update_of_ne hc]
            have hki : k ≠ i := by
              rintro rfl
              rw [List.getElem?_eq_getElem hi] at hletter
              exact hc (Option.some.inj hletter).symm
            exact h.le_of_letter c k (by omega) hletter
      obtain ⟨table, htable, hspec⟩ := ih (i + 1) (by omega) _ hnext
      refine ⟨table, ?_, hspec⟩
      simp [delta1From, List.getElem?_eq_getElem hi, htable]

theorem bmMakeDelta1_spec {pat : List Byte} (hpos : 0 < pat.length)
    (hlen : pat.length < 2 ^ 31) :
    ∃ delta1, bmMakeDelta1 pat = some delta1 ∧ Delta1Spec pat (pat.length - 1) delta1 := by
  unfold bmMakeDelta1
  rw [lastIndex_eq hpos]
  refine delta1From_spec hlen _ 0 (by omega) _ ⟨fun c => ?_, fun c k hk => ?_⟩
  · exact Int.le_of_eq (toInt_eq hlen)
  · omega

/-! ## the two comparisons -/

theorem strncmpEqual_spec {pat : List Byte} (hnul : ∀ c ∈ pat, c ≠ 0) (a b n : Nat)
    (ha : a + n ≤ pat.length) (hb : b + n ≤ pat.length) :
    ∃ answer, strncmpEqual pat a b n = some answer ∧
      (answer = true ↔ ∀ k < n, pat[b + k]? = pat[a + k]?) := by
  induction n generalizing a b with
  | zero => exact ⟨true, rfl, by simp⟩
  | succ n ih =>
      have hla : a < pat.length := by omega
      have hlb : b < pat.length := by omega
      simp only [strncmpEqual, List.getElem?_eq_getElem hla, List.getElem?_eq_getElem hlb,
        Option.bind_eq_bind, Option.bind_some, Option.pure_def]
      by_cases hxy : pat[a] = pat[b]
      · obtain ⟨answer, hanswer, hiff⟩ := ih (a + 1) (b + 1) (by omega) (by omega)
        have hx : pat[a] ≠ 0 := hnul _ (List.getElem_mem hla)
        refine ⟨answer, by simp [hxy, hxy ▸ hx, hanswer], hiff.trans ⟨fun h k hk => ?_, ?_⟩⟩
        · cases k with
          | zero => simp [List.getElem?_eq_getElem hla, List.getElem?_eq_getElem hlb, hxy]
          | succ k =>
              have hk' := h k (by omega)
              rwa [show b + 1 + k = b + (k + 1) by omega,
                show a + 1 + k = a + (k + 1) by omega] at hk'
        · intro h k hk
          have hk' := h (k + 1) (by omega)
          rwa [show b + (k + 1) = b + 1 + k by omega,
            show a + (k + 1) = a + 1 + k by omega] at hk'
      · refine ⟨false, by simp [hxy], ?_⟩
        simp only [Bool.false_eq_true, false_iff, not_forall]
        refine ⟨0, by omega, ?_⟩
        simpa [List.getElem?_eq_getElem hla, List.getElem?_eq_getElem hlb] using Ne.symm hxy

/-- The comparison of the first `delta2` loop finds the periods of the pattern. -/
theorem isPrefix_spec {pat : List Byte} (hnul : ∀ c ∈ pat, c ≠ 0) {p : Nat}
    (hp : p < pat.length) :
    ∃ answer, strncmpEqual pat p 0 (pat.length - p) = some answer ∧
      (answer = true ↔ Period pat p) := by
  obtain ⟨answer, hanswer, hiff⟩ := strncmpEqual_spec hnul p 0 (pat.length - p)
    (by omega) (by omega)
  refine ⟨answer, hanswer, hiff.trans (forall₂_congr fun k _ => ?_)⟩
  rw [Nat.zero_add, Nat.add_comm p k]

/-- `max_suffix_len` at `p`: how far the pattern before `p` agrees with the
pattern's own end, never counting the first character. -/
structure SuffixLen (pat : List Byte) (p len : Nat) : Prop where
  le : len ≤ p
  agrees : ∀ t < len, pat[p - t]? = pat[pat.length - 1 - t]?
  maximal : len = p ∨ pat[p - len]? ≠ pat[pat.length - 1 - len]?

theorem maxSuffixLenFrom_spec {pat : List Byte} {p : Nat} (hp : p < pat.length)
    (remaining i : Nat) (hi : i + remaining = p)
    (h : ∀ t < i, pat[p - t]? = pat[pat.length - 1 - t]?) :
    ∃ len, maxSuffixLenFrom pat p remaining i = some len ∧ SuffixLen pat p len := by
  induction remaining generalizing i with
  | zero =>
      refine ⟨i, ?_, by omega, h, Or.inl (by omega)⟩
      simp [maxSuffixLenFrom, List.getElem?_eq_getElem (by omega : p - i < pat.length),
        List.getElem?_eq_getElem (by omega : pat.length - 1 - i < pat.length)]
  | succ remaining ih =>
      have hleft : p - i < pat.length := by omega
      have hright : pat.length - 1 - i < pat.length := by omega
      simp only [maxSuffixLenFrom, List.getElem?_eq_getElem hleft,
        List.getElem?_eq_getElem hright, Option.bind_eq_bind, Option.bind_some]
      by_cases heq : pat[p - i] = pat[pat.length - 1 - i]
      · rw [if_pos heq]
        refine ih (i + 1) (by omega) fun t ht => ?_
        by_cases hti : t = i
        · subst hti
          rw [List.getElem?_eq_getElem hleft, List.getElem?_eq_getElem hright, heq]
        · exact h t (by omega)
      · rw [if_neg heq]
        refine ⟨i, rfl, by omega, h, Or.inr ?_⟩
        simpa [List.getElem?_eq_getElem hleft, List.getElem?_eq_getElem hright] using heq

theorem maxSuffixLen_spec {pat : List Byte} {p : Nat} (hp : p < pat.length) :
    ∃ len, maxSuffixLen pat p = some len ∧ SuffixLen pat p len :=
  maxSuffixLenFrom_spec hp p 0 (by omega) (by omega)

/-- The second `delta2` loop writes at `p` exactly when the suffix behind some
position recurs so that it ends at `p`. -/
theorem SuffixLen.reoccurs_iff {pat : List Byte} {p len : Nat}
    (h : SuffixLen pat p len) (hp : p < pat.length - 1) (j : Nat) (hj : j < pat.length) :
    Reoccurs pat j (pat.length - 1 - p) ↔
      j = pat.length - 1 - len ∧ pat[p - len]? ≠ pat[pat.length - 1 - len]? := by
  have hle := h.le
  constructor
  · rintro ⟨hpos, hdj, hsuffix, hdiff⟩
    have hcut : p - (pat.length - 1 - j) = j - (pat.length - 1 - p) := by omega
    have hnot : ¬ pat.length - 1 - j < len := by
      intro hlt
      apply hdiff
      have hagree := h.agrees _ hlt
      rwa [hcut, show pat.length - 1 - (pat.length - 1 - j) = j by omega] at hagree
    have hlen : len = pat.length - 1 - j := by
      rcases h.maximal with hmax | hmax
      · omega
      · by_contra hne
        apply hmax
        have hk := hsuffix (pat.length - 1 - len) (by omega) (by omega)
        rwa [show pat.length - 1 - len - (pat.length - 1 - p) = p - len by omega] at hk
    subst hlen
    refine ⟨by omega, ?_⟩
    rwa [hcut, show pat.length - 1 - (pat.length - 1 - j) = j by omega]
  · rintro ⟨rfl, hdiff⟩
    have hlen : len < pat.length - 1 ∨ len = pat.length - 1 := by omega
    refine ⟨by omega, by omega, fun k hk hjk => ?_, ?_⟩
    · have hagree := h.agrees (pat.length - 1 - k) (by omega)
      rwa [show p - (pat.length - 1 - k) = k - (pat.length - 1 - p) by omega,
        show pat.length - 1 - (pat.length - 1 - k) = k by omega] at hagree
    · rwa [show pat.length - 1 - len - (pat.length - 1 - p) = p - len by omega]

/-! ## delta2 -/

/-- `q` is the shortest period of the pattern that is at least `j`. -/
def LeastPeriod (pat : List Byte) (j q : Nat) : Prop :=
  j ≤ q ∧ q < pat.length ∧ Period pat q ∧ ∀ q' < q, j ≤ q' → ¬ Period pat q'

/-- The shift the first loop stores for a mismatch at `j`. -/
def PrefixShift (pat : List Byte) (j shift : Nat) : Prop :=
  (∃ q, LeastPeriod pat j q ∧ shift = q + 1) ∨
    ((∀ q < pat.length, j ≤ q → ¬ Period pat q) ∧ shift = pat.length - 1)

/-- The shift stored for a mismatch at `j` once the second loop has passed the
positions below `stop`. -/
def SuffixShift (pat : List Byte) (stop j shift : Nat) : Prop :=
  (Reoccurs pat j shift ∧ pat.length - 1 - shift < stop ∧
      ∀ d, Reoccurs pat j d → pat.length - 1 - d < stop → shift ≤ d) ∨
    ((∀ d, Reoccurs pat j d → ¬ pat.length - 1 - d < stop) ∧ PrefixShift pat j shift)

/-- The entries from `start` on hold a shift that meets `P`. -/
def Holds (pat : List Byte) (P : Nat → Nat → Prop) (start : Nat) (delta2 : Delta2) : Prop :=
  ∀ j < pat.length, start ≤ j → ∃ shift,
    delta2 j = some (toInt (shift + (pat.length - 1 - j))) ∧ P j shift

theorem PrefixShift.step {pat : List Byte} {p lastPrefix : Nat} {answer : Bool}
    (hp : p < pat.length) (h : PrefixShift pat (p + 1) lastPrefix)
    (hanswer : answer = true ↔ Period pat p) :
    PrefixShift pat p (if answer then p + 1 else lastPrefix) := by
  cases answer with
  | true => exact Or.inl ⟨p, ⟨Nat.le_refl p, hp, hanswer.mp rfl, fun q' h1 h2 => by omega⟩, rfl⟩
  | false =>
      have hnot : ¬ Period pat p := fun hper => Bool.false_ne_true (hanswer.mpr hper)
      have hskip : ∀ q', p ≤ q' → (p + 1 ≤ q' → ¬ Period pat q') → ¬ Period pat q' := by
        intro q' hq' hrest
        by_cases heq : q' = p
        · rwa [heq]
        · exact hrest (by omega)
      rcases h with ⟨q, ⟨hle, hlt, hper, hleast⟩, rfl⟩ | ⟨hnone, rfl⟩
      · exact Or.inl ⟨q, ⟨by omega, hlt, hper,
          fun q' hq' hpq => hskip q' hpq (hleast q' hq')⟩, rfl⟩
      · exact Or.inr ⟨fun q hq hpq => hskip q hpq (hnone q hq), rfl⟩

theorem delta2Prefix_spec {pat : List Byte} (hnul : ∀ c ∈ pat, c ≠ 0)
    (p lastPrefix : Nat) (hp : p ≤ pat.length) (delta2 : Delta2)
    (hlast : PrefixShift pat p lastPrefix)
    (h : Holds pat (PrefixShift pat) p delta2) :
    ∃ table, delta2Prefix pat p lastPrefix delta2 = some table ∧
      Holds pat (PrefixShift pat) 0 table := by
  induction p generalizing lastPrefix delta2 with
  | zero => exact ⟨delta2, rfl, h⟩
  | succ p ih =>
      obtain ⟨answer, hanswer, hiff⟩ := isPrefix_spec hnul (show p < pat.length by omega)
      have hnext := hlast.step (by omega) hiff
      have hholds : Holds pat (PrefixShift pat) p
          (Function.update delta2 p (some (toInt
            ((if answer then p + 1 else lastPrefix) + (pat.length - 1 - p))))) := by
        intro j hj hpj
        by_cases hjp : j = p
        · subst hjp
          exact ⟨_, by rw [Function.update_self], hnext⟩
        · rw [Function.update_of_ne hjp]
          exact h j hj (by omega)
      obtain ⟨table, htable, hspec⟩ := ih _ (by omega) _ hnext hholds
      refine ⟨table, ?_, hspec⟩
      simp [delta2Prefix, hanswer, writeDelta2, show p < pat.length by omega, htable]

theorem SuffixShift.step_write {pat : List Byte} {p j : Nat}
    (h : Reoccurs pat j (pat.length - 1 - p)) :
    SuffixShift pat (p + 1) j (pat.length - 1 - p) :=
  Or.inl ⟨h, by omega, fun d hd hlt => by omega⟩

theorem SuffixShift.step_skip {pat : List Byte} {p j shift : Nat} (hj : j < pat.length)
    (h : SuffixShift pat p j shift) (hnot : ¬ Reoccurs pat j (pat.length - 1 - p)) :
    SuffixShift pat (p + 1) j shift := by
  have hlower : ∀ d, Reoccurs pat j d → pat.length - 1 - d < p + 1 →
      pat.length - 1 - d < p := by
    intro d hd hlt
    by_contra hge
    have hdj := hd.2.1
    apply hnot
    rwa [show pat.length - 1 - p = d by omega]
  rcases h with ⟨hre, hlt, hleast⟩ | ⟨hnone, hprefix⟩
  · exact Or.inl ⟨hre, by omega, fun d hd hdlt => hleast d hd (hlower d hd hdlt)⟩
  · exact Or.inr ⟨fun d hd hdlt => hnone d hd (hlower d hd hdlt), hprefix⟩

theorem delta2Suffix_spec {pat : List Byte} (remaining p : Nat)
    (hp : p + remaining = pat.length - 1) (delta2 : Delta2)
    (h : Holds pat (SuffixShift pat p) 0 delta2) :
    ∃ table, delta2Suffix pat remaining p delta2 = some table ∧
      Holds pat (SuffixShift pat (pat.length - 1)) 0 table := by
  induction remaining generalizing p delta2 with
  | zero =>
      refine ⟨delta2, rfl, ?_⟩
      rwa [← hp]
  | succ remaining ih =>
      obtain ⟨len, hlen, hsuffix⟩ := maxSuffixLen_spec (show p < pat.length by omega)
      have hle := hsuffix.le
      have hleft : p - len < pat.length := by omega
      have hright : pat.length - 1 - len < pat.length := by omega
      have hiff := hsuffix.reoccurs_iff (by omega)
      by_cases hdiff : pat[p - len] = pat[pat.length - 1 - len]
      · have hholds : Holds pat (SuffixShift pat (p + 1)) 0 delta2 := by
          intro j hj hzero
          obtain ⟨shift, hentry, hshift⟩ := h j hj hzero
          refine ⟨shift, hentry, hshift.step_skip hj fun hre => ?_⟩
          apply ((hiff j hj).mp hre).2
          rw [List.getElem?_eq_getElem hleft, List.getElem?_eq_getElem hright, hdiff]
        obtain ⟨table, htable, hspec⟩ := ih (p + 1) (by omega) delta2 hholds
        refine ⟨table, ?_, hspec⟩
        simp [delta2Suffix, hlen, List.getElem?_eq_getElem hleft,
          List.getElem?_eq_getElem hright, hdiff, htable]
      · have hne : pat[p - len]? ≠ pat[pat.length - 1 - len]? := by
          simpa [List.getElem?_eq_getElem hleft, List.getElem?_eq_getElem hright] using hdiff
        have hholds : Holds pat (SuffixShift pat (p + 1)) 0
            (Function.update delta2 (pat.length - 1 - len)
              (some (toInt (pat.length - 1 - p + len)))) := by
          intro j hj hzero
          by_cases hjlen : j = pat.length - 1 - len
          · refine ⟨pat.length - 1 - p, ?_, SuffixShift.step_write
              ((hiff j hj).mpr ⟨hjlen, hne⟩)⟩
            rw [hjlen, Function.update_self,
              show pat.length - 1 - (pat.length - 1 - len) = len by omega]
          · obtain ⟨shift, hentry, hshift⟩ := h j hj hzero
            refine ⟨shift, by rw [Function.update_of_ne hjlen, hentry],
              hshift.step_skip hj fun hre => hjlen ((hiff j hj).mp hre).1⟩
        obtain ⟨table, htable, hspec⟩ := ih (p + 1) (by omega) _ hholds
        refine ⟨table, ?_, hspec⟩
        simp [delta2Suffix, hlen, List.getElem?_eq_getElem hleft, hdiff, writeDelta2,
          hright, htable]

/-- The shift `delta2` finally stores for a mismatch at `j`. -/
def StoredShift (pat : List Byte) (j shift : Nat) : Prop :=
  (Reoccurs pat j shift ∧ ∀ d, Reoccurs pat j d → shift ≤ d) ∨
    ((∀ d, ¬ Reoccurs pat j d) ∧ PrefixShift pat j shift)

theorem SuffixShift.stored {pat : List Byte} {j shift : Nat} (hj : j < pat.length)
    (h : SuffixShift pat (pat.length - 1) j shift) : StoredShift pat j shift := by
  have hall : ∀ d, Reoccurs pat j d → pat.length - 1 - d < pat.length - 1 := by
    intro d hd
    have hpos := hd.1
    have hle := hd.2.1
    omega
  rcases h with ⟨hre, _, hleast⟩ | ⟨hnone, hprefix⟩
  · exact Or.inl ⟨hre, fun d hd => hleast d hd (hall d hd)⟩
  · exact Or.inr ⟨fun d hd => hnone d hd (hall d hd), hprefix⟩

theorem bmMakeDelta2_spec {pat : List Byte} (hnul : ∀ c ∈ pat, c ≠ 0)
    (hpos : 0 < pat.length) (hlen : pat.length < 2 ^ 31) :
    ∃ delta2, bmMakeDelta2 pat = some delta2 ∧ Holds pat (StoredShift pat) 0 delta2 := by
  have hlast : lastIndex pat.length % 2 ^ 32 = pat.length - 1 := by
    rw [lastIndex_eq hpos, Nat.mod_eq_of_lt (by omega)]
  obtain ⟨first, hfirst, hprefix⟩ := delta2Prefix_spec hnul pat.length (pat.length - 1)
    (Nat.le_refl _) (fun _ => none) (Or.inr ⟨fun q hq hle => by omega, rfl⟩)
    (fun j hj hle => by omega)
  have hstart : Holds pat (SuffixShift pat 0) 0 first := by
    intro j hj hzero
    obtain ⟨shift, hentry, hshift⟩ := hprefix j hj hzero
    exact ⟨shift, hentry, Or.inr ⟨fun d _ hlt => by omega, hshift⟩⟩
  obtain ⟨table, htable, hholds⟩ := delta2Suffix_spec (pat.length - 1) 0 (by omega) first hstart
  have hmake : bmMakeDelta2 pat = some table := by
    simp only [bmMakeDelta2, hlast, hfirst, htable, Option.bind_eq_bind, Option.bind_some]
  refine ⟨table, hmake, fun j hj hzero => ?_⟩
  obtain ⟨shift, hentry, hshift⟩ := hholds j hj hzero
  exact ⟨shift, hentry, hshift.stored hj⟩

/-- Every stored shift moves the alignment right, and by no more than the
length of the pattern. -/
theorem StoredShift.bounds {pat : List Byte} {j shift : Nat} (hj : j < pat.length)
    (h : StoredShift pat j shift) : 0 < shift ∧ shift ≤ pat.length := by
  rcases h with ⟨hre, _⟩ | ⟨_, ⟨q, hq, rfl⟩ | ⟨hnone, rfl⟩⟩
  · have hpos := hre.1
    have hle := hre.2.1
    omega
  · have hlt := hq.2.1
    omega
  · have hzero : j ≠ 0 := fun hj0 => hnone 0 (by omega) (by omega) (period_zero pat)
    omega

end Msm8916.Recovery
