import Msm8916.Camera.OrderedParameters
import Msm8916.Lib.Decimal

/-!
Sizes and ranges in the parameters of the camera: the pairs of numbers that `parse_pair`
reads, and the lists of them that `parseSizesList` reads.
-/

namespace Msm8916.Camera

open CString Decimal

/-- What follows blanks and a sign. -/
def behindSign (str : List Char) : List Char :=
  match str.dropWhile isspace with
  | '-' :: rest => rest
  | '+' :: rest => rest
  | rest => rest

/-- `strtol` with base ten, and where it ends: at the start, if there is no number. -/
def strtol10 (str : List Char) : Int × List Char :=
  if (behindSign str).takeWhile Char.isDigit = [] then (0, str)
  else (strtol 10 str, (behindSign str).dropWhile Char.isDigit)

/-- The cast of a `long` to `int`. -/
def toInt32 (value : Int) : Int := value.bmod (2 ^ 32)

/-- `parse_pair`, with the rest of the text. -/
def parsePair (delim : Char) (str : List Char) : Option ((Int × Int) × List Char) :=
  let (w, end') := strtol10 str
  match end' with
  | [] => none
  | c :: rest =>
      if c = delim then
        let (h, end') := strtol10 rest
        some ((toInt32 w, toInt32 h), end')
      else none

/-- The loop of `parseSizesList`, for a number of rounds: the sizes pushed. -/
def parseSizesFrom : Nat → List Char → List (Int × Int)
  | 0, _ => []
  | rounds + 1, str =>
      match parsePair 'x' str with
      | none => []
      | some (size, []) => [size]
      | some (size, c :: rest) => if c = ',' then size :: parseSizesFrom rounds rest else []

/-- `parseSizesList`. Every round takes a character at least. -/
def parseSizesList (sizesStr : Option String) : List (Int × Int) :=
  match sizesStr with
  | none => []
  | some sizesStr => parseSizesFrom (sizesStr.toList.length + 1) sizesStr.toList

/-- A pair as `%d<delim>%d` prints it. -/
def pairText (delim : Char) (pair : Int × Int) : List Char :=
  printInt 1 pair.1 ++ delim :: printInt 1 pair.2

namespace CameraParameters2

def keyPreviewSize := "preview-size"
def keySupportedPreviewSizes := "preview-size-values"
def keyPreferredPreviewSizeForVideo := "preferred-preview-size-for-video"
def keyVideoSize := "video-size"
def keySupportedVideoSizes := "video-size-values"
def keyPictureSize := "picture-size"
def keySupportedPictureSizes := "picture-size-values"
def keyPreviewFpsRange := "preview-fps-range"

/-- The setters of pairs. -/
def setPair (mMap : CameraParameters2) (key : String) (delim : Char) (pair : Int × Int) :
    CameraParameters2 :=
  mMap.set key (String.ofList (pairText delim pair))

/-- The getters of pairs, which leave `-1` in both if there is no pair. -/
def getPair (mMap : CameraParameters2) (key : String) (delim : Char) : Int × Int :=
  match mMap.get key with
  | none => (-1, -1)
  | some p => ((parsePair delim p.toList).map Prod.fst).getD (-1, -1)

def setPreviewSize (mMap : CameraParameters2) (width height : Int) : CameraParameters2 :=
  mMap.setPair keyPreviewSize 'x' (width, height)

def getPreviewSize (mMap : CameraParameters2) : Int × Int := mMap.getPair keyPreviewSize 'x'

def getPreferredPreviewSizeForVideo (mMap : CameraParameters2) : Int × Int :=
  mMap.getPair keyPreferredPreviewSizeForVideo 'x'

def setVideoSize (mMap : CameraParameters2) (width height : Int) : CameraParameters2 :=
  mMap.setPair keyVideoSize 'x' (width, height)

def getVideoSize (mMap : CameraParameters2) : Int × Int := mMap.getPair keyVideoSize 'x'

def setPictureSize (mMap : CameraParameters2) (width height : Int) : CameraParameters2 :=
  mMap.setPair keyPictureSize 'x' (width, height)

def getPictureSize (mMap : CameraParameters2) : Int × Int := mMap.getPair keyPictureSize 'x'

def setPreviewFpsRange (mMap : CameraParameters2) (min_fps max_fps : Int) : CameraParameters2 :=
  mMap.setPair keyPreviewFpsRange ',' (min_fps, max_fps)

def getPreviewFpsRange (mMap : CameraParameters2) : Int × Int := mMap.getPair keyPreviewFpsRange ','

def getSupportedPreviewSizes (mMap : CameraParameters2) : List (Int × Int) :=
  parseSizesList (mMap.get keySupportedPreviewSizes)

def getSupportedVideoSizes (mMap : CameraParameters2) : List (Int × Int) :=
  parseSizesList (mMap.get keySupportedVideoSizes)

def getSupportedPictureSizes (mMap : CameraParameters2) : List (Int × Int) :=
  parseSizesList (mMap.get keySupportedPictureSizes)

end CameraParameters2

/-! ## Numbers -/

/-- A value that an `int` has. -/
def IsInt32 (value : Int) : Prop := -2 ^ 31 ≤ value ∧ value < 2 ^ 31

theorem toInt32_of_isInt32 {value : Int} (h : IsInt32 value) : toInt32 value = value := by
  obtain ⟨hlow, hhigh⟩ := h
  apply Int.bmod_eq_of_le <;> omega

theorem isDigit_iff (c : Char) : c.isDigit = true ↔ '0' ≤ c ∧ c ≤ '9' := by
  simp only [Char.isDigit, Bool.and_eq_true, decide_eq_true_eq]
  exact Iff.rfl

theorem digitValue_of_isDigit {c : Char} (h : c.isDigit) :
    digitValue c = some (c.toNat - '0'.toNat) := by
  exact if_pos ((isDigit_iff c).mp h)

/-- What is no digit ends the number, also a letter. -/
theorem readDigits_stop {c : Char} (h : ¬ c.isDigit) (value : Nat) (rest : List Char) :
    readDigits 10 value (c :: rest) = value := by
  have hdigit : ¬ ('0' ≤ c ∧ c ≤ '9') := mt (isDigit_iff c).mpr h
  rw [readDigits, digitValue, if_neg hdigit]
  split
  · next digit heq =>
    split at heq
    · obtain rfl := Option.some.inj heq
      rw [if_neg (by omega)]
    · cases heq
  · rfl

theorem readDigits_append {digits : List Char} (h : ∀ c ∈ digits, c.isDigit)
    {rest : List Char} (hrest : ∀ c ∈ rest.head?, ¬ c.isDigit) (value : Nat) :
    readDigits 10 value (digits ++ rest) = Nat.ofDigitChars 10 digits value := by
  induction digits generalizing value with
  | nil =>
      cases rest with
      | nil => rfl
      | cons c rest => exact readDigits_stop (hrest c rfl) value rest
  | cons c digits ih =>
      obtain ⟨hfirst, hdigits⟩ := List.forall_mem_cons.mp h
      have hten : c.toNat - '0'.toNat < 10 := by
        have hle : c.toNat ≤ '9'.toNat := ((isDigit_iff c).mp hfirst).2
        have hnine : '9'.toNat = 57 := rfl
        have hzero : '0'.toNat = 48 := rfl
        omega
      rw [List.cons_append, readDigits, digitValue_of_isDigit hfirst]
      dsimp only
      rw [if_pos hten, ih hdigits, Nat.ofDigitChars_cons, Nat.mul_comm]

theorem isspace_of_isDigit {c : Char} (h : c.isDigit) : isspace c = false := by
  have hlow : '0'.toNat ≤ c.toNat := ((isDigit_iff c).mp h).1
  rw [isspace, decide_eq_false_iff_not]
  intro hmem
  have hspace : c.toNat < '0'.toNat := by
    simp only [List.mem_cons, List.not_mem_nil, or_false] at hmem
    rcases hmem with rfl | rfl | rfl | rfl | rfl | rfl <;> decide
  exact Nat.not_le_of_lt hspace hlow

theorem takeWhile_digits {digits : List Char} (h : ∀ c ∈ digits, c.isDigit) {rest : List Char}
    (hrest : ∀ c ∈ rest.head?, ¬ c.isDigit) :
    (digits ++ rest).takeWhile Char.isDigit = digits ∧
      (digits ++ rest).dropWhile Char.isDigit = rest := by
  rw [List.takeWhile_append_of_pos h, List.dropWhile_append_of_pos h]
  cases rest with
  | nil => simp
  | cons c rest =>
      have hc : c.isDigit = false := by simpa using hrest c rfl
      rw [List.takeWhile_cons_of_neg (by simp [hc]), List.dropWhile_cons_of_neg (by simp [hc]),
        List.append_nil]
      exact ⟨rfl, rfl⟩

/-- `strtol` reads what `%d` has printed, up to what is no digit. -/
theorem strtol10_printInt {n : Int} (h : IsInt32 n) {rest : List Char}
    (hrest : ∀ c ∈ rest.head?, ¬ c.isDigit) : strtol10 (printInt 1 n ++ rest) = (n, rest) := by
  obtain ⟨hlow, hhigh⟩ := h
  have hdigits : ∀ c ∈ digits 1 n.natAbs, c.isDigit := fun c => isDigit_of_mem_digits
  have hnonempty := digits_ne_nil 1 n.natAbs
  obtain ⟨htake, hdrop⟩ := takeWhile_digits hdigits hrest
  have hvalue : readDigits 10 0 (digits 1 n.natAbs ++ rest) = n.natAbs := by
    rw [readDigits_append hdigits hrest, ofDigitChars_digits]
  by_cases hneg : n < 0
  · have htext : (printInt 1 n ++ rest).dropWhile isspace =
        '-' :: (digits 1 n.natAbs ++ rest) := by
      rw [printInt, if_pos hneg]
      rfl
    have hbehind : behindSign (printInt 1 n ++ rest) = digits 1 n.natAbs ++ rest := by
      rw [behindSign, htext]
      rfl
    have hstrtol : strtol 10 (printInt 1 n ++ rest) = n := by
      rw [strtol, htext]
      change max (-longMax - 1) (-(readDigits 10 0 (digits 1 n.natAbs ++ rest) : Int)) = n
      rw [hvalue, longMax]
      omega
    rw [strtol10, hbehind, htake, hdrop, if_neg hnonempty, hstrtol]
  · have hprint : printInt 1 n = digits 1 n.natAbs := by rw [printInt, if_neg hneg, List.nil_append]
    obtain ⟨c, cs, hcons⟩ := List.exists_cons_of_ne_nil hnonempty
    have hfirst : c.isDigit := hdigits c (hcons ▸ List.mem_cons_self)
    have htext : (printInt 1 n ++ rest).dropWhile isspace = c :: (cs ++ rest) := by
      rw [hprint, hcons, List.cons_append, List.dropWhile_cons_of_neg]
      simp [isspace_of_isDigit hfirst]
    have hminus : c ≠ '-' := by
      rintro rfl
      cases hfirst
    have hplus : c ≠ '+' := by
      rintro rfl
      cases hfirst
    have hbehind : behindSign (printInt 1 n ++ rest) = digits 1 n.natAbs ++ rest := by
      rw [behindSign, htext, hcons]
      split <;> simp_all
    have hstrtol : strtol 10 (printInt 1 n ++ rest) = n := by
      have hmatch : strtol 10 (printInt 1 n ++ rest) =
          min longMax (readDigits 10 0 (c :: (cs ++ rest)) : Int) := by
        rw [strtol, htext]
        split
        · simp_all
        · simp_all
        · rfl
      rw [hmatch, ← List.cons_append, ← hcons, hvalue, longMax]
      omega
    rw [strtol10, hbehind, htake, hdrop, if_neg hnonempty, hstrtol]

/-! ## Pairs -/

theorem parsePair_pairText {delim : Char} {pair : Int × Int} (hdelim : ¬ delim.isDigit)
    (hfirst : IsInt32 pair.1) (hsecond : IsInt32 pair.2) {rest : List Char}
    (hrest : ∀ c ∈ rest.head?, ¬ c.isDigit) :
    parsePair delim (pairText delim pair ++ rest) = some (pair, rest) := by
  have hw : strtol10 (printInt 1 pair.1 ++ delim :: (printInt 1 pair.2 ++ rest)) =
      (pair.1, delim :: (printInt 1 pair.2 ++ rest)) := by
    apply strtol10_printInt hfirst
    rintro c ⟨⟩
    exact hdelim
  rw [pairText, List.append_assoc, List.cons_append, parsePair, hw]
  dsimp only
  rw [if_pos rfl, strtol10_printInt hsecond hrest]
  dsimp only
  rw [toInt32_of_isInt32 hfirst, toInt32_of_isInt32 hsecond]

theorem length_strtol10_le (str : List Char) : (strtol10 str).2.length ≤ str.length := by
  rw [strtol10]
  split
  · exact le_rfl
  · have hdigits := (List.dropWhile_sublist Char.isDigit (l := behindSign str)).length_le
    have hspaces := (List.dropWhile_sublist isspace (l := str)).length_le
    have hsign : (behindSign str).length ≤ (str.dropWhile isspace).length := by
      rw [behindSign]
      split <;> simp_all
    exact hdigits.trans (hsign.trans hspaces)

/-- A pair takes its delimiter at least. -/
theorem length_parsePair_lt {delim : Char} {str rest : List Char} {pair : Int × Int}
    (h : parsePair delim str = some (pair, rest)) : rest.length < str.length := by
  have hfirst := length_strtol10_le str
  rw [parsePair] at h
  generalize strtol10 str = number at h hfirst
  obtain ⟨w, after⟩ := number
  cases after with
  | nil => cases h
  | cons c after =>
      dsimp only at h hfirst
      split at h
      · obtain ⟨-, rfl⟩ := Prod.mk.inj (Option.some.inj h)
        have hsecond := length_strtol10_le after
        rw [List.length_cons] at hfirst
        omega
      · cases h

/-- The loop ends by itself within more rounds than the text has characters. -/
theorem parseSizesFrom_of_lt {rounds : Nat} {str : List Char} (h : str.length < rounds) :
    parseSizesFrom rounds str = parseSizesFrom (str.length + 1) str := by
  have hagree : ∀ (n m : Nat) (str : List Char), str.length < n → str.length < m →
      parseSizesFrom n str = parseSizesFrom m str := by
    intro n
    induction n with
    | zero => exact fun m str hn _ => absurd hn (Nat.not_lt_zero _)
    | succ n ih =>
        intro m str hn hm
        obtain ⟨m, rfl⟩ : ∃ k, m = k + 1 := ⟨m - 1, by omega⟩
        rw [parseSizesFrom, parseSizesFrom]
        split
        · rfl
        · rfl
        · next size c rest hpair =>
          have hless := length_parsePair_lt hpair
          rw [List.length_cons] at hless
          rw [ih m rest (by omega) (by omega)]
  exact hagree rounds (str.length + 1) str h (Nat.lt_succ_self _)

/-! ## Lists of sizes -/

/-- The sizes, with a comma behind each. -/
def sizesText (sizes : List (Int × Int)) : List Char :=
  sizes.flatMap fun size => pairText 'x' size ++ [',']

/-- Sizes that are separated as they should be are all read, and then the rest is. -/
theorem parseSizesFrom_sizesText {sizes : List (Int × Int)}
    (h : ∀ size ∈ sizes, IsInt32 size.1 ∧ IsInt32 size.2) (rest : List Char) {rounds : Nat}
    (hrounds : (sizesText sizes ++ rest).length < rounds) :
    parseSizesFrom rounds (sizesText sizes ++ rest) =
      sizes ++ parseSizesFrom (rest.length + 1) rest := by
  induction sizes generalizing rounds with
  | nil => exact parseSizesFrom_of_lt hrounds
  | cons size sizes ih =>
      obtain ⟨⟨hfirst, hsecond⟩, hsizes⟩ := List.forall_mem_cons.mp h
      have hpair : parsePair 'x' (pairText 'x' size ++ ',' :: (sizesText sizes ++ rest)) =
          some (size, ',' :: (sizesText sizes ++ rest)) := by
        apply parsePair_pairText (by decide) hfirst hsecond
        rintro c ⟨⟩
        decide
      have htext : sizesText (size :: sizes) ++ rest =
          pairText 'x' size ++ ',' :: (sizesText sizes ++ rest) := by
        simp [sizesText]
      obtain ⟨rounds, rfl⟩ : ∃ k, rounds = k + 1 := ⟨rounds - 1, by omega⟩
      rw [htext] at hrounds ⊢
      have hless := length_parsePair_lt hpair
      rw [List.length_cons] at hless
      rw [parseSizesFrom, hpair]
      dsimp only
      rw [if_pos rfl, ih hsizes (by omega), List.cons_append]

/-- The last size ends the list. -/
theorem parseSizesFrom_last {size : Int × Int} (hfirst : IsInt32 size.1)
    (hsecond : IsInt32 size.2) (rounds : Nat) :
    parseSizesFrom (rounds + 1) (pairText 'x' size) = [size] := by
  have hpair : parsePair 'x' (pairText 'x' size ++ []) = some (size, []) :=
    parsePair_pairText (by decide) hfirst hsecond (by simp)
  rw [List.append_nil] at hpair
  rw [parseSizesFrom, hpair]

/-- What cannot be read as sizes: no pair, or a pair that neither a comma nor the end
follows. -/
def NoSizes (text : List Char) : Prop :=
  match parsePair 'x' text with
  | none => True
  | some (_, []) => False
  | some (_, c :: _) => c ≠ ','

theorem parseSizesFrom_noSizes {text : List Char} (h : NoSizes text) (rounds : Nat) :
    parseSizesFrom (rounds + 1) text = [] := by
  rw [parseSizesFrom]
  rw [NoSizes] at h
  split
  · rfl
  · next hpair => simp [hpair] at h
  · next hpair =>
    rw [hpair] at h
    exact if_neg h

/-! ## In the parameters -/

namespace CameraParameters2

theorem nodup_foldl_call {calls : List ParametersCall} {mMap : CameraParameters2}
    (h : mMap.keys.Nodup)
    (hdistinct : ∀ text, .unflatten text ∈ calls → (unflatten text).keys.Nodup) :
    (calls.foldl call mMap).keys.Nodup := by
  induction calls generalizing mMap with
  | nil => exact h
  | cons first calls ih =>
      have hrest := fun text hmem => hdistinct text (List.mem_cons_of_mem first hmem)
      cases first with
      | set key value => exact ih (nodup_set h key value) hrest
      | remove key =>
          exact ih (OrderedKeyedVector.keys_removeItem h key ▸ h.filter _) hrest
      | unflatten text => exact ih (hdistinct text List.mem_cons_self) hrest

/-- Where the setters of pairs put them. -/
def pairKeys : List (String × Char) :=
  [(keyPreviewSize, 'x'), (keyVideoSize, 'x'), (keyPictureSize, 'x'), (keyPreviewFpsRange, ',')]

/-- What `%d<delim>%d` prints has none of the characters that separate parameters. -/
theorem plain_pairText {delim : Char} (hdelim : delim ≠ '=' ∧ delim ≠ ';') (pair : Int × Int) :
    Parameters.Plain (String.ofList (pairText delim pair)) := by
  have hmem : ∀ c ∈ pairText delim pair, c = delim ∨ c = '-' ∨ c.isDigit := by
    intro c hc
    have hprint : ∀ n : Int, c ∈ printInt 1 n → c = '-' ∨ c.isDigit := by
      intro n hn
      rw [printInt] at hn
      rcases List.mem_append.mp hn with hsign | hdigit
      · split at hsign
        · exact .inl (List.mem_singleton.mp hsign)
        · cases hsign
      · exact .inr (isDigit_of_mem_digits hdigit)
    rcases List.mem_append.mp hc with hfirst | hrest
    · exact .inr (hprint _ hfirst)
    · rcases List.mem_cons.mp hrest with rfl | hsecond
      · exact .inl rfl
      · exact .inr (hprint _ hsecond)
  have hnot : ∀ c, c ≠ delim → c ≠ '-' → ¬ c.isDigit → c ∉ pairText delim pair :=
    fun c hne hminus hdigit hc => by
      rcases hmem c hc with h | h | h
      · exact hne h
      · exact hminus h
      · exact hdigit h
  constructor
  · rw [String.toList_ofList]
    exact hnot _ (Ne.symm hdelim.1) (by decide) (by decide)
  · rw [String.toList_ofList]
    exact hnot _ (Ne.symm hdelim.2) (by decide) (by decide)

theorem plain_append {first second : List Char} :
    Parameters.Plain (String.ofList (first ++ second)) ↔
      Parameters.Plain (String.ofList first) ∧ Parameters.Plain (String.ofList second) := by
  simp only [Parameters.Plain, String.toList_ofList, List.mem_append, not_or]
  exact and_and_and_comm

theorem plain_sizesText (sizes : List (Int × Int)) :
    Parameters.Plain (String.ofList (sizesText sizes)) := by
  induction sizes with
  | nil => decide
  | cons size sizes ih =>
      rw [sizesText, List.flatMap_cons, plain_append, plain_append]
      exact ⟨⟨plain_pairText (by decide) size, by decide⟩, ih⟩

theorem getPair_setPair {mMap : CameraParameters2} (h : mMap.keys.Nodup) {key : String}
    {delim : Char} (hkey : (key, delim) ∈ pairKeys) {pair : Int × Int} (hfirst : IsInt32 pair.1)
    (hsecond : IsInt32 pair.2) :
    (mMap.setPair key delim pair).getPair key delim = pair ∧
      ∀ other, other ≠ key → (mMap.setPair key delim pair).get other = mMap.get other := by
  have hplain : ∀ entry ∈ pairKeys, Parameters.Plain entry.1 ∧ ¬ entry.2.isDigit ∧
      entry.2 ≠ '=' ∧ entry.2 ≠ ';' := by decide
  obtain ⟨hkeyPlain, hdigit, hdelim⟩ := hplain _ hkey
  have haccepted : BothParameters.Accepted key (String.ofList (pairText delim pair)) :=
    ⟨hkeyPlain, plain_pairText hdelim pair⟩
  have hpair : parsePair delim (pairText delim pair ++ []) = some (pair, []) :=
    parsePair_pairText hdigit hfirst hsecond (by simp)
  rw [List.append_nil] at hpair
  constructor
  · rw [getPair, setPair, get_set h haccepted, if_pos rfl]
    dsimp only
    rw [String.toList_ofList, hpair]
    rfl
  · intro other hother
    rw [setPair, get_set h haccepted, if_neg hother]

/-- A list of sizes is read as far as it is one. -/
theorem parseSizesList_eq {sizes : List (Int × Int)} {last : Int × Int} {text : List Char}
    (hsizes : ∀ size ∈ sizes, IsInt32 size.1 ∧ IsInt32 size.2) (hlast : IsInt32 last.1)
    (hlast' : IsInt32 last.2) (htext : NoSizes text) :
    parseSizesList (some (String.ofList (sizesText sizes ++ pairText 'x' last))) =
        sizes ++ [last] ∧
      parseSizesList (some (String.ofList (sizesText sizes ++ text))) = sizes := by
  have hread : ∀ rest, parseSizesList (some (String.ofList (sizesText sizes ++ rest))) =
      sizes ++ parseSizesFrom (rest.length + 1) rest := by
    intro rest
    rw [parseSizesList, String.toList_ofList]
    exact parseSizesFrom_sizesText hsizes rest (Nat.lt_succ_self _)
  rw [hread, hread, parseSizesFrom_last hlast hlast', parseSizesFrom_noSizes htext, List.append_nil]
  exact ⟨rfl, rfl⟩

/-- After any calls, as long as no text names a key twice: a pair of 32-bit numbers is got as
it was set and nothing else changes, and of a text of sizes all are got that stand before the
first mistake. -/
theorem sizes_as_set {calls : List ParametersCall}
    (hdistinct : ∀ text, .unflatten text ∈ calls → (unflatten text).keys.Nodup) :
    (∀ key delim pair, (key, delim) ∈ pairKeys → IsInt32 pair.1 → IsInt32 pair.2 →
      ((calls.foldl call .empty).setPair key delim pair).getPair key delim = pair ∧
        ∀ other, other ≠ key → ((calls.foldl call .empty).setPair key delim pair).get other =
          (calls.foldl call .empty).get other) ∧
    ∀ key ∈ [keySupportedPreviewSizes, keySupportedVideoSizes, keySupportedPictureSizes],
      ∀ sizes last text, (∀ size ∈ sizes, IsInt32 size.1 ∧ IsInt32 size.2) →
        IsInt32 last.1 → IsInt32 last.2 → NoSizes text → Parameters.Plain (String.ofList text) →
        parseSizesList (((calls.foldl call .empty).set key
            (String.ofList (sizesText sizes ++ pairText 'x' last))).get key) = sizes ++ [last] ∧
          parseSizesList (((calls.foldl call .empty).set key
            (String.ofList (sizesText sizes ++ text))).get key) = sizes := by
  have hnodup : (calls.foldl call .empty).keys.Nodup := nodup_foldl_call List.nodup_nil hdistinct
  refine ⟨fun key delim pair hkey hfirst hsecond => getPair_setPair hnodup hkey hfirst hsecond, ?_⟩
  intro key hkey sizes last text hsizes hlast hlast' htext hplain
  have hkeys : ∀ key ∈ [keySupportedPreviewSizes, keySupportedVideoSizes, keySupportedPictureSizes],
      Parameters.Plain key := by decide
  have haccepted : ∀ rest, Parameters.Plain (String.ofList rest) →
      BothParameters.Accepted key (String.ofList (sizesText sizes ++ rest)) := by
    intro rest hrest
    exact ⟨hkeys key hkey, plain_append.mpr ⟨plain_sizesText sizes, hrest⟩⟩
  rw [get_set hnodup (haccepted _ (plain_pairText (by decide) last)), if_pos rfl,
    get_set hnodup (haccepted text hplain), if_pos rfl]
  exact parseSizesList_eq hsizes hlast hlast' htext

/-- A text is read, and then a mistake stands behind the second size. -/
theorem sizes_as_set_mistake :
    parseSizesList ((([.unflatten "picture-size=1x1;zoom=2"] : List ParametersCall).foldl call
        .empty |>.set keySupportedPreviewSizes
          (String.ofList (sizesText [(640, 480), (-1, 0)] ++ ['6', '4', '0']))).get
        keySupportedPreviewSizes) = [(640, 480), (-1, 0)] := by
  have hdistinct : ∀ text, .unflatten text ∈ [ParametersCall.unflatten "picture-size=1x1;zoom=2"] →
      (unflatten text).keys.Nodup := by
    intro text hmem
    obtain rfl := ParametersCall.unflatten.inj (List.mem_singleton.mp hmem)
    decide
  have hsizes :
      ∀ size ∈ [((640 : Int), (480 : Int)), (-1, 0)], IsInt32 size.1 ∧ IsInt32 size.2 := by
    unfold IsInt32
    decide
  exact ((sizes_as_set hdistinct).2 keySupportedPreviewSizes List.mem_cons_self _ (0, 0) _ hsizes
    (by unfold IsInt32; decide) (by unfold IsInt32; decide) (by trivial)
    (by decide)).2

end CameraParameters2

end Msm8916.Camera
