import Mathlib.Algebra.Order.Floor.Ring
import Mathlib.Algebra.Order.Ring.Rat
import Mathlib.Data.Rat.Floor
import Mathlib.Tactic.FieldSimp
import Mathlib.Tactic.Linarith
import Mathlib.Tactic.Positivity
import Mathlib.Tactic.Ring

/-!
Decimal texts: how `printf` writes integers and rational numbers, and how they are
read back. A rational number is rounded to the nearest multiple of the last place,
ties to even.
-/

namespace Msm8916.Decimal

/-! ## Natural numbers -/

/-- The digits of a number, filled with zeros up to a width. -/
def digits (width n : Nat) : List Char :=
  List.replicate (width - (Nat.toDigits 10 n).length) '0' ++ Nat.toDigits 10 n

/-- The number that a text of digits stands for. -/
def readNat (text : List Char) : Option Nat :=
  if text ≠ [] ∧ text.all Char.isDigit then some (Nat.ofDigitChars 10 text 0) else none

theorem isDigit_of_mem_digits {width n : Nat} {c : Char} (h : c ∈ digits width n) :
    c.isDigit := by
  rcases List.mem_append.mp h with hzero | hdigit
  · rw [List.eq_of_mem_replicate hzero]
    rfl
  · exact Nat.isDigit_of_mem_toDigits (by decide) (by decide) hdigit

theorem digits_ne_nil (width n : Nat) : digits width n ≠ [] :=
  List.append_ne_nil_of_right_ne_nil _ Nat.toDigits_ne_nil

theorem ofDigitChars_digits (width n : Nat) : Nat.ofDigitChars 10 (digits width n) 0 = n := by
  rw [digits, Nat.ofDigitChars_append, Nat.ofDigitChars_replicate_zero, Nat.mul_zero,
    Nat.ofDigitChars_ten_toDigits]

@[simp]
theorem readNat_digits (width n : Nat) : readNat (digits width n) = some n := by
  have hall : (digits width n).all Char.isDigit :=
    List.all_eq_true.mpr fun c hc => isDigit_of_mem_digits hc
  rw [readNat, if_pos ⟨digits_ne_nil width n, hall⟩, ofDigitChars_digits]

theorem le_length_digits (width n : Nat) : width ≤ (digits width n).length := by
  rw [digits, List.length_append, List.length_replicate]
  omega

/-- A number that fits the width has just that many digits. -/
theorem length_digits {width n : Nat} (hwidth : 0 < width) (h : n < 10 ^ width) :
    (digits width n).length = width := by
  have hle : (Nat.toDigits 10 n).length ≤ width :=
    (Nat.length_toDigits_le_iff (by decide) hwidth).mpr h
  rw [digits, List.length_append, List.length_replicate]
  omega

theorem length_digits_le {width size n : Nat} (hwidth : width ≤ size) (hsize : 0 < size)
    (h : n < 10 ^ size) : (digits width n).length ≤ size := by
  have hle : (Nat.toDigits 10 n).length ≤ size :=
    (Nat.length_toDigits_le_iff (by decide) hsize).mpr h
  rw [digits, List.length_append, List.length_replicate]
  omega

/-- What `%.<precision>d` prints. -/
def printInt (precision : Nat) (n : Int) : List Char :=
  (if n < 0 then ['-'] else []) ++ digits precision n.natAbs

theorem printInt_natCast (precision n : Nat) : printInt precision n = digits precision n := by
  rw [printInt, if_neg (by omega), List.nil_append, Int.natAbs_natCast]

/-- What `%0<width>d` prints. The sign counts for the width. -/
def printPadded (width : Nat) (n : Int) : List Char :=
  if n < 0 then '-' :: digits (width - 1) n.natAbs else digits width n.natAbs

theorem length_printPadded_le {width : Nat} (hwidth : 0 < width) {n : Int} (hneg : 0 ≤ n)
    (h : n < 10 ^ width) : (printPadded width n).length ≤ width := by
  obtain ⟨m, rfl⟩ := Int.eq_ofNat_of_zero_le hneg
  have hm : m < 10 ^ width := by exact_mod_cast h
  rw [printPadded, if_neg (not_lt.mpr hneg), Int.natAbs_natCast]
  exact length_digits_le le_rfl hwidth hm

theorem readNat_printPadded (width : Nat) {n : Int} (h : 0 ≤ n) :
    readNat (printPadded width n) = some n.toNat := by
  have habs : n.natAbs = n.toNat := by omega
  rw [printPadded, if_neg (not_lt.mpr h), readNat_digits, habs]

/-! ## Rounding -/

/-- The nearest integer, the even one of two. -/
def roundEven (x : ℚ) : ℤ :=
  if 2 * (x - ⌊x⌋) < 1 ∨ 2 * (x - ⌊x⌋) = 1 ∧ ⌊x⌋ % 2 = 0 then ⌊x⌋ else ⌊x⌋ + 1

/-- No integer is closer, and if another is as close it is the odd one. -/
structure Nearest (x : ℚ) (n : ℤ) : Prop where
  close : 2 * |x - n| ≤ 1
  even : 2 * |x - n| = 1 → n % 2 = 0

theorem roundEven_nearest (x : ℚ) : Nearest x (roundEven x) := by
  have hfloor : 0 ≤ x - ⌊x⌋ := sub_nonneg.mpr (Int.floor_le x)
  have hnext : x - ⌊x⌋ < 1 := by linarith [Int.lt_floor_add_one x]
  unfold roundEven
  split
  · rename_i hdown
    constructor
    · rw [abs_of_nonneg hfloor]
      rcases hdown with hlt | ⟨heq, -⟩
      · exact hlt.le
      · exact heq.le
    · intro htie
      rw [abs_of_nonneg hfloor] at htie
      rcases hdown with hlt | ⟨-, heven⟩
      · exact absurd htie hlt.ne
      · exact heven
  · rename_i hup
    rw [not_or, not_lt, not_and] at hup
    have habs : |x - (⌊x⌋ + 1 : ℤ)| = 1 - (x - ⌊x⌋) := by
      rw [abs_of_nonpos (by push_cast; linarith)]
      push_cast
      ring
    constructor
    · rw [habs]
      linarith [hup.1]
    · intro htie
      rw [habs] at htie
      have hodd := hup.2 (by linarith)
      omega

/-- There is only one nearest integer. -/
theorem Nearest.unique {x : ℚ} {m n : ℤ} (hm : Nearest x m) (hn : Nearest x n) : m = n := by
  have hdist : |(m : ℚ) - n| ≤ |x - m| + |x - n| := by
    have htri := abs_sub_le (m : ℚ) x n
    rw [abs_sub_comm (m : ℚ) x] at htri
    exact htri
  have hle : |m - n| ≤ 1 := by
    have hcast : ((|m - n| : ℤ) : ℚ) ≤ 1 := by
      push_cast
      linarith [hm.close, hn.close]
    exact_mod_cast hcast
  by_contra hne
  have hone : |m - n| = 1 := by
    have hpos := abs_pos.mpr (sub_ne_zero.mpr hne)
    omega
  -- the number is half-way between the two, and both are even
  have hcast : |(m : ℚ) - n| = 1 := by exact_mod_cast hone
  have htie := hm.even (by linarith [hm.close, hn.close])
  have hother := hn.even (by linarith [hm.close, hn.close])
  rcases abs_eq (zero_le_one' ℤ) |>.mp hone with h | h
  · omega
  · omega

theorem Nearest.eq_roundEven {x : ℚ} {n : ℤ} (h : Nearest x n) : roundEven x = n :=
  (roundEven_nearest x).unique h

theorem roundEven_neg (x : ℚ) : roundEven (-x) = -roundEven x := by
  have h := roundEven_nearest x
  have habs : |-x - (-roundEven x : ℤ)| = |x - roundEven x| := by
    rw [← abs_neg]
    congr 1
    push_cast
    ring
  apply Nearest.eq_roundEven
  constructor
  · rw [habs]
    exact h.close
  · intro htie
    rw [habs] at htie
    have heven := h.even htie
    omega

/-- Rounding does not see an even shift. -/
theorem roundEven_add {k : ℤ} (hk : k % 2 = 0) (x : ℚ) : roundEven (x + k) = roundEven x + k := by
  have h := roundEven_nearest x
  have hsub : x + k - (roundEven x + k : ℤ) = x - roundEven x := by
    push_cast
    ring
  apply Nearest.eq_roundEven
  constructor
  · rw [hsub]
    exact h.close
  · intro htie
    rw [hsub] at htie
    have heven := h.even htie
    omega

theorem roundEven_le {x : ℚ} {n : ℤ} (h : x ≤ n) : roundEven x ≤ n := by
  have hclose := (roundEven_nearest x).close
  by_contra hlt
  have hnext : (n : ℚ) + 1 ≤ roundEven x := by exact_mod_cast not_le.mp hlt
  rw [abs_of_nonpos (by linarith)] at hclose
  linarith

theorem le_roundEven {x : ℚ} {n : ℤ} (h : n ≤ x) : n ≤ roundEven x := by
  have hneg := roundEven_le (x := -x) (n := -n) (by push_cast; linarith)
  rw [roundEven_neg] at hneg
  omega

theorem roundEven_nonneg {x : ℚ} (h : 0 ≤ x) : 0 ≤ roundEven x :=
  le_roundEven (by exact_mod_cast h)

/-- Half a unit below an even number is rounded up to it. -/
theorem roundEven_lt_iff {x : ℚ} {n : ℤ} (hn : n % 2 = 0) : roundEven x < n ↔ x < n - 1 / 2 := by
  have h := roundEven_nearest x
  have hclose := abs_le.mp (by linarith [h.close] : |x - roundEven x| ≤ 1 / 2)
  constructor
  · intro hlt
    have hle : (roundEven x : ℚ) + 1 ≤ n := by exact_mod_cast hlt
    by_contra hge
    -- the number is half-way to the odd one below, which is not where it is rounded to
    have hround : roundEven x + 1 = n := by
      have hcast : (n : ℚ) ≤ roundEven x + 1 := by linarith [hclose.2, not_lt.mp hge]
      exact le_antisymm hlt (by exact_mod_cast hcast)
    have hcast : (roundEven x : ℚ) + 1 = n := by exact_mod_cast hround
    have htie : 2 * |x - roundEven x| = 1 := by
      rw [abs_of_nonneg (by linarith [not_lt.mp hge])]
      linarith [hclose.2, not_lt.mp hge]
    have heven := h.even htie
    omega
  · intro hlt
    have hcast : (roundEven x : ℚ) < n := by linarith [hclose.1]
    exact_mod_cast hcast

/-- A number rounded to some decimals. -/
def roundTo (decimals : Nat) (x : ℚ) : ℚ := roundEven (x * 10 ^ decimals) / 10 ^ decimals

/-- A number is rounded by half a unit of the last decimal at most. -/
theorem abs_roundTo_sub_le (decimals : Nat) (x : ℚ) :
    |roundTo decimals x - x| ≤ 1 / 2 / 10 ^ decimals := by
  have hten : (0 : ℚ) < 10 ^ decimals := by positivity
  have hclose := (roundEven_nearest (x * 10 ^ decimals)).close
  have hsplit : roundTo decimals x - x =
      -((x * 10 ^ decimals - roundEven (x * 10 ^ decimals)) / 10 ^ decimals) := by
    rw [roundTo]
    field_simp
    ring
  rw [hsplit, abs_neg, abs_div, abs_of_pos hten]
  apply div_le_div_of_nonneg_right _ hten.le
  linarith

/-- Less than half a unit of the last decimal below an even number, a number is rounded up
to it. -/
theorem roundTo_lt_iff {decimals : Nat} {x : ℚ} {n : ℤ} (h : 0 < decimals) :
    roundTo decimals x < n ↔ x < n - 1 / 2 / 10 ^ decimals := by
  have hten : (0 : ℚ) < 10 ^ decimals := by positivity
  have heven : n * 10 ^ decimals % 2 = 0 := by
    apply Int.emod_eq_zero_of_dvd
    apply Dvd.dvd.mul_left
    exact dvd_pow (by decide) h.ne'
  have hlt := @roundEven_lt_iff (x * 10 ^ decimals) _ heven
  have hcast : (roundEven (x * 10 ^ decimals) : ℚ) < (n : ℚ) * 10 ^ decimals ↔
      roundEven (x * 10 ^ decimals) < n * 10 ^ decimals := by
    exact_mod_cast Iff.rfl
  have hscale : (n : ℚ) - 1 / 2 / 10 ^ decimals = (n * 10 ^ decimals - 1 / 2) / 10 ^ decimals := by
    field_simp
  rw [roundTo, div_lt_iff₀ hten, hcast, hlt, hscale, lt_div_iff₀ hten]
  push_cast
  exact Iff.rfl

theorem roundTo_neg (decimals : Nat) (x : ℚ) : roundTo decimals (-x) = -roundTo decimals x := by
  rw [roundTo, neg_mul, roundEven_neg, roundTo]
  push_cast
  ring

theorem roundTo_add_int {decimals : Nat} (h : 0 < decimals) (x : ℚ) (n : ℤ) :
    roundTo decimals (x + n) = roundTo decimals x + n := by
  have hten : (10 : ℚ) ^ decimals ≠ 0 := by positivity
  have heven : n * 10 ^ decimals % 2 = 0 := by
    apply Int.emod_eq_zero_of_dvd
    apply Dvd.dvd.mul_left
    exact dvd_pow (by decide) h.ne'
  have hshift : (x + n) * 10 ^ decimals = x * 10 ^ decimals + (n * 10 ^ decimals : ℤ) := by
    push_cast
    ring
  rw [roundTo, hshift, roundEven_add heven, roundTo]
  push_cast
  field_simp

theorem roundTo_intCast {decimals : Nat} (h : 0 < decimals) (n : ℤ) :
    roundTo decimals n = n := by
  have hzero : roundTo decimals 0 = 0 := by
    have hnearest : Nearest 0 0 := ⟨by norm_num, fun _ => rfl⟩
    rw [roundTo, zero_mul, hnearest.eq_roundEven]
    norm_num
  have hshift := roundTo_add_int h 0 n
  rwa [zero_add, hzero, zero_add] at hshift

/-! ## Rational numbers -/

/-- What `%0<width>.<decimals>f` prints, for one decimal at least. -/
def printFixed (width decimals : Nat) (x : ℚ) : List Char :=
  let sign := if x < 0 then ['-'] else []
  let text := digits (max (decimals + 1) (width - 1 - sign.length))
    (roundEven (|x| * 10 ^ decimals)).natAbs
  sign ++ text.take (text.length - decimals) ++ '.' :: text.drop (text.length - decimals)

/-- A number that fits the width is printed just that wide. -/
theorem length_printFixed {width decimals : Nat} {x : ℚ} (hdecimals : decimals + 1 < width)
    (hx : 0 ≤ x) (hfit : roundEven (x * 10 ^ decimals) < 10 ^ (width - 1)) :
    (printFixed width decimals x).length = width := by
  have hmagnitude : 0 ≤ roundEven (x * 10 ^ decimals) := roundEven_nonneg (by positivity)
  have hnat : (roundEven (x * 10 ^ decimals)).natAbs < 10 ^ (width - 1) := by
    zify
    rw [abs_of_nonneg hmagnitude]
    exact hfit
  have hwidth : max (decimals + 1) (width - 1 - ([] : List Char).length) = width - 1 := by
    rw [List.length_nil]
    omega
  have hlength := length_digits (by omega) hnat
  unfold printFixed
  dsimp only
  rw [if_neg (not_lt.mpr hx), hwidth, abs_of_nonneg hx]
  simp only [List.nil_append, List.length_append, List.length_take, List.length_cons,
    List.length_drop, hlength]
  omega

def readUnsigned (text : List Char) : Option ℚ :=
  match text.dropWhile (· != '.') with
  | [] => none
  | _ :: decimals =>
      (readNat (text.takeWhile (· != '.') ++ decimals)).map fun n =>
        (n : ℚ) / 10 ^ decimals.length

/-- The number that a text with a decimal point stands for. -/
def readFixed (text : List Char) : Option ℚ :=
  match text with
  | '-' :: text => (readUnsigned text).map fun x => -x
  | text => readUnsigned text

theorem mem_printFixed {width decimals : Nat} {x : ℚ} {c : Char}
    (h : c ∈ printFixed width decimals x) : c.isDigit ∨ c = '-' ∨ c = '.' := by
  rcases List.mem_append.mp h with hfront | hback
  · rcases List.mem_append.mp hfront with hsign | hwhole
    · split at hsign
      · exact .inr (.inl (List.mem_singleton.mp hsign))
      · cases hsign
    · exact .inl (isDigit_of_mem_digits (List.mem_of_mem_take hwhole))
  · rcases List.mem_cons.mp hback with hpoint | hdecimals
    · exact .inr (.inr hpoint)
    · exact .inl (isDigit_of_mem_digits (List.mem_of_mem_drop hdecimals))

theorem ne_point_of_isDigit {c : Char} (h : c.isDigit) : (c != '.') = true := by
  rw [bne_iff_ne]
  rintro rfl
  cases h

/-- Digits with a point before the last of them read as their number over a power of
ten. -/
theorem readUnsigned_digits {width decimals : Nat} (n : Nat)
    (h : decimals < (digits width n).length) :
    readUnsigned ((digits width n).take ((digits width n).length - decimals) ++
      '.' :: (digits width n).drop ((digits width n).length - decimals)) =
      some ((n : ℚ) / 10 ^ decimals) := by
  have hwhole : ∀ c ∈ (digits width n).take ((digits width n).length - decimals),
      (c != '.') = true := fun c hc =>
    ne_point_of_isDigit (isDigit_of_mem_digits (List.mem_of_mem_take hc))
  have hlength : ((digits width n).drop ((digits width n).length - decimals)).length =
      decimals := by
    rw [List.length_drop]
    omega
  rw [readUnsigned, List.dropWhile_append_of_pos hwhole, List.takeWhile_append_of_pos hwhole]
  simp only [List.dropWhile_cons, List.takeWhile_cons, bne_self_eq_false, Bool.false_eq_true,
    if_false, List.append_nil, List.take_append_drop, readNat_digits, hlength]
  rfl

theorem readFixed_of_digit {c : Char} {text : List Char} (h : c.isDigit) :
    readFixed (c :: text) = readUnsigned (c :: text) := by
  unfold readFixed
  split
  · rename_i rest heq
    rw [(List.cons.inj heq).1] at h
    cases h
  · rfl

/-- What is printed reads as the number rounded to its decimals. -/
theorem readFixed_printFixed {decimals : Nat} (width : Nat) (h : 0 < decimals) (x : ℚ) :
    readFixed (printFixed width decimals x) = some (roundTo decimals x) := by
  have hmagnitude : 0 ≤ roundEven (|x| * 10 ^ decimals) := roundEven_nonneg (by positivity)
  have hcast :
      ((roundEven (|x| * 10 ^ decimals)).natAbs : ℚ) = roundEven (|x| * 10 ^ decimals) := by
    rw [Nat.cast_natAbs, abs_of_nonneg hmagnitude]
  have hlong : ∀ sign : List Char, decimals < (digits
      (max (decimals + 1) (width - 1 - sign.length))
      (roundEven (|x| * 10 ^ decimals)).natAbs).length := by
    intro sign
    have hwidth := le_length_digits (max (decimals + 1) (width - 1 - sign.length))
      (roundEven (|x| * 10 ^ decimals)).natAbs
    omega
  unfold printFixed
  dsimp only
  split
  · rename_i hneg
    rw [List.cons_append, List.cons_append, List.nil_append, readFixed,
      readUnsigned_digits _ (hlong ['-']), hcast, abs_of_neg hneg]
    have hround := roundTo_neg decimals x
    rw [roundTo] at hround
    rw [hround]
    simp
  · rename_i hpos
    rw [List.nil_append]
    have hdigits := hlong []
    have hfirst : (digits (max (decimals + 1) (width - 1 - ([] : List Char).length))
        (roundEven (|x| * 10 ^ decimals)).natAbs).take ((digits
          (max (decimals + 1) (width - 1 - ([] : List Char).length))
          (roundEven (|x| * 10 ^ decimals)).natAbs).length - decimals) ≠ [] := by
      rw [← List.length_pos_iff, List.length_take]
      omega
    have hread := readUnsigned_digits _ hdigits
    obtain ⟨c, rest, hcons⟩ := List.exists_cons_of_ne_nil hfirst
    have hc : c.isDigit :=
      isDigit_of_mem_digits (List.mem_of_mem_take (by rw [hcons]; exact List.mem_cons_self))
    rw [hcons] at hread ⊢
    rw [List.cons_append, readFixed_of_digit hc, ← List.cons_append, hread, hcast,
      abs_of_nonneg (not_lt.mp hpos)]
    rfl

end Msm8916.Decimal
