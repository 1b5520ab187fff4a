import Mathlib.Data.List.Basic

/-!
Digits in semi-octets: the low half of each byte comes first. Telephony binary coded decimal
packs a string of decimal digits so, and fills an odd one up with the value 15.
-/

namespace Msm8916.SemiOctet

def semiOctets (bytes : List UInt8) : List Nat :=
  bytes.flatMap fun byte => [byte.toNat % 16, byte.toNat / 16]

def digitChar (n : Nat) : Char := Char.ofNat (n + '0'.toNat)

/-- The decimal digits among the semi-octets. -/
def decimalDigits (nibbles : List Nat) : List Char := (nibbles.filter (· ≤ 9)).map digitChar

def digitString (digits : List (Fin 10)) : List Char := digits.map fun d => digitChar d.val

/-- The string of digits packed. -/
def tbcd : List (Fin 10) → List UInt8
  | [] => []
  | [d] => [UInt8.ofNat (16 * 15 + d)]
  | d :: e :: digits => UInt8.ofNat (16 * e + d) :: tbcd digits

theorem semiOctets_cons (byte : UInt8) (bytes : List UInt8) :
    semiOctets (byte :: bytes) = [byte.toNat % 16, byte.toNat / 16] ++ semiOctets bytes :=
  List.flatMap_cons

theorem decimalDigits_append (first second : List Nat) :
    decimalDigits (first ++ second) = decimalDigits first ++ decimalDigits second := by
  rw [decimalDigits, List.filter_append, List.map_append, decimalDigits, decimalDigits]

theorem decimalDigits_digit {n : Nat} (h : n ≤ 9) : decimalDigits [n] = [digitChar n] := by
  simp [decimalDigits, h]

theorem decimalDigits_filler {n : Nat} (h : ¬ n ≤ 9) : decimalDigits [n] = [] := by
  simp [decimalDigits, Nat.lt_of_not_le h]

theorem digitChar_ne_NUL {n : Nat} (h : n ≤ 9) : digitChar n ≠ '\x00' := by
  have hall : ∀ n ≤ 9, digitChar n ≠ '\x00' := by decide
  exact hall n h

@[simp]
theorem length_digitString (digits : List (Fin 10)) :
    (digitString digits).length = digits.length := List.length_map _

theorem NUL_notMem_decimalDigits (nibbles : List Nat) : '\x00' ∉ decimalDigits nibbles := by
  intro hmem
  obtain ⟨n, hn, hchar⟩ := List.mem_map.mp hmem
  exact digitChar_ne_NUL (of_decide_eq_true (List.mem_filter.mp hn).2) hchar

/-- The semi-octets of a byte with two values. -/
theorem semiOctets_pair {low high : Nat} (hlow : low < 16) (hhigh : high < 16)
    (bytes : List UInt8) :
    semiOctets (UInt8.ofNat (16 * high + low) :: bytes) = [low, high] ++ semiOctets bytes := by
  have hvalue : (UInt8.ofNat (16 * high + low)).toNat = 16 * high + low :=
    UInt8.toNat_ofNat_of_lt' (by change _ < 256; omega)
  have hmod : (16 * high + low) % 16 = low := by omega
  have hdiv : (16 * high + low) / 16 = high := by omega
  rw [semiOctets_cons, hvalue, hmod, hdiv]

/-- The digits of a packed string are the string. -/
theorem decimalDigits_tbcd (digits : List (Fin 10)) :
    decimalDigits (semiOctets (tbcd digits)) = digitString digits := by
  induction digits using tbcd.induct with
  | case1 => rfl
  | case2 d =>
      have hd := d.isLt
      have hdigit : (d : Nat) ≤ 9 := by omega
      have hpair : semiOctets [UInt8.ofNat (16 * 15 + d)] = [(d : Nat), 15] ++ semiOctets [] :=
        semiOctets_pair (by omega) (by decide) []
      rw [tbcd, hpair]
      change decimalDigits ([(d : Nat)] ++ [15]) = _
      rw [decimalDigits_append, decimalDigits_digit hdigit, decimalDigits_filler (by decide)]
      rfl
  | case3 d e digits ih =>
      have hd := d.isLt
      have he := e.isLt
      have hfirst : (d : Nat) ≤ 9 := by omega
      have hsecond : (e : Nat) ≤ 9 := by omega
      rw [tbcd, semiOctets_pair (by omega) (by omega), decimalDigits_append, ih]
      change decimalDigits ([(d : Nat)] ++ [(e : Nat)]) ++ _ = _
      rw [decimalDigits_append, decimalDigits_digit hfirst, decimalDigits_digit hsecond]
      rfl

end Msm8916.SemiOctet
