import Mathlib.Data.Nat.Digits.Defs
import Msm8916.Lib.CString

/-!
Percent-encoding: characters that are special are written as the percent sign and two
hexadecimal digits.
-/

namespace Msm8916.Percent

open CString

variable {special : Char → Bool}

def hexDigit (n : Nat) : Char := (Nat.digitChar n).toUpper

def escape (c : Char) : List Char := ['%', hexDigit (c.toNat / 16), hexDigit (c.toNat % 16)]

def encodeChar (special : Char → Bool) (c : Char) : List Char :=
  if special c then escape c else [c]

def percentEncode (special : Char → Bool) (s : List Char) : List Char :=
  s.flatMap (encodeChar special)

/-- What a text stands for, if every percent sign in it has two digits. -/
def percentDecode : List Char → Option (List Char)
  | [] => some []
  | '%' :: high :: low :: text => do
      let high ← digitValue high
      let low ← digitValue low
      let decoded ← percentDecode text
      return Char.ofNat (16 * high + low) :: decoded
  | c :: text => do
      let decoded ← percentDecode text
      if c = '%' then none else return c :: decoded

theorem percentEncode_append (special : Char → Bool) (s t : List Char) :
    percentEncode special (s ++ t) = percentEncode special s ++ percentEncode special t :=
  List.flatMap_append

theorem percentEncode_singleton (special : Char → Bool) (c : Char) :
    percentEncode special [c] = encodeChar special c := List.flatMap_singleton _ _

theorem digitValue_hexDigit {n : Nat} (h : n < 16) : digitValue (hexDigit n) = some n := by
  have hall : ∀ n < 16, digitValue (hexDigit n) = some n := by decide
  exact hall n h

theorem percentDecode_escape {c : Char} (hc : c.toNat < 256) (text : List Char) :
    percentDecode (escape c ++ text) = (percentDecode text).map (c :: ·) := by
  have hhigh : digitValue (hexDigit (c.toNat / 16)) = some (c.toNat / 16) :=
    digitValue_hexDigit (by omega)
  have hlow : digitValue (hexDigit (c.toNat % 16)) = some (c.toNat % 16) :=
    digitValue_hexDigit (by omega)
  have hc : Char.ofNat (16 * (c.toNat / 16) + c.toNat % 16) = c := by
    rw [Nat.div_add_mod, Char.ofNat_toNat]
  change percentDecode ('%' :: hexDigit (c.toNat / 16) :: hexDigit (c.toNat % 16) :: text) = _
  rw [percentDecode, hhigh, hlow]
  simp only [Option.bind_eq_bind, Option.bind_some, hc]
  cases percentDecode text with
  | none => rfl
  | some decoded => rfl

theorem percentDecode_cons {c : Char} (hc : c ≠ '%') (text : List Char) :
    percentDecode (c :: text) = (percentDecode text).map (c :: ·) := by
  rw [percentDecode]
  · cases percentDecode text with
    | none => rfl
    | some decoded => simp [hc]
  · rintro high low rest rfl
    exact absurd rfl hc

/-- Decoding gives the text back that was encoded. -/
theorem percentDecode_percentEncode (hpercent : special '%' = true)
    (hspecial : ∀ c, special c = true → c.toNat < 256) (s : List Char) :
    percentDecode (percentEncode special s) = some s := by
  induction s with
  | nil => rfl
  | cons c s ih =>
      have hcons : percentEncode special (c :: s) =
          encodeChar special c ++ percentEncode special s := List.flatMap_cons
      rw [hcons, encodeChar]
      split
      · rename_i hc
        rw [percentDecode_escape (hspecial c hc), ih]
        rfl
      · rename_i hc
        have hne : c ≠ '%' := by
          rintro rfl
          exact hc hpercent
        rw [List.singleton_append, percentDecode_cons hne, ih]
        rfl

/-- A character of an encoded text is a plain one of the text, or part of an escape. -/
theorem mem_percentEncode (hspecial : ∀ c, special c = true → c.toNat < 256) {s : List Char}
    {c : Char} (hc : c ∈ percentEncode special s) :
    c ∈ s ∧ special c = false ∨ c = '%' ∨ (digitValue c).isSome := by
  obtain ⟨d, hd, hmem⟩ := List.mem_flatMap.mp hc
  unfold encodeChar at hmem
  split at hmem
  · rename_i hsp
    have hlt := hspecial d hsp
    have hdigit : ∀ n < 16, (digitValue (hexDigit n)).isSome := fun n hn => by
      rw [digitValue_hexDigit hn]
      rfl
    rcases List.mem_cons.mp hmem with rfl | hmem
    · exact .inr (.inl rfl)
    · rcases List.mem_cons.mp hmem with rfl | hmem
      · exact .inr (.inr (hdigit _ (by omega)))
      · obtain rfl := List.mem_singleton.mp hmem
        exact .inr (.inr (hdigit _ (by omega)))
  · rename_i hsp
    obtain rfl := List.mem_singleton.mp hmem
    exact .inl ⟨hd, Bool.eq_false_iff.mpr hsp⟩

end Msm8916.Percent
