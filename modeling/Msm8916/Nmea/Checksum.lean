import Msm8916.Nmea.Sentence

/-!
`loc_eng_nmea_put_checksum` against its description. The checksum is right, and the length
that is returned, which goes to `nmea_cb` with the sentence, leaves out the `$`.
-/

namespace Msm8916.Nmea

/-! ## What the function is to do -/

/-- The exclusive or of all characters of a text. -/
def xorAll (text : List Char) : UInt8 :=
  (text.map fun c => UInt8.ofNat c.toNat).foldr (· ^^^ ·) 0

def hexDigits : List Char :=
  ['0', '1', '2', '3', '4', '5', '6', '7', '8', '9', 'A', 'B', 'C', 'D', 'E', 'F']

/-- The two upper-case hexadecimal digits of a byte. -/
def IsHex (value : UInt8) (high low : Char) : Prop :=
  ∃ i j : Nat, hexDigits[i]? = some high ∧ hexDigits[j]? = some low ∧ value.toNat = 16 * i + j

/-- The sentence with `*HH\r\n` after it. -/
def Checksummed (pNmea result : List Char) : Prop :=
  ∃ high low, IsHex (xorAll (pNmea.drop 1)) high low ∧
    result = pNmea ++ ['*', high, low, '\r', '\n']

/-- The sentence gets its checksum, and what is returned is the length of the result. -/
structure PutsChecksum (pNmea : List Char) (maxSize : Nat) : Prop where
  checksummed : Checksummed pNmea (locEngNmeaPutChecksum pNmea maxSize).1
  length : (locEngNmeaPutChecksum pNmea maxSize).2 =
    (locEngNmeaPutChecksum pNmea maxSize).1.length

/-! ## What it does -/

theorem checksum_from (text : List Char) (sum : UInt8) :
    text.foldl (fun sum c => sum ^^^ UInt8.ofNat c.toNat) sum = sum ^^^ xorAll text := by
  induction text generalizing sum with
  | nil => exact UInt8.xor_zero.symm
  | cons c text ih =>
      rw [List.foldl_cons, ih, UInt8.xor_assoc]
      rfl

theorem checksum_eq (text : List Char) : checksum text = xorAll text :=
  (checksum_from text 0).trans UInt8.zero_xor

theorem hexDigits_digitChar {n : Nat} (h : n < 16) :
    hexDigits[n]? = some (Nat.digitChar n).toUpper := by
  have hall : ∀ n < 16, hexDigits[n]? = some (Nat.digitChar n).toUpper := by decide
  exact hall n h

theorem isHex_digits (sum : UInt8) :
    IsHex sum (Nat.digitChar (sum.toNat / 16)).toUpper
      (Nat.digitChar (sum.toNat % 16)).toUpper := by
  have hsum := sum.toNat_lt
  refine ⟨sum.toNat / 16, sum.toNat % 16, hexDigits_digitChar ?_, hexDigits_digitChar ?_, ?_⟩
  · omega
  · omega
  · omega

theorem checksummed_of_room {payload : List Char} {maxSize : Nat}
    (hroom : payload.length + 6 < maxSize) :
    Checksummed ('$' :: payload) (locEngNmeaPutChecksum ('$' :: payload) maxSize).1 := by
  rw [@put_checksum_of_room ('$' :: payload) maxSize hroom]
  refine ⟨_, _, ?_, rfl⟩
  rw [checksum_eq]
  exact isHex_digits _

/-- A sentence with room gets its checksum, and a length that is one too small. -/
theorem put_checksum_one_short {payload : List Char} {maxSize : Nat}
    (hroom : payload.length + 6 < maxSize) :
    ¬ PutsChecksum ('$' :: payload) maxSize ∧
      Checksummed ('$' :: payload) (locEngNmeaPutChecksum ('$' :: payload) maxSize).1 ∧
      (locEngNmeaPutChecksum ('$' :: payload) maxSize).2 + 1 =
        (locEngNmeaPutChecksum ('$' :: payload) maxSize).1.length := by
  have hshort : (locEngNmeaPutChecksum ('$' :: payload) maxSize).2 + 1 =
      (locEngNmeaPutChecksum ('$' :: payload) maxSize).1.length := by
    rw [@put_checksum_of_room ('$' :: payload) maxSize hroom, List.length_append,
      List.length_cons, length_checksumText]
    rfl
  refine ⟨fun h => ?_, checksummed_of_room hroom, hshort⟩
  rw [← h.length] at hshort
  exact Nat.succ_ne_self _ hshort

/-- The blank sentence for the track and the speed. -/
theorem put_checksum_one_short_vtg :
    "GPVTG,,T,,M,,N,,K,N".toList.length + 6 < nmeaSentenceMaxLength ∧
      (locEngNmeaPutChecksum ('$' :: "GPVTG,,T,,M,,N,,K,N".toList) nmeaSentenceMaxLength).2 + 1 =
        (locEngNmeaPutChecksum ('$' :: "GPVTG,,T,,M,,N,,K,N".toList)
          nmeaSentenceMaxLength).1.length :=
  ⟨by decide, (put_checksum_one_short (by decide)).2.2⟩

/-- It is passed on with 24 characters, and has 25. -/
theorem blank_vtg_one_short :
    ¬ ∀ (payload : List Char) (maxSize : Nat), payload.length + 6 < maxSize →
      PutsChecksum ('$' :: payload) maxSize := by
  intro h
  have hlength := (h "GPVTG,,T,,M,,N,,K,N".toList nmeaSentenceMaxLength (by decide)).length
  revert hlength
  decide

/-! ## Sentences that come out whole -/

/-- The end of the sentence is there: nothing of it has been cut. -/
def Whole (sentence : List Char) : Prop := '\n' ∈ sentence

instance : DecidablePred Whole := fun sentence => inferInstanceAs (Decidable ('\n' ∈ sentence))

theorem whole_iff {sentence : List Char} (h : '\n' ∉ sentence) :
    Whole (locEngNmeaPutChecksum sentence nmeaSentenceMaxLength).1 ↔
      (sentence.drop 1).length + 6 < nmeaSentenceMaxLength := by
  constructor
  · intro hwhole
    by_contra hroom
    rcases List.mem_append.mp hwhole with hsentence | hcut
    · exact h hsentence
    · apply absurd rfl (ne_newline_of_cut _ hcut)
      omega
  · intro hroom
    apply List.mem_append_right
    rw [List.take_of_length_le]
    · exact List.mem_of_getElem? (i := 4) rfl
    · rw [length_checksumText]
      omega

end Msm8916.Nmea
