import Msm8916.Lib.Buffer
import Msm8916.Lib.SemiOctet

/-!
`decodeAddress` of `gps/core/LocApiBase.cpp`, which reads the digits of an address in
semi-octets.
-/

namespace Msm8916.Core

open Buffer SemiOctet

def addrPrefix : UInt8 := 0x91

/-- The `if` on one half of a byte. -/
def storeDigit (string_size : Nat) (nibble : UInt8) (idxOutput : Nat) (addr_string : List Char) :
    Option (Nat × List Char) :=
  if nibble ≤ 9 ∧ idxOutput < string_size - 1 then do
    let addr_string ← write addr_string idxOutput (digitChar nibble.toNat)
    return (idxOutput + 1, addr_string)
  else
    return (idxOutput, addr_string)

/-- The loop over the bytes behind the prefix. -/
def decodeLoop (string_size : Nat) : List UInt8 → (idxOutput : Nat) → List Char →
    Option (Nat × List Char)
  | [], idxOutput, addr_string => some (idxOutput, addr_string)
  | ch :: data, idxOutput, addr_string => do
      let low := ch &&& 0x0F
      let hi := ch >>> 4
      let (idxOutput, addr_string) ← storeDigit string_size low idxOutput addr_string
      let (idxOutput, addr_string) ← storeDigit string_size hi idxOutput addr_string
      decodeLoop string_size data idxOutput addr_string

/-- `decodeAddress` on `data_size` bytes: what it returns and what it leaves in the memory at
`addr_string`. A null pointer is `none`. -/
def decodeAddress (addr_string : Option (List Char)) (string_size : Nat)
    (data : Option (List UInt8)) : Option (Nat × Option (List Char)) :=
  match data, addr_string with
  | some data, some addr_string => do
      let first ← data.head?
      if first ≠ addrPrefix then
        -- prefix not correct
        let addr_string ← write addr_string 0 NUL
        return (0, some addr_string)
      else
        let (idxOutput, addr_string) ← decodeLoop string_size data.tail 0 addr_string
        let addr_string ← write addr_string idxOutput NUL
        return (idxOutput, some addr_string)
  | _, addr_string => some (0, addr_string)

/-! ## What the loop stores -/

section Loop

variable {string_size : Nat} {out addr_string : List Char}

/-- The memory after the characters `out` are written over its start. -/
def written (out addr_string : List Char) : List Char := out ++ addr_string.drop out.length

theorem write_written (c : Char) (h : out.length < addr_string.length) :
    write (written out addr_string) out.length c = some (written (out ++ [c]) addr_string) := by
  rw [written, List.drop_eq_getElem_cons h, write_append rfl, written, List.append_assoc,
    List.length_append]
  rfl

theorem take_append_take (out more : List Char) (n : Nat) (digits : List Char) :
    ((out ++ more).take n ++ digits).take n = (out ++ (more ++ digits)).take n := by
  have hfront : ∀ front : List Char,
      (front.take n ++ digits).take n = (front ++ digits).take n := by
    intro front
    rw [List.take_append, List.take_append, List.take_take, List.length_take, Nat.min_self]
    congr 2
    omega
  rw [hfront, List.append_assoc]

/-- One half of a byte: what it has of a digit is stored, if there is room. -/
theorem storeDigit_spec (nibble : UInt8) (hsize : string_size ≤ addr_string.length)
    (hpos : 1 ≤ string_size) (hroom : out.length ≤ string_size - 1) :
    storeDigit string_size nibble out.length (written out addr_string) =
      some (((out ++ decimalDigits [nibble.toNat]).take (string_size - 1)).length,
        written ((out ++ decimalDigits [nibble.toNat]).take (string_size - 1)) addr_string) := by
  rw [storeDigit]
  by_cases hdigit : nibble ≤ 9
  · have hnat : nibble.toNat ≤ 9 := UInt8.le_iff_toNat_le.mp hdigit
    rw [decimalDigits_digit hnat]
    by_cases hfits : out.length < string_size - 1
    · have hall : (out ++ [digitChar nibble.toNat]).take (string_size - 1) =
          out ++ [digitChar nibble.toNat] :=
        List.take_of_length_le (by rw [List.length_append, List.length_singleton]; omega)
      rw [if_pos ⟨hdigit, hfits⟩, write_written _ (by omega), hall, List.length_append]
      rfl
    · have hfull : (out ++ [digitChar nibble.toNat]).take (string_size - 1) = out :=
        List.take_left' (by omega)
      rw [if_neg fun h => hfits h.2, hfull]
      rfl
  · have hnat : ¬ nibble.toNat ≤ 9 := fun h => hdigit (UInt8.le_iff_toNat_le.mpr h)
    rw [if_neg fun h => hdigit h.1, decimalDigits_filler hnat, List.append_nil,
      List.take_of_length_le hroom]
    rfl

/-- The loop stores the digits of the semi-octets as far as there is room. -/
theorem decodeLoop_spec (data : List UInt8) (hsize : string_size ≤ addr_string.length)
    (hpos : 1 ≤ string_size) (hroom : out.length ≤ string_size - 1) :
    decodeLoop string_size data out.length (written out addr_string) =
      some (((out ++ decimalDigits (semiOctets data)).take (string_size - 1)).length,
        written ((out ++ decimalDigits (semiOctets data)).take (string_size - 1))
          addr_string) := by
  induction data generalizing out with
  | nil =>
      have hnone : out ++ decimalDigits (semiOctets []) = out := List.append_nil out
      rw [hnone, List.take_of_length_le hroom]
      rfl
  | cons ch data ih =>
      have hlow : (ch &&& 0x0F).toNat = ch.toNat % 16 := Nat.and_two_pow_sub_one_eq_mod _ 4
      have hhi : (ch >>> 4).toNat = ch.toNat / 16 := Nat.shiftRight_eq_div_pow _ 4
      have hshort : ∀ text : List Char, (text.take (string_size - 1)).length ≤ string_size - 1 :=
        fun text => List.length_take_le _ text
      have hdigits : decimalDigits (semiOctets (ch :: data)) =
          decimalDigits [ch.toNat % 16] ++
            (decimalDigits [ch.toNat / 16] ++ decimalDigits (semiOctets data)) := by
        rw [semiOctets_cons, decimalDigits_append, ← List.singleton_append, decimalDigits_append,
          List.append_assoc]
      simp only [decodeLoop, storeDigit_spec _ hsize hpos hroom,
        storeDigit_spec _ hsize hpos (hshort _), Option.bind_eq_bind, Option.bind_some,
        ih (hshort _)]
      rw [take_append_take, take_append_take, hdigits, hlow, hhi]

end Loop

/-! ## The decoded address -/

/-- The digits of the semi-octets that an output of the size has room for. -/
def fittingDigits (string_size : Nat) (data : List UInt8) : List Char :=
  (decimalDigits (semiOctets data)).take (string_size - 1)

section Whole

variable {string_size : Nat} {addr_string : List Char}

theorem length_fittingDigits (hpos : 1 ≤ string_size) (data : List UInt8) :
    (fittingDigits string_size data).length + 1 ≤ string_size := by
  have hle := List.length_take_le (string_size - 1) (decimalDigits (semiOctets data))
  rw [fittingDigits]
  omega

theorem NUL_notMem_fittingDigits (string_size : Nat) (data : List UInt8) :
    NUL ∉ fittingDigits string_size data :=
  fun hmem => NUL_notMem_decimalDigits _ (List.mem_of_mem_take hmem)

theorem fittingDigits_tbcd {digits : List (Fin 10)} (hfits : digits.length ≤ string_size - 1) :
    fittingDigits string_size (tbcd digits) = digitString digits := by
  rw [fittingDigits, decimalDigits_tbcd]
  exact List.take_of_length_le (by rw [length_digitString]; exact hfits)

theorem decodeAddress_eq (hpos : 1 ≤ string_size) (hsize : string_size ≤ addr_string.length)
    (data : List UInt8) :
    decodeAddress (some addr_string) string_size (some (addrPrefix :: data)) =
      some ((fittingDigits string_size data).length,
        some (fittingDigits string_size data ++
          NUL :: addr_string.drop ((fittingDigits string_size data).length + 1))) := by
  have hempty : ([] : List Char).length ≤ string_size - 1 := Nat.zero_le _
  have hloop : decodeLoop string_size data 0 addr_string =
      some ((fittingDigits string_size data).length,
        written (fittingDigits string_size data) addr_string) :=
    decodeLoop_spec data hsize hpos hempty
  have hroom := length_fittingDigits hpos data
  have hinside : (fittingDigits string_size data).length < addr_string.length := by omega
  have hend := write_written NUL hinside
  have hwritten : written (fittingDigits string_size data ++ [NUL]) addr_string =
      fittingDigits string_size data ++
        NUL :: addr_string.drop ((fittingDigits string_size data).length + 1) := by
    rw [written, List.append_assoc, List.length_append]
    rfl
  rw [hwritten] at hend
  rw [decodeAddress, List.head?_cons, List.tail_cons, Option.bind_eq_bind, Option.bind_some,
    if_neg (not_not.mpr rfl), hloop, Option.bind_eq_bind, Option.bind_some]
  simp only [hend, Option.bind_eq_bind, Option.bind_some]
  rfl

/-- `decodeAddress` on an address with the prefix writes the digits of its semi-octets as far as
the output has room for them and a NUL, and returns their number; what is behind the NUL stays as
it was. A packed string of digits that fits comes out again. -/
theorem decodeAddress_right (hpos : 1 ≤ string_size) (hsize : string_size ≤ addr_string.length) :
    (∀ data : List UInt8,
      decodeAddress (some addr_string) string_size (some (addrPrefix :: data)) =
          some ((fittingDigits string_size data).length,
            some (fittingDigits string_size data ++
              NUL :: addr_string.drop ((fittingDigits string_size data).length + 1))) ∧
        (fittingDigits string_size data).length + 1 ≤ string_size ∧
        NUL ∉ fittingDigits string_size data) ∧
    ∀ digits : List (Fin 10), digits.length ≤ string_size - 1 →
      decodeAddress (some addr_string) string_size (some (addrPrefix :: tbcd digits)) =
        some (digits.length, some (digitString digits ++
          NUL :: addr_string.drop (digits.length + 1))) := by
  constructor
  · intro data
    exact ⟨decodeAddress_eq hpos hsize data, length_fittingDigits hpos data,
      NUL_notMem_fittingDigits string_size data⟩
  · intro digits hfits
    rw [decodeAddress_eq hpos hsize, fittingDigits_tbcd hfits, length_digitString]

theorem decodeAddress_right_short :
    (∀ data : List UInt8,
      decodeAddress (some ['x', 'x', 'x', 'x']) 3 (some (addrPrefix :: data)) =
          some ((fittingDigits 3 data).length,
            some (fittingDigits 3 data ++
              NUL :: ['x', 'x', 'x', 'x'].drop ((fittingDigits 3 data).length + 1))) ∧
        (fittingDigits 3 data).length + 1 ≤ 3 ∧ NUL ∉ fittingDigits 3 data) ∧
    ∀ digits : List (Fin 10), digits.length ≤ 3 - 1 →
      decodeAddress (some ['x', 'x', 'x', 'x']) 3 (some (addrPrefix :: tbcd digits)) =
        some (digits.length, some (digitString digits ++
          NUL :: ['x', 'x', 'x', 'x'].drop (digits.length + 1))) :=
  decodeAddress_right (by decide) (by decide)

end Whole

end Msm8916.Core
