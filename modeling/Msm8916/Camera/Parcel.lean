import Mathlib.Data.String.Basic
import Mathlib.Order.Fin.Basic
import Mathlib.Tactic.Ring
import Msm8916.Lib.Codec

/-!
What the camera client library puts into parcels, and how its functions fail. What a parcel
does with a number, a string, a binder or a blob is a codec.
-/

namespace Msm8916.Camera

/-- `uint32_t`, also as what a parcel keeps of an `int32_t`. -/
abbrev Word := Fin (2 ^ 32)

/-- `int64_t`, as what a parcel keeps of it. -/
abbrev Long := Fin (2 ^ 64)

/-- Named, so that the numerals of all modules have the same one. -/
scoped instance wordNeZero : NeZero (2 ^ 32) := ⟨by decide⟩

scoped instance longNeZero : NeZero (2 ^ 64) := ⟨by decide⟩

def Word.toInt (word : Word) : Int :=
  if word.val < 2 ^ 31 then word.val else (word.val : Int) - 2 ^ 32

def Word.ofInt (value : Int) : Word := Fin.ofNat (2 ^ 32) (value % 2 ^ 32).toNat

theorem Word.toInt_ofInt {value : Int} (hlow : -2 ^ 31 ≤ value) (hhigh : value < 2 ^ 31) :
    (Word.ofInt value).toInt = value := by
  have hval : (Word.ofInt value).val = (value % 2 ^ 32).toNat := by
    apply Nat.mod_eq_of_lt
    omega
  rw [Word.toInt, hval]
  split_ifs <;> omega

theorem Word.val_ofInt {n : Nat} (h : n < 2 ^ 32) : (Word.ofInt n).val = n := by
  have hval : (Word.ofInt n).val = ((n : Int) % 2 ^ 32).toNat := by
    apply Nat.mod_eq_of_lt
    omega
  omega

/-- A `bool` as an `int32_t`. -/
def Word.ofBool (value : Bool) : Word := if value then 1 else 0

theorem Word.ofBool_ne_zero (value : Bool) : decide (Word.ofBool value ≠ 0) = value := by
  cases value <;> decide +kernel

/-- How a function ends that does not return `OK`. -/
inductive Failure where
  | badValue
  | notEnoughData
  | permissionDenied
  /-- `LOG_ALWAYS_FATAL_IF` -/
  | fatal
  /-- Something is read where there is nothing. -/
  | outside
deriving DecidableEq, Repr

/-- The blobs of a parcel. -/
structure BlobFormat (β : Type) where
  write : List UInt8 → List β
  read : Nat → Reader Failure β (List UInt8)
  read_write : ∀ bytes, (read bytes.length).Takes (write bytes) bytes
  length_read : ∀ n data bytes rest, read n data = (.ok bytes, rest) → bytes.length = n

/-- A string and a binder may be missing. -/
structure ParcelFormat (β B : Type) where
  int32 : Codec Failure β Word
  int64 : Codec Failure β Long
  string16 : Codec Failure β (Option String)
  strongBinder : Codec Failure β (Option B)
  interfaceToken : Codec Failure β String
  exceptionCode : Codec Failure β Word
  blobs : BlobFormat β
  /-- There is nothing to be read in a reply that has not been written. -/
  int32_nil : int32.read [] = (.error .notEnoughData, [])
  exceptionCode_nil : (exceptionCode.read []).2 = []

/-! ## Items -/

/-- What stands in a parcel, told apart by what wrote it. -/
inductive Item where
  | int32 (value : Word)
  | int64 (value : Long)
  | string8 (value : String)
  | string16 (value : Option String)
  | strongBinder (value : Option Nat)
  | interfaceToken (value : String)
  | exceptionCode (value : Word)
  | blob (value : List UInt8)
deriving DecidableEq, Repr

namespace Item

def readInt32 : Reader Failure Item Word
  | .int32 value :: rest => (.ok value, rest)
  | rest => (.error .notEnoughData, rest)

def readInt64 : Reader Failure Item Long
  | .int64 value :: rest => (.ok value, rest)
  | rest => (.error .notEnoughData, rest)

/-- `readString8` makes an empty string of what it cannot read. -/
def readString8 : Reader Failure Item String
  | .string8 value :: rest => (.ok value, rest)
  | rest => (.ok "", rest)

def readString16 : Reader Failure Item (Option String)
  | .string16 value :: rest => (.ok value, rest)
  | rest => (.ok none, rest)

def readStrongBinder : Reader Failure Item (Option Nat)
  | .strongBinder value :: rest => (.ok value, rest)
  | rest => (.ok none, rest)

def readInterfaceToken : Reader Failure Item String
  | .interfaceToken value :: rest => (.ok value, rest)
  | rest => (.error .notEnoughData, rest)

def readExceptionCode : Reader Failure Item Word
  | .exceptionCode value :: rest => (.ok value, rest)
  | rest => (.error .notEnoughData, rest)

def readBlob (length : Nat) : Reader Failure Item (List UInt8)
  | .blob value :: rest =>
      if value.length = length then (.ok value, rest) else (.error .badValue, rest)
  | rest => (.error .notEnoughData, rest)

theorem readInt32_avoids_outside : readInt32.Avoids .outside := by
  intro items h
  unfold readInt32 at h
  split at h <;> cases h

theorem readBlob_avoids_outside (length : Nat) : (readBlob length).Avoids .outside := by
  intro items h
  unfold readBlob at h
  split at h
  · split_ifs at h
    cases h
  · cases h

def int32Codec : Codec Failure Item Word where
  write value := [.int32 value]
  read := readInt32
  read_write _ _ := rfl

def string8Codec : Codec Failure Item String where
  write value := [.string8 value]
  read := readString8
  read_write _ _ := rfl

def blobFormat : BlobFormat Item where
  write value := [.blob value]
  read := readBlob
  read_write value rest := if_pos rfl
  length_read length data value rest h := by
    unfold readBlob at h
    split at h
    · split_ifs at h with hlength
      · rw [← Except.ok.inj (congrArg Prod.fst h), hlength]
      · cases congrArg Prod.fst h
    · cases congrArg Prod.fst h

def format : ParcelFormat Item Nat where
  int32 := int32Codec
  int64 :=
    { write := fun value => [.int64 value]
      read := readInt64
      read_write := fun _ _ => rfl }
  string16 :=
    { write := fun value => [.string16 value]
      read := readString16
      read_write := fun _ _ => rfl }
  strongBinder :=
    { write := fun value => [.strongBinder value]
      read := readStrongBinder
      read_write := fun _ _ => rfl }
  interfaceToken :=
    { write := fun value => [.interfaceToken value]
      read := readInterfaceToken
      read_write := fun _ _ => rfl }
  exceptionCode :=
    { write := fun value => [.exceptionCode value]
      read := readExceptionCode
      read_write := fun _ _ => rfl }
  blobs := blobFormat
  int32_nil := rfl
  exceptionCode_nil := rfl

end Item

end Msm8916.Camera
