import Msm8916.Camera.Parcel
import Msm8916.Lib.Memory

/-!
`CameraMetadata::writeToParcel` and `CameraMetadata::readFromParcel`: a blob that is longer
than the metadata by its alignment, with the metadata at an aligned address of the sender.
-/

namespace Msm8916.Camera

open Memory

/-- `ALIGN_TO`: what is masked out of a number are its bits in `alignment - 1`. -/
def alignTo (val alignment : Nat) : Nat :=
  let sum := val + (alignment - 1)
  sum - (sum &&& (alignment - 1))

theorem alignTo_bounds (val : Nat) {alignment : Nat} (h : ∃ k, alignment = 2 ^ k) :
    val ≤ alignTo val alignment ∧ alignTo val alignment < val + alignment ∧
      alignment ∣ alignTo val alignment := by
  obtain ⟨k, rfl⟩ := h
  have hpos : 0 < 2 ^ k := Nat.two_pow_pos k
  have hmask : alignTo val (2 ^ k) = val + (2 ^ k - 1) - (val + (2 ^ k - 1)) % 2 ^ k := by
    rw [alignTo, Nat.and_two_pow_sub_one_eq_mod]
  have hlt := Nat.mod_lt (val + (2 ^ k - 1)) hpos
  rw [hmask]
  refine ⟨by omega, ?_, Nat.dvd_sub_mod _⟩
  have hle := Nat.mod_le (val + (2 ^ k - 1)) (2 ^ k)
  omega

/-- What the functions of `system/camera_metadata.h` do with metadata. -/
structure MetadataLibrary (M : Type) where
  /-- `get_camera_metadata_alignment` -/
  alignment : Nat
  alignment_pow : ∃ k, alignment = 2 ^ k
  /-- `copy_camera_metadata` into a place of the compact size -/
  copy : M → List UInt8
  length_copy_pos : ∀ metadata, 0 < (copy metadata).length
  /-- `allocate_copy_camera_metadata_checked` -/
  checked : List UInt8 → Option M

/-- What the copy of the bytes gives, which is checked. -/
def MetadataLibrary.receive {M : Type} (lib : MetadataLibrary M) (bytes : List UInt8) :
    Except Failure (Option M) :=
  match lib.checked bytes with
  | none => .error .badValue
  | some metadata => .ok (some metadata)

theorem MetadataLibrary.receive_ne_outside {M : Type} (lib : MetadataLibrary M)
    (bytes : List UInt8) : lib.receive bytes ≠ .error .outside := by
  rw [receive]
  cases lib.checked bytes with
  | none => exact fun h => by cases h
  | some metadata => exact fun h => by cases h

/-- The blob that `writeBlob` offers: its address, and what is in it. -/
structure BlobPlace where
  data : Nat
  memory : Nat → UInt8

/-- A signed number as a `size_t`. -/
def sizeT (value : Int) : Nat := (value % 2 ^ 64).toNat

theorem sizeT_natCast {n : Nat} (h : n < 2 ^ 64) : sizeT n = n := by
  rw [sizeT]
  omega

section Parcel

variable {β B M : Type} (fmt : ParcelFormat β B) (lib : MetadataLibrary M)

/-- The bytes of the blob that is sent. -/
def blobBytes (place : BlobPlace) (metadata : M) : List UInt8 :=
  let offset := alignTo place.data lib.alignment - place.data
  window (store place.memory offset (lib.copy metadata)) 0
    ((lib.copy metadata).length + lib.alignment)

/-- `writeToParcel`. If `writeBlob` fails there is no blob, and what is returned is the
result of the `writeInt32` after it. -/
def writeMetadata (metadata : Option M) (place : Option BlobPlace) : List β :=
  match metadata with
  | none => fmt.int32.write 0
  | some metadata =>
      let blobSize := (lib.copy metadata).length + lib.alignment
      match place with
      | none => fmt.int32.write (.ofInt blobSize) ++ fmt.int32.write 0
      | some place =>
          fmt.int32.write (.ofInt blobSize) ++ (fmt.blobs.write (blobBytes lib place metadata) ++
            fmt.int32.write (.ofInt (alignTo place.data lib.alignment - place.data : Nat)))

/-- The bytes that are taken for metadata, and what comes of them. -/
def checkBlob (blobSize offset : Nat) (blob : List UInt8) : Except Failure (Option M) :=
  if lib.alignment ≤ offset then .error .badValue
  else if blob.length < offset + (blobSize - lib.alignment) then .error .outside
  else lib.receive ((blob.drop offset).take (blobSize - lib.alignment))

/-- `readFromParcel`. -/
def readMetadata : Reader Failure β (Option M) := do
  let blobSizeTmp ← fmt.int32.read
  let blobSize := sizeT blobSizeTmp.toInt
  if blobSize = 0 then return none
  else if blobSize ≤ lib.alignment then throw .badValue
  else do
    let blob ← fmt.blobs.read blobSize
    let offsetTmp ← fmt.int32.read
    Reader.lift (checkBlob lib blobSize (sizeT offsetTmp.toInt) blob)

variable {fmt lib}

theorem readMetadata_eq : readMetadata fmt lib =
    fmt.int32.read >>= fun blobSizeTmp =>
      if sizeT blobSizeTmp.toInt = 0 then pure none
      else if sizeT blobSizeTmp.toInt ≤ lib.alignment then throw .badValue
      else fmt.blobs.read (sizeT blobSizeTmp.toInt) >>= fun blob =>
        fmt.int32.read >>= fun offsetTmp =>
          Reader.lift (checkBlob lib (sizeT blobSizeTmp.toInt) (sizeT offsetTmp.toInt) blob) := rfl

theorem length_blobBytes (lib : MetadataLibrary M) (place : BlobPlace) (metadata : M) :
    (blobBytes lib place metadata).length = (lib.copy metadata).length + lib.alignment :=
  length_window _ _ _

/-- Where the sender has put the metadata, the receiver finds it, wherever its own blob is. -/
theorem take_drop_blobBytes (place : BlobPlace) (metadata : M) :
    ((blobBytes lib place metadata).drop (alignTo place.data lib.alignment - place.data)).take
      (lib.copy metadata).length = lib.copy metadata := by
  have hlt := (alignTo_bounds place.data lib.alignment_pow).2.1
  rw [blobBytes, take_drop_window (by omega), Nat.zero_add, window_store_self]

theorem checkBlob_blobBytes (place : BlobPlace) (metadata : M) :
    checkBlob lib ((lib.copy metadata).length + lib.alignment)
        (alignTo place.data lib.alignment - place.data) (blobBytes lib place metadata) =
      lib.receive (lib.copy metadata) := by
  obtain ⟨hle, hlt, -⟩ := alignTo_bounds place.data lib.alignment_pow
  have hoffset : ¬ lib.alignment ≤ alignTo place.data lib.alignment - place.data := by omega
  have hlength := length_blobBytes lib place metadata
  rw [checkBlob, if_neg hoffset, if_neg (by omega), Nat.add_sub_cancel, take_drop_blobBytes]

/-- A number that is not negative as an `int32_t` arrives as a `size_t`. -/
theorem sizeT_toInt_ofInt {n : Nat} (h : n < 2 ^ 31) : sizeT (Word.ofInt n).toInt = n := by
  rw [Word.toInt_ofInt (by omega) (by exact_mod_cast h)]
  exact sizeT_natCast (by omega)

end Parcel

/-- Wherever the blobs of the two sides lie and whatever is in them, the receiver copies the
metadata that the sender has written. -/
theorem readMetadata_writeMetadata {β B M : Type} (fmt : ParcelFormat β B)
    (lib : MetadataLibrary M) (metadata : Option M) (place : BlobPlace)
    (hsize : ∀ source ∈ metadata, (lib.copy source).length + lib.alignment < 2 ^ 31)
    (rest : List β) :
    readMetadata fmt lib (writeMetadata fmt lib metadata (some place) ++ rest) =
      (metadata.elim (.ok none) fun source => lib.receive (lib.copy source), rest) := by
  cases metadata with
  | none =>
      rw [writeMetadata, readMetadata_eq, Reader.bind_of_ok (fmt.int32.read_write 0 rest)]
      rfl
  | some source =>
      have hsize := hsize source rfl
      have hcopy := lib.length_copy_pos source
      obtain ⟨hle, hlt, -⟩ := alignTo_bounds place.data lib.alignment_pow
      have hblob := sizeT_toInt_ofInt hsize
      have hoffset :
          sizeT (Word.ofInt (alignTo place.data lib.alignment - place.data : Nat)).toInt =
            alignTo place.data lib.alignment - place.data := sizeT_toInt_ofInt (by omega)
      have hread := fmt.blobs.read_write (blobBytes lib place source)
      rw [length_blobBytes] at hread
      have hbytes := hread (fmt.int32.write
        (.ofInt (alignTo place.data lib.alignment - place.data : Nat)) ++ rest)
      have hfirst := fmt.int32.read_write (.ofInt ((lib.copy source).length + lib.alignment : Nat))
        ((fmt.blobs.write (blobBytes lib place source) ++
          fmt.int32.write (.ofInt (alignTo place.data lib.alignment - place.data : Nat))) ++ rest)
      rw [writeMetadata, List.append_assoc, readMetadata_eq, Reader.bind_of_ok hfirst, hblob,
        if_neg (by omega), if_neg (by omega), List.append_assoc, Reader.bind_of_ok hbytes,
        Reader.bind_of_ok (fmt.int32.read_write _ rest), hoffset, checkBlob_blobBytes]
      rfl

/-- Metadata that is nothing but its bytes. -/
def plainMetadata : MetadataLibrary { bytes : List UInt8 // bytes ≠ [] } where
  alignment := 8
  alignment_pow := ⟨3, rfl⟩
  copy metadata := metadata.val
  length_copy_pos metadata := List.length_pos_iff.mpr metadata.property
  checked bytes := if h : bytes ≠ [] then some ⟨bytes, h⟩ else none

def threeBytes : { bytes : List UInt8 // bytes ≠ [] } := ⟨[1, 2, 3], by decide⟩

theorem readMetadata_writeMetadata_plain :
    readMetadata Item.format plainMetadata
        (writeMetadata Item.format plainMetadata (some threeBytes)
          (some ⟨5, fun _ => 0⟩) ++ []) =
      (.ok (some threeBytes), []) :=
  readMetadata_writeMetadata Item.format plainMetadata (some threeBytes)
    ⟨5, fun _ => 0⟩ (fun source hsource => by cases hsource; decide) []

/-- Whatever the parcel says of sizes and offsets, nothing outside the blob is taken for
metadata. -/
theorem readMetadata_avoids_outside {β B M : Type} (fmt : ParcelFormat β B)
    (lib : MetadataLibrary M) (hint32 : fmt.int32.read.Avoids .outside)
    (hblobs : ∀ n, (fmt.blobs.read n).Avoids .outside) :
    (readMetadata fmt lib).Avoids .outside := by
  rw [readMetadata_eq]
  apply hint32.bind
  intro _ blobSizeTmp _ _
  split_ifs with hzero hsmall
  · exact Reader.avoids_pure _ _
  · exact Reader.avoids_throw (by decide)
  · apply (hblobs _).bind
    intro _ blob _ hblob
    apply hint32.bind
    intro _ offsetTmp _ _
    apply Reader.avoids_lift
    have hlength := fmt.blobs.length_read _ _ _ _ hblob
    rw [checkBlob]
    split_ifs with hoffset hinside
    · exact fun h => by cases h
    · omega
    · exact lib.receive_ne_outside _

theorem readMetadata_avoids_outside_plain :
    (readMetadata Item.format plainMetadata).Avoids .outside :=
  readMetadata_avoids_outside Item.format plainMetadata Item.readInt32_avoids_outside
    Item.readBlob_avoids_outside

end Msm8916.Camera
