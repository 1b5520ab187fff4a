import Msm8916.Camera.MetadataParcel

/-!
`OutputConfiguration`, `CaptureRequest` and `CaptureResultExtras` in parcels. A surface stands
for itself by the binder of its producer.
-/

namespace Msm8916.Camera

/-- `OutputConfiguration::INVALID_ROTATION` -/
def invalidRotation : Word := .ofInt (-1)

structure OutputConfiguration (B : Type) where
  mGbp : Option B
  mRotation : Word
deriving DecidableEq, Repr

structure CaptureRequest (M B : Type) where
  mMetadata : Option M
  mSurfaceList : List (Option B)
  mIsReprocess : Bool
deriving DecidableEq, Repr

structure CaptureResultExtras where
  requestId : Word
  burstId : Word
  afTriggerId : Word
  precaptureTriggerId : Word
  frameNumber : Long
  partialResultCount : Word
deriving DecidableEq, Repr

/-- The constructor. -/
def CaptureResultExtras.new : CaptureResultExtras := ⟨.ofInt (-1), 0, 0, 0, 0, 0⟩

/-- `new CaptureRequest()` -/
def CaptureRequest.new {M B : Type} : CaptureRequest M B := ⟨none, [], false⟩

/-- The metadata as it is taken out of a parcel that is read whether or not it fails. -/
def MetadataLibrary.arriving {M : Type} (lib : MetadataLibrary M) (metadata : Option M) :
    Option M :=
  match metadata.elim (.ok none) fun source => lib.receive (lib.copy source) with
  | .ok metadata => metadata
  | .error _ => none

section Parcel

variable {β B M : Type} (fmt : ParcelFormat β B) (lib : MetadataLibrary M)

/-- `readInt32` without a place for the result: there is a number in any case. -/
def ParcelFormat.readInt32 : Reader Failure β Word := fmt.int32.read.getD 0

/-- `readString16Inplace` -/
def ParcelFormat.readString16 : Reader Failure β (Option String) := fmt.string16.read.getD none

def ParcelFormat.readStrongBinder : Reader Failure β (Option B) :=
  fmt.strongBinder.read.getD none

/-- Metadata that may be missing. Where its reading fails, it is empty. -/
def readPresentMetadata : Reader Failure β (Option M) := do
  let present ← fmt.readInt32
  if present ≠ 0 then do
    match ← (readMetadata fmt lib).attempt with
    | .error _ => return none
    | .ok metadata => return metadata
  else return none

def OutputConfiguration.write (configuration : OutputConfiguration B) : List β :=
  fmt.int32.write configuration.mRotation ++ (fmt.string16.write (some "unknown_name") ++
    fmt.strongBinder.write configuration.mGbp)

/-- The constructor that takes a parcel. -/
def OutputConfiguration.ofParcel : Reader Failure β (OutputConfiguration B) := do
  match ← fmt.int32.read.attempt with
  | .error _ => return ⟨none, invalidRotation⟩
  | .ok rotation =>
      let _ ← fmt.readString16
      let gbp ← fmt.readStrongBinder
      return ⟨gbp, rotation⟩

/-- What stands for a surface: the name of a class, a name and a binder. Without the first
there is a null and nothing more. -/
def writeSurface (surface : Option B) : List β :=
  fmt.string16.write (some "android.view.Surface") ++
    (fmt.string16.write (some "unknown_name") ++ fmt.strongBinder.write surface)

/-- An element of a parcelable array. -/
def writeSlot : Option (Option B) → List β
  | none => fmt.string16.write none
  | some surface => writeSurface fmt surface

/-- A turn of the loop of `CaptureRequest::readFromParcel`. -/
def readSurface : Reader Failure β (Option (Option B)) := do
  match ← fmt.readString16 with
  | none => return none
  | some _ =>
      let _ ← fmt.readString16
      let binder ← fmt.readStrongBinder
      return some binder

def CaptureRequest.write (request : CaptureRequest M B) (place : BlobPlace) : List β :=
  writeMetadata fmt lib request.mMetadata (some place) ++
    (fmt.int32.write (.ofInt request.mSurfaceList.length) ++
      (request.mSurfaceList.flatMap (writeSurface fmt) ++
        fmt.int32.write (.ofBool request.mIsReprocess)))

/-- `CaptureRequest::readFromParcel`: what it returns, and the request then. -/
def CaptureRequest.readFromParcel (request : CaptureRequest M B) :
    Reader Failure β (Except Failure Unit × CaptureRequest M B) := do
  match ← (readMetadata fmt lib).attempt with
  | .error err => return (.error err, { request with mMetadata := none, mSurfaceList := [] })
  | .ok mMetadata =>
      match ← fmt.int32.read.attempt with
      | .error err => return (.error err, { request with mMetadata, mSurfaceList := [] })
      | .ok size =>
          let slots ← (readSurface fmt).many size.toInt.toNat
          let mSurfaceList := slots.filterMap id
          match ← fmt.int32.read.attempt with
          | .error err => return (.error err, { request with mMetadata, mSurfaceList })
          | .ok isReprocess => return (.ok (), ⟨mMetadata, mSurfaceList, isReprocess ≠ 0⟩)

def CaptureResultExtras.write (extras : CaptureResultExtras) : List β :=
  fmt.int32.write extras.requestId ++ (fmt.int32.write extras.burstId ++
    (fmt.int32.write extras.afTriggerId ++ (fmt.int32.write extras.precaptureTriggerId ++
      (fmt.int64.write extras.frameNumber ++ fmt.int32.write extras.partialResultCount))))

/-- `CaptureResultExtras::readFromParcel`: what cannot be read stays. -/
def CaptureResultExtras.readFromParcel (extras : CaptureResultExtras) :
    Reader Failure β CaptureResultExtras := do
  let requestId ← fmt.int32.read.getD extras.requestId
  let burstId ← fmt.int32.read.getD extras.burstId
  let afTriggerId ← fmt.int32.read.getD extras.afTriggerId
  let precaptureTriggerId ← fmt.int32.read.getD extras.precaptureTriggerId
  let frameNumber ← fmt.int64.read.getD extras.frameNumber
  let partialResultCount ← fmt.int32.read.getD extras.partialResultCount
  return { requestId, burstId, afTriggerId, precaptureTriggerId, frameNumber, partialResultCount }

variable {fmt lib}

theorem readPresentMetadata_takes (metadata : Option M) (place : BlobPlace)
    (hsize : ∀ source ∈ metadata, (lib.copy source).length + lib.alignment < 2 ^ 31) :
    (readPresentMetadata fmt lib).Takes
      (fmt.int32.write 1 ++ writeMetadata fmt lib metadata (some place))
      (lib.arriving metadata) := by
  have hread := readMetadata_writeMetadata fmt lib metadata place hsize
  apply ((fmt.int32.read_write 1).getD 0).bind
  rw [if_pos (by decide), ← List.append_nil (writeMetadata _ _ _ _), MetadataLibrary.arriving]
  cases hout : metadata.elim (.ok none) fun source => lib.receive (lib.copy source) with
  | error failure =>
      have hrefuses : (readMetadata fmt lib).Refuses
          (writeMetadata fmt lib metadata (some place)) failure := by
        intro rest
        rw [hread rest, hout]
      apply hrefuses.attempt.bind
      exact Reader.takes_pure _
  | ok out =>
      have htakes : (readMetadata fmt lib).Takes
          (writeMetadata fmt lib metadata (some place)) out := by
        intro rest
        rw [hread rest, hout]
      apply htakes.attempt.bind
      exact Reader.takes_pure _

theorem OutputConfiguration.ofParcel_takes (configuration : OutputConfiguration B) :
    (ofParcel fmt).Takes (configuration.write fmt) configuration := by
  apply (fmt.int32.read_write configuration.mRotation).attempt.bind
  apply ((fmt.string16.read_write (some "unknown_name")).getD none).bind
  exact ((fmt.strongBinder.read_write configuration.mGbp).getD none).bind_pure _

theorem readSurface_takes (slot : Option (Option B)) :
    (readSurface fmt).Takes (writeSlot fmt slot) slot := by
  cases slot with
  | none =>
      rw [← List.append_nil (writeSlot fmt none)]
      apply ((fmt.string16.read_write none).getD none).bind
      exact Reader.takes_pure none
  | some surface =>
      apply ((fmt.string16.read_write (some "android.view.Surface")).getD none).bind
      apply ((fmt.string16.read_write (some "unknown_name")).getD none).bind
      exact ((fmt.strongBinder.read_write surface).getD none).bind_pure _

theorem CaptureResultExtras.readFromParcel_takes (extras old : CaptureResultExtras) :
    (old.readFromParcel fmt).Takes (extras.write fmt) extras := by
  apply ((fmt.int32.read_write extras.requestId).getD old.requestId).bind
  apply ((fmt.int32.read_write extras.burstId).getD old.burstId).bind
  apply ((fmt.int32.read_write extras.afTriggerId).getD old.afTriggerId).bind
  apply ((fmt.int32.read_write extras.precaptureTriggerId).getD old.precaptureTriggerId).bind
  apply ((fmt.int64.read_write extras.frameNumber).getD old.frameNumber).bind
  exact ((fmt.int32.read_write extras.partialResultCount).getD old.partialResultCount).bind_pure _

/-- What fits into a parcel: its sizes are no negative numbers of 32 bits. -/
structure CaptureRequest.Fits (lib : MetadataLibrary M) (request : CaptureRequest M B) : Prop where
  metadata : ∀ source ∈ request.mMetadata, (lib.copy source).length + lib.alignment < 2 ^ 31
  surfaces : request.mSurfaceList.length < 2 ^ 31

/-- The metadata of a request as the receiver gets it. -/
def CaptureRequest.received (lib : MetadataLibrary M) (request : CaptureRequest M B) :
    Except Failure (CaptureRequest M B) :=
  (request.mMetadata.elim (.ok none) fun source => lib.receive (lib.copy source)).map
    fun mMetadata => { request with mMetadata }

variable {request received : CaptureRequest M B}

/-- The surfaces of a request are those that are no null, whoever wrote the parcel. -/
theorem CaptureRequest.readFromParcel_slots {mMetadata : Option M} {items : List β}
    (hread : (readMetadata fmt lib).Takes items mMetadata) {slots : List (Option (Option B))}
    (hslots : slots.length < 2 ^ 31) (isReprocess : Word) (old : CaptureRequest M B) :
    (old.readFromParcel fmt lib).Takes
      (items ++ (fmt.int32.write (.ofInt slots.length) ++
        (slots.flatMap (writeSlot fmt) ++ fmt.int32.write isReprocess)))
      (.ok (), ⟨mMetadata, slots.filterMap id, isReprocess ≠ 0⟩) := by
  have hsize : (Word.ofInt slots.length).toInt.toNat = slots.length := by
    rw [Word.toInt_ofInt (by omega) (by exact_mod_cast hslots), Int.toNat_natCast]
  have hmany : ((readSurface fmt).many slots.length).Takes (slots.flatMap (writeSlot fmt)) slots :=
    Reader.Takes.many fun slot _ => readSurface_takes slot
  rw [← hsize] at hmany
  apply hread.attempt.bind
  apply (fmt.int32.read_write _).attempt.bind
  apply hmany.bind
  rw [← List.append_nil (fmt.int32.write isReprocess)]
  apply (fmt.int32.read_write isReprocess).attempt.bind
  exact Reader.takes_pure _

theorem CaptureRequest.readFromParcel_takes (hfits : request.Fits lib)
    (hreceived : request.received lib = .ok received) (place : BlobPlace)
    (old : CaptureRequest M B) :
    (old.readFromParcel fmt lib).Takes (request.write fmt lib place) (.ok (), received) := by
  obtain ⟨mMetadata, hmetadata, rfl⟩ := Reader.map_eq_ok_iff.mp hreceived
  have hread : (readMetadata fmt lib).Takes (writeMetadata fmt lib request.mMetadata (some place))
      mMetadata := by
    intro rest
    rw [readMetadata_writeMetadata fmt lib request.mMetadata place hfits.metadata rest, hmetadata]
  have hslots : (request.mSurfaceList.map some).length < 2 ^ 31 := by
    rw [List.length_map]
    exact hfits.surfaces
  have htakes := CaptureRequest.readFromParcel_slots hread hslots (.ofBool request.mIsReprocess) old
  have hlist : (request.mSurfaceList.map some).filterMap id = request.mSurfaceList := by
    rw [List.filterMap_map]
    exact List.filterMap_some
  rw [hlist, Word.ofBool_ne_zero, List.length_map, List.flatMap_map] at htakes
  exact htakes

/-- After metadata that is refused, the reading stops before the surfaces. -/
theorem CaptureRequest.readFromParcel_refuses {failure : Failure} (hfits : request.Fits lib)
    (hreceived : request.received lib = .error failure) (place : BlobPlace)
    (old : CaptureRequest M B) :
    (old.readFromParcel fmt lib).Takes (writeMetadata fmt lib request.mMetadata (some place))
      (.error failure, { old with mMetadata := none, mSurfaceList := [] }) := by
  have hrefuses : (readMetadata fmt lib).Refuses
      (writeMetadata fmt lib request.mMetadata (some place)) failure := by
    intro rest
    rw [readMetadata_writeMetadata fmt lib request.mMetadata place hfits.metadata rest,
      Reader.map_eq_error_iff.mp hreceived]
  rw [← List.append_nil (writeMetadata _ _ _ _)]
  apply hrefuses.attempt.bind
  exact Reader.takes_pure _

end Parcel

end Msm8916.Camera
