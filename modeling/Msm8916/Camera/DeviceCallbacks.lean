import Msm8916.Camera.CaptureParcel

/-!
`ICameraDeviceCallbacks`: what the device tells its client, through parcels that are not
answered.
-/

namespace Msm8916.Camera

/-- A call of a method. -/
inductive DeviceCallback (M : Type) where
  | onDeviceError (errorCode : Word) (resultExtras : CaptureResultExtras)
  | onDeviceIdle
  | onCaptureStarted (result : CaptureResultExtras) (timestamp : Long)
  | onResultReceived (metadata : Option M) (resultExtras : CaptureResultExtras)
  | onPrepared (streamId : Word)
deriving DecidableEq, Repr

/-- The numbers of the transactions. -/
inductive CallbackCode where
  | cameraError
  | cameraIdle
  | captureStarted
  | resultReceived
  | prepared
deriving DecidableEq, Repr

def deviceCallbacksDescriptor : String := "android.hardware.camera2.ICameraDeviceCallbacks"

section Transaction

variable {β B M σ : Type} (fmt : ParcelFormat β B) (lib : MetadataLibrary M)

def DeviceCallback.code : DeviceCallback M → CallbackCode
  | onDeviceError .. => .cameraError
  | onDeviceIdle => .cameraIdle
  | onCaptureStarted .. => .captureStarted
  | onResultReceived .. => .resultReceived
  | onPrepared _ => .prepared

/-- What a method of `BpCameraDeviceCallbacks` writes behind the token, before it transacts. -/
def DeviceCallback.write (place : BlobPlace) : DeviceCallback M → List β
  | onDeviceError errorCode resultExtras =>
      fmt.int32.write errorCode ++ (fmt.int32.write 1 ++ resultExtras.write fmt)
  | onDeviceIdle => []
  | onCaptureStarted result timestamp =>
      fmt.int32.write 1 ++ (result.write fmt ++ fmt.int64.write timestamp)
  | onResultReceived metadata resultExtras =>
      fmt.int32.write 1 ++ (writeMetadata fmt lib metadata (some place) ++
        (fmt.int32.write 1 ++ resultExtras.write fmt))
  | onPrepared streamId => fmt.int32.write streamId

/-- A `CaptureResultExtras` that may be missing. -/
def readResultExtras : Reader Failure β CaptureResultExtras := do
  let present ← fmt.readInt32
  if present ≠ 0 then CaptureResultExtras.new.readFromParcel fmt else return .new

/-- The call that `BnCameraDeviceCallbacks::onTransact` makes. -/
def CallbackCode.readCall (code : CallbackCode) : Reader Failure β (DeviceCallback M) :=
  match code with
  | cameraError => do
      let errorCode ← fmt.readInt32
      let resultExtras ← readResultExtras fmt
      return .onDeviceError errorCode resultExtras
  | cameraIdle => return .onDeviceIdle
  | captureStarted => do
      let result ← readResultExtras fmt
      let timestamp ← fmt.int64.read.getD 0
      return .onCaptureStarted result timestamp
  | resultReceived => do
      let metadata ← readPresentMetadata fmt lib
      let resultExtras ← readResultExtras fmt
      return .onResultReceived metadata resultExtras
  | prepared => do
      let streamId ← fmt.readInt32
      return .onPrepared streamId

/-- `CHECK_INTERFACE` is before it. -/
def CallbackCode.receive (code : CallbackCode) : Reader Failure β (DeviceCallback M) := do
  let token ← fmt.interfaceToken.read.getD ""
  if token ≠ deviceCallbacksDescriptor then throw .permissionDenied else code.readCall fmt lib

/-- A method of `BpCameraDeviceCallbacks`, and the client then, which takes a callback. -/
def remoteCallback (client : DeviceCallback M → σ → σ) (alive : Bool) (place : BlobPlace)
    (callback : DeviceCallback M) (s : σ) : σ :=
  if alive then
    match (callback.code.receive fmt lib (fmt.interfaceToken.write deviceCallbacksDescriptor ++
        callback.write fmt lib place)).1 with
    | .ok received => client received s
    | .error _ => s
  else s

/-! ## What the client gets -/

def DeviceCallback.delivered : DeviceCallback M → DeviceCallback M
  | onResultReceived metadata resultExtras =>
      .onResultReceived (lib.arriving metadata) resultExtras
  | callback => callback

def DeviceCallback.Fits : DeviceCallback M → Prop
  | onResultReceived metadata _ =>
      ∀ source ∈ metadata, (lib.copy source).length + lib.alignment < 2 ^ 31
  | _ => True

variable {fmt lib}

theorem readResultExtras_takes (extras : CaptureResultExtras) :
    (readResultExtras fmt).Takes (fmt.int32.write 1 ++ extras.write fmt) extras := by
  apply ((fmt.int32.read_write 1).getD 0).bind
  rw [if_pos (by decide)]
  exact extras.readFromParcel_takes .new

theorem DeviceCallback.receive_gives {callback : DeviceCallback M} (hfits : callback.Fits lib)
    (place : BlobPlace) :
    (callback.code.receive fmt lib).Gives
      (fmt.interfaceToken.write deviceCallbacksDescriptor ++ callback.write fmt lib place)
      (callback.delivered lib) := by
  apply ((fmt.interfaceToken.read_write deviceCallbacksDescriptor).getD "").bind_gives
  rw [if_neg (not_not.mpr rfl)]
  cases callback with
  | onDeviceError errorCode resultExtras =>
      apply ((fmt.int32.read_write errorCode).getD 0).bind_gives
      exact ((readResultExtras_takes resultExtras).bind_pure _).gives
  | onDeviceIdle => exact (Reader.takes_pure _).gives
  | onCaptureStarted result timestamp =>
      have hlast := ((fmt.int64.read_write timestamp).getD 0).bind_pure
        (DeviceCallback.onCaptureStarted result : Long → DeviceCallback M)
      rw [DeviceCallback.write, ← List.append_assoc]
      apply (readResultExtras_takes result).bind_gives
      exact hlast.gives
  | onResultReceived metadata resultExtras =>
      rw [DeviceCallback.write, ← List.append_assoc]
      apply (readPresentMetadata_takes metadata place hfits).bind_gives
      exact ((readResultExtras_takes resultExtras).bind_pure _).gives
  | onPrepared streamId => exact (((fmt.int32.read_write streamId).getD 0).bind_pure _).gives

end Transaction

/-! ## The calls of a run -/

/-- A callback, and where the blob lies that is written for it. -/
structure Notification (M : Type) where
  callback : DeviceCallback M
  alive : Bool
  place : BlobPlace

/-- Over any sequence of callbacks the client gets those that find its binder alive, in their
order and each once, with all that was put into them but metadata that it refuses. -/
theorem remoteCallbacks_eq {β B M σ : Type} (fmt : ParcelFormat β B) (lib : MetadataLibrary M)
    (client : DeviceCallback M → σ → σ) (sent : List (Notification M))
    (hfits : ∀ n ∈ sent, n.callback.Fits lib) (s : σ) :
    sent.foldl (fun s n => remoteCallback fmt lib client n.alive n.place n.callback s) s =
      ((sent.filter (·.alive)).map (·.callback.delivered lib)).foldl (fun s c => client c s) s := by
  induction sent generalizing s with
  | nil => rfl
  | cons n sent ih =>
      obtain ⟨hfirst, hrest⟩ := List.forall_mem_cons.mp hfits
      have hreceive := (@DeviceCallback.receive_gives β B M fmt lib _ hfirst n.place).apply
      rw [List.foldl_cons, ih hrest, List.filter_cons, remoteCallback]
      cases n.alive with
      | false => rfl
      | true =>
          rw [if_pos rfl, if_pos rfl, hreceive]
          rfl

/-- A result, and a device that is idle when its client is dead. -/
def twoNotifications : List (Notification { bytes : List UInt8 // bytes ≠ [] }) :=
  [⟨.onResultReceived (some threeBytes) .new, true, ⟨5, fun _ => 0⟩⟩,
    ⟨.onDeviceIdle, false, ⟨0, fun _ => 0⟩⟩]

theorem remoteCallbacks_eq_two :
    twoNotifications.foldl (fun s n => remoteCallback Item.format plainMetadata
        (fun c s => s ++ [c]) n.alive n.place n.callback s) [] =
      [.onResultReceived (some threeBytes) .new] := by
  have hfits : ∀ n ∈ twoNotifications, n.callback.Fits plainMetadata := by
    intro n hmem
    rcases List.mem_cons.mp hmem with rfl | hmem
    · rintro source ⟨⟩
      decide
    · obtain rfl := List.mem_singleton.mp hmem
      trivial
  exact remoteCallbacks_eq Item.format plainMetadata (fun c s => s ++ [c]) twoNotifications
    hfits []

end Msm8916.Camera
