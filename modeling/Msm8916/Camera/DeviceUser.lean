import Msm8916.Camera.CaptureParcel

/-!
`ICameraDeviceUser`: the calls of a client, `BpCameraDeviceUser` that puts them into parcels,
and `BnCameraDeviceUser::onTransact` that takes them out and calls the device.
-/

namespace Msm8916.Camera

/-- A call of a method. A `Bool` named after what is put out says whether there is a place for
it. -/
inductive DeviceCall (M B : Type) where
  | disconnect
  | submitRequest (request : Option (CaptureRequest M B)) (repeating lastFrameNumber : Bool)
  | submitRequestList (requestList : List (Option (CaptureRequest M B)))
      (repeating lastFrameNumber : Bool)
  | cancelRequest (requestId : Word) (lastFrameNumber : Bool)
  | beginConfigure
  | endConfigure (isConstrainedHighSpeed : Bool)
  | deleteStream (streamId : Word)
  | createStream (outputConfiguration : OutputConfiguration B)
  | createInputStream (width height format : Word)
  | getInputBufferProducer (producer : Bool)
  | createDefaultRequest (templateId : Word) (request : Bool)
  | getCameraInfo (info : Bool)
  | waitUntilIdle
  | flush (lastFrameNumber : Bool)
  | prepare (streamId : Word)
  | tearDown (streamId : Word)
  | prepare2 (maxCount streamId : Word)

/-- The numbers of the transactions. -/
inductive DeviceCode where
  | disconnect
  | submitRequest
  | submitRequestList
  | cancelRequest
  | beginConfigure
  | endConfigure
  | deleteStream
  | createStream
  | createInputStream
  | getInputSurface
  | createDefaultRequest
  | getCameraInfo
  | waitUntilIdle
  | flush
  | prepare
  | tearDown
  | prepare2
deriving DecidableEq, Repr

/-- What a method returns, and what it has put out. -/
structure DeviceAnswer (M B : Type) where
  status : Word
  lastFrameNumber : Option Long
  producer : Option (Option B)
  metadata : Option (Option M)
deriving DecidableEq, Repr

/-- A method that only returns. -/
def DeviceAnswer.of {M B : Type} (status : Word) : DeviceAnswer M B := ⟨status, none, none, none⟩

/-- The device behind the interface: how it answers a call, and what becomes of it. -/
abbrev Device (σ M B : Type) := DeviceCall M B → σ → DeviceAnswer M B × σ

/-- `BAD_VALUE` -/
def badValue : Word := .ofInt (-22)

/-- `INVALID_OPERATION` -/
def invalidOperation : Word := .ofInt (-38)

/-- `FAILED_TRANSACTION` -/
def failedTransaction : Word := .ofInt (-2 ^ 31 + 2)

def deviceUserDescriptor : String := "android.hardware.camera2.ICameraDeviceUser"

section Transaction

variable {β B M σ : Type} (fmt : ParcelFormat β B) (lib : MetadataLibrary M)

/-! ## The client -/

def DeviceCall.code : DeviceCall M B → DeviceCode
  | disconnect => .disconnect
  | submitRequest .. => .submitRequest
  | submitRequestList .. => .submitRequestList
  | cancelRequest .. => .cancelRequest
  | beginConfigure => .beginConfigure
  | endConfigure _ => .endConfigure
  | deleteStream _ => .deleteStream
  | createStream _ => .createStream
  | createInputStream .. => .createInputStream
  | getInputBufferProducer _ => .getInputSurface
  | createDefaultRequest .. => .createDefaultRequest
  | getCameraInfo _ => .getCameraInfo
  | waitUntilIdle => .waitUntilIdle
  | flush _ => .flush
  | prepare _ => .prepare
  | tearDown _ => .tearDown
  | prepare2 .. => .prepare2

/-- A request, or the mark that there is none. -/
def writeRequest (request : Option (CaptureRequest M B)) (place : BlobPlace) : List β :=
  match request with
  | some request => fmt.int32.write 1 ++ request.write fmt lib place
  | none => fmt.int32.write 0

/-- What a method of `BpCameraDeviceUser` writes behind the token. Each request that is
written has a place for its metadata. -/
def DeviceCall.write (places : Nat → BlobPlace) : DeviceCall M B → List β
  | disconnect | beginConfigure | getInputBufferProducer _ | getCameraInfo _ | waitUntilIdle
  | flush _ => []
  | submitRequest request repeating _ =>
      writeRequest fmt lib request (places 0) ++ fmt.int32.write (.ofBool repeating)
  | submitRequestList requestList repeating _ =>
      fmt.int32.write (.ofInt requestList.length) ++
        (requestList.zipIdx.flatMap (fun slot => writeRequest fmt lib slot.1 (places slot.2)) ++
          fmt.int32.write (.ofBool repeating))
  | cancelRequest requestId _ => fmt.int32.write requestId
  | endConfigure isConstrainedHighSpeed => fmt.int32.write (.ofBool isConstrainedHighSpeed)
  | deleteStream streamId | prepare streamId | tearDown streamId => fmt.int32.write streamId
  | createStream outputConfiguration =>
      if outputConfiguration.mGbp.isSome then
        fmt.int32.write 1 ++ outputConfiguration.write fmt
      else fmt.int32.write 0
  | createInputStream width height format =>
      fmt.int32.write width ++ (fmt.int32.write height ++ fmt.int32.write format)
  | createDefaultRequest templateId _ => fmt.int32.write templateId
  | prepare2 maxCount streamId => fmt.int32.write maxCount ++ fmt.int32.write streamId

/-- The end of a method that puts out a frame number. -/
def readFrameNumber (failed : Word → Bool) (lastFrameNumber : Bool) :
    Reader Failure β (DeviceAnswer M B) := do
  let res ← fmt.readInt32
  let present ← fmt.readInt32
  if present ≠ 0 ∧ lastFrameNumber then
    match ← fmt.int64.read.attempt with
    | .error _ => return .of failedTransaction
    | .ok frameNumber =>
        return ⟨if failed res then failedTransaction else res, some frameNumber, none, none⟩
  else return .of failedTransaction

/-- The end of a method that puts out metadata. -/
def readOutMetadata (wanted : Bool) : Reader Failure β (DeviceAnswer M B) := do
  let result ← fmt.readInt32
  let out ← readPresentMetadata fmt lib
  return ⟨result, none, none, if wanted then some out else none⟩

/-- The end of `getInputBufferProducer`. -/
def readOutProducer : Reader Failure β (DeviceAnswer M B) := do
  let result ← fmt.readInt32
  if result ≠ 0 then return .of result
  else do
    let present ← fmt.readInt32
    let bp ←
      if present ≠ 0 then do
        let _ ← fmt.readString16
        fmt.readStrongBinder
      else pure none
    return ⟨if bp.isNone then invalidOperation else 0, none, some bp, none⟩

/-- What a method does with the reply. -/
def DeviceCall.finish (call : DeviceCall M B) : Reader Failure β (DeviceAnswer M B) := do
  let _ ← fmt.exceptionCode.read.attempt
  match call with
  | disconnect => return .of 0
  | submitRequest _ _ lastFrameNumber | submitRequestList _ _ lastFrameNumber =>
      readFrameNumber fmt (fun res => res.toInt < 0) lastFrameNumber
  | cancelRequest _ lastFrameNumber | flush lastFrameNumber =>
      readFrameNumber fmt (fun res => res ≠ 0) lastFrameNumber
  | beginConfigure | endConfigure _ | deleteStream _ | createStream _ | createInputStream ..
  | waitUntilIdle | prepare _ | tearDown _ | prepare2 .. => do
      let res ← fmt.readInt32
      return .of res
  | getInputBufferProducer _ => readOutProducer fmt
  | createDefaultRequest _ request => readOutMetadata fmt lib request
  | getCameraInfo info => readOutMetadata fmt lib info

/-! ## The server -/

/-- A turn of the loop for `SUBMIT_REQUEST_LIST`. -/
def readRequest : Reader Failure β (Option (CaptureRequest M B)) := do
  let present ← fmt.readInt32
  if present ≠ 0 then do
    let (status, request) ← CaptureRequest.new.readFromParcel fmt lib
    match status with
    | .error _ => throw .badValue
    | .ok _ => return some request
  else return none

/-- `SUBMIT_REQUEST`, where it does not matter whether the request could be read. -/
def readSubmitRequest : Reader Failure β (Option (DeviceCall M B)) := do
  let present ← fmt.readInt32
  let request ←
    if present ≠ 0 then do
      let (_, request) ← CaptureRequest.new.readFromParcel fmt lib
      pure (some request)
    else pure none
  let repeating ← fmt.readInt32
  return some (.submitRequest request (repeating ≠ 0) true)

/-- `SUBMIT_REQUEST_LIST` -/
def readSubmitRequestList : Reader Failure β (Option (DeviceCall M B)) := do
  let requestListSize ← fmt.readInt32
  let requestList ← (readRequest fmt lib).many requestListSize.toInt.toNat
  let repeating ← fmt.readInt32
  return some (.submitRequestList requestList (repeating ≠ 0) true)

/-- `CREATE_STREAM` -/
def readCreateStream : Reader Failure β (Option (DeviceCall M B)) := do
  let present ← fmt.readInt32
  if present ≠ 0 then do
    let outputConfiguration ← OutputConfiguration.ofParcel fmt
    return some (.createStream outputConfiguration)
  else return none

/-- The call that `onTransact` takes out of a parcel behind the token, which has a place for
all that the device may put out. There is none for an `OutputConfiguration` that is missing. -/
def DeviceCode.readCall (code : DeviceCode) : Reader Failure β (Option (DeviceCall M B)) :=
  match code with
  | disconnect => return some .disconnect
  | submitRequest => readSubmitRequest fmt lib
  | submitRequestList => readSubmitRequestList fmt lib
  | cancelRequest => do
      let requestId ← fmt.readInt32
      return some (.cancelRequest requestId true)
  | beginConfigure => return some .beginConfigure
  | endConfigure => do
      let isConstrainedHighSpeed ← fmt.readInt32
      return some (.endConfigure (isConstrainedHighSpeed ≠ 0))
  | deleteStream => do
      let streamId ← fmt.readInt32
      return some (.deleteStream streamId)
  | createStream => readCreateStream fmt
  | createInputStream => do
      let width ← fmt.readInt32
      let height ← fmt.readInt32
      let format ← fmt.readInt32
      return some (.createInputStream width height format)
  | getInputSurface => return some (.getInputBufferProducer true)
  | createDefaultRequest => do
      let templateId ← fmt.readInt32
      return some (.createDefaultRequest templateId true)
  | getCameraInfo => return some (.getCameraInfo true)
  | waitUntilIdle => return some .waitUntilIdle
  | flush => return some (.flush true)
  | prepare => do
      let streamId ← fmt.readInt32
      return some (.prepare streamId)
  | tearDown => do
      let streamId ← fmt.readInt32
      return some (.tearDown streamId)
  | prepare2 => do
      let maxCount ← fmt.readInt32
      let streamId ← fmt.readInt32
      return some (.prepare2 maxCount streamId)

/-- `CHECK_INTERFACE` is before it. -/
def DeviceCode.receive (code : DeviceCode) : Reader Failure β (Option (DeviceCall M B)) := do
  let token ← fmt.interfaceToken.read.getD ""
  if token ≠ deviceUserDescriptor then throw .permissionDenied else code.readCall fmt lib

/-- What `onTransact` writes after the device has answered. The frame number is one before it
is put out. -/
def DeviceCode.reply (code : DeviceCode) (place : BlobPlace) (answer : DeviceAnswer M B) :
    List β :=
  fmt.exceptionCode.write 0 ++
    match code with
    | disconnect => []
    | submitRequest | submitRequestList | cancelRequest | flush =>
        fmt.int32.write answer.status ++ (fmt.int32.write 1 ++
          fmt.int64.write (answer.lastFrameNumber.getD (Fin.ofNat (2 ^ 64) (2 ^ 64 - 1))))
    | beginConfigure | endConfigure | deleteStream | createStream | createInputStream
    | waitUntilIdle | prepare | tearDown | prepare2 => fmt.int32.write answer.status
    | getInputSurface =>
        fmt.int32.write answer.status ++ (fmt.int32.write 1 ++
          (fmt.string16.write (some "camera input") ++ fmt.strongBinder.write
            (if answer.status = 0 then answer.producer.getD none else none)))
    | createDefaultRequest | getCameraInfo =>
        fmt.int32.write answer.status ++ (fmt.int32.write 1 ++
          writeMetadata fmt lib (answer.metadata.getD none) (some place))

/-- `BnCameraDeviceUser::onTransact`: the status, or the reply, and the device then. -/
def onTransact (device : Device σ M B) (place : BlobPlace) (code : DeviceCode) (data : List β)
    (s : σ) : Except Failure (List β) × σ :=
  match (code.receive fmt lib data).1 with
  | .error failure => (.error failure, s)
  | .ok none => (.ok (code.reply fmt lib place (.of badValue)), s)
  | .ok (some call) => (.ok (code.reply fmt lib place (device call s).1), (device call s).2)

/-- `remote()->transact`: a binder that is dead, or a status, leaves the reply empty. -/
def transact (device : Device σ M B) (alive : Bool) (place : BlobPlace) (code : DeviceCode)
    (data : List β) (s : σ) : List β × σ :=
  if alive then
    match onTransact fmt lib device place code data s with
    | (.ok reply, s) => (reply, s)
    | (.error _, s) => ([], s)
  else ([], s)

/-- A method of `BpCameraDeviceUser`. -/
def remoteCall (device : Device σ M B) (alive : Bool) (places : Nat → BlobPlace)
    (place : BlobPlace) (call : DeviceCall M B) (s : σ) :
    Except Failure (DeviceAnswer M B) × σ :=
  match call with
  | .getInputBufferProducer false => (.ok (.of badValue), s)
  | _ =>
      let data := fmt.interfaceToken.write deviceUserDescriptor ++ call.write fmt lib places
      let (reply, s) := transact fmt lib device alive place call.code data s
      ((call.finish fmt lib reply).1, s)

end Transaction

end Msm8916.Camera
