import Msm8916.Camera.DeviceUser

/-!
What a client of `ICameraDeviceUser` sees of a device that is called over parcels, next to a
device that is called directly.
-/

namespace Msm8916.Camera

/-! ## The device as it is called -/

/-- What a call comes to at the other side. -/
inductive Delivery (M B : Type) where
  | called (call : DeviceCall M B)
  /-- The device is not called, and the status is this one. -/
  | answered (status : Word)
  /-- The device is not called, and there is no reply. -/
  | refused

section Spec

variable {M B σ : Type} (lib : MetadataLibrary M)

def receivedSlot : Option (CaptureRequest M B) → Except Failure (Option (CaptureRequest M B))
  | none => .ok none
  | some request => (request.received lib).map some

/-- A list of requests is refused if any of them is, but a single request comes as an empty
one, with the number of its surfaces taken for `repeating`. -/
def DeviceCall.delivered : DeviceCall M B → Delivery M B
  | submitRequest none repeating _ => .called (submitRequest none repeating true)
  | submitRequest (some request) repeating _ =>
      match request.received lib with
      | .ok received => .called (submitRequest (some received) repeating true)
      | .error _ => .called (submitRequest (some .new) (request.mSurfaceList ≠ []) true)
  | submitRequestList requestList repeating _ =>
      match requestList.mapM (receivedSlot lib) with
      | .ok received => .called (submitRequestList received repeating true)
      | .error _ => .refused
  | cancelRequest requestId _ => .called (cancelRequest requestId true)
  | createStream outputConfiguration =>
      if outputConfiguration.mGbp.isSome then .called (createStream outputConfiguration)
      else .answered badValue
  | getInputBufferProducer producer =>
      if producer then .called (getInputBufferProducer true) else .answered badValue
  | createDefaultRequest templateId _ => .called (createDefaultRequest templateId true)
  | getCameraInfo _ => .called (getCameraInfo true)
  | flush _ => .called (flush true)
  | call => .called call

/-- A frame number is only put out, and what failed is a failed transaction. -/
def seenFrameNumber (failed : Word → Bool) (lastFrameNumber : Bool) (answer : DeviceAnswer M B) :
    DeviceAnswer M B :=
  if lastFrameNumber then
    ⟨if failed answer.status then failedTransaction else answer.status,
      some (answer.lastFrameNumber.getD (Fin.ofNat (2 ^ 64) (2 ^ 64 - 1))), none, none⟩
  else .of failedTransaction

def seenMetadata (wanted : Bool) (answer : DeviceAnswer M B) : DeviceAnswer M B :=
  ⟨answer.status, none, none,
    if wanted then some (lib.arriving (answer.metadata.getD none)) else none⟩

/-- That there is no producer is an error of its own. -/
def seenProducer (answer : DeviceAnswer M B) : DeviceAnswer M B :=
  if answer.status ≠ 0 then .of answer.status
  else
    ⟨if (answer.producer.getD none).isNone then invalidOperation else 0, none,
      some (answer.producer.getD none), none⟩

/-- What the client sees of the answer of the device. -/
def DeviceCall.seen (answer : DeviceAnswer M B) : DeviceCall M B → DeviceAnswer M B
  | disconnect => .of 0
  | submitRequest _ _ lastFrameNumber | submitRequestList _ _ lastFrameNumber =>
      seenFrameNumber (fun res => res.toInt < 0) lastFrameNumber answer
  | cancelRequest _ lastFrameNumber | flush lastFrameNumber =>
      seenFrameNumber (fun res => res ≠ 0) lastFrameNumber answer
  | beginConfigure | endConfigure _ | deleteStream _ | createStream _ | createInputStream ..
  | waitUntilIdle | prepare _ | tearDown _ | prepare2 .. => .of answer.status
  | getInputBufferProducer _ => seenProducer answer
  | createDefaultRequest _ request => seenMetadata lib request answer
  | getCameraInfo info => seenMetadata lib info answer

/-- What the client sees if there is no reply. -/
def DeviceCall.unanswered : DeviceCall M B → DeviceAnswer M B
  | submitRequest .. | submitRequestList .. | cancelRequest .. | flush _ => .of failedTransaction
  | getInputBufferProducer _ => ⟨invalidOperation, none, some none, none⟩
  | createDefaultRequest _ wanted | getCameraInfo wanted =>
      ⟨0, none, none, if wanted then some none else none⟩
  | _ => .of 0

/-- The call without parcels. -/
def directCall (device : Device σ M B) (alive : Bool) (call : DeviceCall M B) (s : σ) :
    DeviceAnswer M B × σ :=
  if alive then
    match call.delivered lib with
    | .called received => (call.seen lib (device received s).1, (device received s).2)
    | .answered status => (.of status, s)
    | .refused => (call.unanswered, s)
  else
    match call with
    | .getInputBufferProducer false => (.of badValue, s)
    | _ => (call.unanswered, s)

end Spec

section Proof

variable {β M B σ : Type} {fmt : ParcelFormat β B} {lib : MetadataLibrary M}

/-! ## The reply -/

theorem ParcelFormat.readInt32_takes (fmt : ParcelFormat β B) (value : Word) :
    fmt.readInt32.Takes (fmt.int32.write value) value := (fmt.int32.read_write value).getD 0

theorem ParcelFormat.readInt32_nil (fmt : ParcelFormat β B) :
    fmt.readInt32 [] = (.ok 0, []) := by
  rw [readInt32, Reader.getD, fmt.int32_nil]

theorem readInt32_gives {α : Type} (word : Word) (f : Word → α) :
    (fmt.readInt32 >>= fun word => pure (f word)).Gives (fmt.int32.write word) (f word) :=
  ((fmt.readInt32_takes word).bind_pure f).gives

theorem readFrameNumber_gives (failed : Word → Bool) (lastFrameNumber : Bool)
    (answer : DeviceAnswer M B) :
    (readFrameNumber fmt failed lastFrameNumber).Gives
      (fmt.int32.write answer.status ++ (fmt.int32.write 1 ++
        fmt.int64.write (answer.lastFrameNumber.getD (Fin.ofNat (2 ^ 64) (2 ^ 64 - 1)))))
      (seenFrameNumber failed lastFrameNumber answer) := by
  apply (fmt.readInt32_takes answer.status).bind_gives
  apply (fmt.readInt32_takes 1).bind_gives
  cases lastFrameNumber with
  | false =>
      rw [← List.nil_append (fmt.int64.write _)]
      exact (Reader.takes_pure _).gives.append _
  | true =>
      rw [← List.append_nil (fmt.int64.write _)]
      apply (fmt.int64.read_write _).attempt.bind_gives
      exact (Reader.takes_pure _).gives

theorem readOutMetadata_gives (wanted : Bool) (answer : DeviceAnswer M B) (place : BlobPlace)
    (hsize : ∀ source ∈ answer.metadata.getD none,
      (lib.copy source).length + lib.alignment < 2 ^ 31) :
    (readOutMetadata fmt lib wanted).Gives
      (fmt.int32.write answer.status ++ (fmt.int32.write 1 ++
        writeMetadata fmt lib (answer.metadata.getD none) (some place)))
      (seenMetadata lib wanted answer) := by
  apply (fmt.readInt32_takes answer.status).bind_gives
  exact ((readPresentMetadata_takes _ place hsize).bind_pure _).gives

theorem readOutProducer_gives (answer : DeviceAnswer M B) :
    (readOutProducer fmt).Gives
      (fmt.int32.write answer.status ++ (fmt.int32.write 1 ++
        (fmt.string16.write (some "camera input") ++ fmt.strongBinder.write
          (if answer.status = 0 then answer.producer.getD none else none))))
      (seenProducer answer) := by
  apply (fmt.readInt32_takes answer.status).bind_gives
  rw [seenProducer]
  by_cases hstatus : answer.status = 0
  · rw [if_neg (not_not.mpr hstatus), if_neg (not_not.mpr hstatus), if_pos hstatus]
    apply (fmt.readInt32_takes 1).bind_gives
    rw [if_pos (by decide)]
    apply ((fmt.string16.read_write (some "camera input")).getD none).bind_gives
    rw [← List.append_nil (fmt.strongBinder.write _)]
    apply ((fmt.strongBinder.read_write _).getD none).bind_gives
    exact (Reader.takes_pure _).gives
  · rw [if_pos hstatus, if_pos hstatus, ← List.nil_append (fmt.int32.write 1 ++ _)]
    exact (Reader.takes_pure _).gives.append _

/-- A method finds in the reply what the device has answered. -/
theorem DeviceCall.finish_gives (call : DeviceCall M B) (answer : DeviceAnswer M B)
    (place : BlobPlace)
    (hsize : ∀ source ∈ answer.metadata.getD none,
      (lib.copy source).length + lib.alignment < 2 ^ 31) :
    (call.finish fmt lib).Gives (call.code.reply fmt lib place answer) (call.seen lib answer) := by
  apply (fmt.exceptionCode.read_write 0).attempt.bind_gives
  cases call with
  | disconnect => exact (Reader.takes_pure _).gives
  | submitRequest _ _ lastFrameNumber => exact readFrameNumber_gives _ lastFrameNumber answer
  | submitRequestList _ _ lastFrameNumber => exact readFrameNumber_gives _ lastFrameNumber answer
  | cancelRequest _ lastFrameNumber => exact readFrameNumber_gives _ lastFrameNumber answer
  | flush lastFrameNumber => exact readFrameNumber_gives _ lastFrameNumber answer
  | createDefaultRequest _ request => exact readOutMetadata_gives request answer place hsize
  | getCameraInfo info => exact readOutMetadata_gives info answer place hsize
  | getInputBufferProducer producer => exact readOutProducer_gives answer
  | beginConfigure | endConfigure | deleteStream | createStream | createInputStream
  | waitUntilIdle | prepare | tearDown | prepare2 => exact readInt32_gives answer.status _

theorem readFrameNumber_nil (failed : Word → Bool) (lastFrameNumber : Bool) :
    (readFrameNumber fmt failed lastFrameNumber []).1 =
      .ok (DeviceAnswer.of failedTransaction : DeviceAnswer M B) := by
  rw [readFrameNumber, Reader.bind_of_ok fmt.readInt32_nil, Reader.bind_of_ok fmt.readInt32_nil]
  rfl

theorem readOutMetadata_nil (wanted : Bool) :
    (readOutMetadata fmt lib wanted []).1 =
      .ok (⟨0, none, none, if wanted then some none else none⟩ : DeviceAnswer M B) := by
  have hnone : readPresentMetadata fmt lib [] = (.ok none, []) := by
    rw [readPresentMetadata, Reader.bind_of_ok fmt.readInt32_nil]
    rfl
  rw [readOutMetadata, Reader.bind_of_ok fmt.readInt32_nil, Reader.bind_of_ok hnone]
  rfl

theorem readOutProducer_nil :
    (readOutProducer fmt []).1 =
      .ok (⟨invalidOperation, none, some none, none⟩ : DeviceAnswer M B) := by
  rw [readOutProducer, Reader.bind_of_ok fmt.readInt32_nil, if_neg (by decide),
    Reader.bind_of_ok fmt.readInt32_nil]
  rfl

/-- Without a reply it finds nothing. -/
theorem DeviceCall.finish_nil (call : DeviceCall M B) :
    (call.finish fmt lib []).1 = .ok call.unanswered := by
  have hcode : fmt.exceptionCode.read.attempt [] = (.ok (fmt.exceptionCode.read []).1, []) := by
    rw [Reader.attempt, fmt.exceptionCode_nil]
  have hstatus : ((fmt.readInt32 >>= fun res => pure (.of res)) []).1 =
      .ok (DeviceAnswer.of 0 : DeviceAnswer M B) := by
    rw [Reader.bind_of_ok fmt.readInt32_nil]
    rfl
  rw [finish.eq_def, Reader.bind_of_ok hcode]
  cases call with
  | disconnect => rfl
  | submitRequest | submitRequestList | cancelRequest | flush => exact readFrameNumber_nil _ _
  | createDefaultRequest | getCameraInfo => exact readOutMetadata_nil _
  | getInputBufferProducer producer => exact readOutProducer_nil
  | beginConfigure | endConfigure | deleteStream | createStream | createInputStream
  | waitUntilIdle | prepare | tearDown | prepare2 => exact hstatus

/-! ## The data -/

/-- What fits into the parcel of a call. -/
def DeviceCall.Fits (lib : MetadataLibrary M) : DeviceCall M B → Prop
  | submitRequest request _ _ => ∀ sent ∈ request, sent.Fits lib
  | submitRequestList requestList _ _ =>
      requestList.length < 2 ^ 31 ∧ ∀ slot ∈ requestList, ∀ sent ∈ slot, sent.Fits lib
  | _ => True

theorem readRequest_takes {slot received : Option (CaptureRequest M B)}
    (hfits : ∀ sent ∈ slot, sent.Fits lib) (hreceived : receivedSlot lib slot = .ok received)
    (place : BlobPlace) :
    (readRequest fmt lib).Takes (writeRequest fmt lib slot place) received := by
  cases slot with
  | none =>
      obtain rfl := Except.ok.inj hreceived
      rw [← List.append_nil (writeRequest _ _ _ _)]
      apply (fmt.readInt32_takes 0).bind
      exact Reader.takes_pure none
  | some sent =>
      obtain ⟨request, hrequest, rfl⟩ := Reader.map_eq_ok_iff.mp hreceived
      apply (fmt.readInt32_takes 1).bind
      rw [if_pos (by decide), ← List.append_nil (sent.write fmt lib place)]
      apply (CaptureRequest.readFromParcel_takes (hfits sent rfl) hrequest place .new).bind
      exact Reader.takes_pure _

theorem readRequest_rejects {slot : Option (CaptureRequest M B)} {failure : Failure}
    (hfits : ∀ sent ∈ slot, sent.Fits lib) (hrefused : receivedSlot lib slot = .error failure)
    (place : BlobPlace) :
    (readRequest fmt lib).Rejects (writeRequest fmt lib slot place) .badValue := by
  cases slot with
  | none => cases hrefused
  | some sent =>
      have hrequest := Reader.map_eq_error_iff.mp hrefused
      apply (fmt.readInt32_takes 1).bind_rejects
      rw [if_pos (by decide), CaptureRequest.write]
      apply Reader.Rejects.append
      rw [← List.append_nil (writeMetadata _ _ _ _)]
      apply (CaptureRequest.readFromParcel_refuses (hfits sent rfl) hrequest place
        .new).bind_rejects
      exact Reader.rejects_throw _

theorem ofInt_length_eq_zero {α : Type} {values : List α} (h : values.length < 2 ^ 31) :
    Word.ofInt values.length = 0 ↔ values = [] := by
  have hval : (Word.ofInt values.length).val = values.length := Word.val_ofInt (by omega)
  rw [Fin.ext_iff, hval]
  exact List.length_eq_zero_iff

/-- A `bool` comes as it was sent. -/
theorem readBool_gives {α : Type} (value : Bool) (f : Bool → α) :
    (fmt.readInt32 >>= fun word => pure (f (word ≠ 0))).Gives (fmt.int32.write (.ofBool value))
      (f value) := by
  have hgives := @readInt32_gives β B fmt α (.ofBool value) fun word => f (word ≠ 0)
  rwa [Word.ofBool_ne_zero] at hgives

theorem readSubmitRequest_gives (request : Option (CaptureRequest M B)) (repeating : Bool)
    (lastFrameNumber : Bool) (hfits : ∀ sent ∈ request, sent.Fits lib) (place : BlobPlace) :
    ∃ call, (DeviceCall.submitRequest request repeating lastFrameNumber).delivered lib =
        .called call ∧
      (readSubmitRequest fmt lib).Gives
        (writeRequest fmt lib request place ++ fmt.int32.write (.ofBool repeating))
        (some call) := by
  cases request with
  | none =>
      refine ⟨_, rfl, ?_⟩
      apply (fmt.readInt32_takes 0).bind_gives
      exact readBool_gives repeating fun repeating =>
        some (DeviceCall.submitRequest none repeating true)
  | some sent =>
      have hfits := hfits sent rfl
      rw [writeRequest, List.append_assoc]
      cases hreceived : sent.received lib with
      | ok received =>
          refine ⟨.submitRequest (some received) repeating true, ?_, ?_⟩
          · rw [DeviceCall.delivered, hreceived]
          apply (fmt.readInt32_takes 1).bind_gives
          rw [if_pos (by decide)]
          apply (CaptureRequest.readFromParcel_takes hfits hreceived place .new).bind_gives
          exact readBool_gives repeating fun repeating =>
            some (DeviceCall.submitRequest (some received) repeating true)
      | error failure =>
          refine ⟨.submitRequest (some .new) (sent.mSurfaceList ≠ []) true, ?_, ?_⟩
          · rw [DeviceCall.delivered, hreceived]
          apply (fmt.readInt32_takes 1).bind_gives
          rw [if_pos (by decide), CaptureRequest.write, List.append_assoc]
          apply (CaptureRequest.readFromParcel_refuses hfits hreceived place .new).bind_gives
          rw [List.append_assoc]
          apply (fmt.readInt32_takes (.ofInt sent.mSurfaceList.length)).bind_gives
          have hempty : decide (Word.ofInt sent.mSurfaceList.length ≠ 0) =
              decide (sent.mSurfaceList ≠ []) := by
            apply decide_eq_decide.mpr
            rw [not_iff_not]
            exact ofInt_length_eq_zero hfits.surfaces
          rw [hempty, ← List.nil_append (_ ++ fmt.int32.write (.ofBool repeating))]
          exact (Reader.takes_pure _).gives.append _

theorem readSubmitRequestList_spec (requestList : List (Option (CaptureRequest M B)))
    (repeating lastFrameNumber : Bool)
    (hfits : (DeviceCall.submitRequestList requestList repeating lastFrameNumber).Fits lib)
    (places : Nat → BlobPlace) :
    match (DeviceCall.submitRequestList requestList repeating lastFrameNumber).delivered lib with
    | .called call => (readSubmitRequestList fmt lib).Gives
        ((DeviceCall.submitRequestList requestList repeating lastFrameNumber).write fmt lib places)
        (some call)
    | .refused => (readSubmitRequestList fmt lib).Rejects
        ((DeviceCall.submitRequestList requestList repeating lastFrameNumber).write fmt lib places)
        .badValue
    | .answered _ => False := by
  obtain ⟨hlength, hslots⟩ := hfits
  have hsize : (Word.ofInt requestList.length).toInt.toNat = requestList.zipIdx.length := by
    rw [Word.toInt_ofInt (by omega) (by exact_mod_cast hlength), Int.toNat_natCast,
      List.length_zipIdx]
  have hfits : ∀ slot ∈ requestList.zipIdx, ∀ sent ∈ slot.1, sent.Fits lib := fun slot hmem =>
    hslots slot.1 (List.fst_mem_of_mem_zipIdx hmem)
  obtain ⟨received, hreceived, hall⟩ | ⟨failure, hfailure, bad, hmem, hbad⟩ :=
    mapM_except_cases (receivedSlot lib) requestList
  · rw [DeviceCall.delivered, hreceived]
    have hmany : ((readRequest fmt lib).many requestList.zipIdx.length).Takes
        (requestList.zipIdx.flatMap fun slot => writeRequest fmt lib slot.1 (places slot.2))
        received := by
      apply Reader.Takes.many_forall₂
      rw [← List.zipIdx_map_fst 0 requestList, List.forall₂_map_left_iff] at hall
      apply ((List.forall₂_and_left _ _).mpr ⟨hfits, hall⟩).imp
      intro slot value h
      exact readRequest_takes h.1 h.2 _
    apply (fmt.readInt32_takes _).bind_gives
    rw [hsize]
    apply hmany.bind_gives
    exact readBool_gives repeating fun repeating =>
      some (DeviceCall.submitRequestList received repeating true)
  · rw [DeviceCall.delivered, hfailure]
    have hmany : ((readRequest fmt lib).many requestList.zipIdx.length).Rejects
        (requestList.zipIdx.flatMap fun slot => writeRequest fmt lib slot.1 (places slot.2))
        .badValue := by
      apply Reader.Rejects.many_of_exists fun slot => ∃ received,
        receivedSlot lib slot.1 = .ok received
      · rintro slot hslot ⟨received, hreceived⟩
        exact ⟨received, readRequest_takes (hfits slot hslot) hreceived _⟩
      · intro slot hslot hnone
        cases hresult : receivedSlot lib slot.1 with
        | ok received => exact absurd ⟨received, hresult⟩ hnone
        | error other => exact readRequest_rejects (hfits slot hslot) hresult _
      · obtain ⟨i, hi⟩ := List.mem_iff_getElem?.mp hmem
        refine ⟨(bad, i), List.mk_mem_zipIdx_iff_getElem?.mpr hi, ?_⟩
        rintro ⟨received, hreceived⟩
        cases hbad.symm.trans hreceived
      · exact le_rfl
    apply (fmt.readInt32_takes _).bind_rejects
    rw [hsize]
    exact (hmany.bind _).append _

theorem DeviceCode.receive_gives {code : DeviceCode} {items : List β}
    {received : Option (DeviceCall M B)} (h : (code.readCall fmt lib).Gives items received) :
    (code.receive fmt lib).Gives (fmt.interfaceToken.write deviceUserDescriptor ++ items)
      received := by
  apply ((fmt.interfaceToken.read_write deviceUserDescriptor).getD "").bind_gives
  rwa [if_neg (not_not.mpr rfl)]

theorem DeviceCode.receive_rejects {code : DeviceCode} {items : List β} {failure : Failure}
    (h : (code.readCall fmt lib : Reader _ _ (Option (DeviceCall M B))).Rejects items failure) :
    (code.receive fmt lib : Reader _ _ (Option (DeviceCall M B))).Rejects
      (fmt.interfaceToken.write deviceUserDescriptor ++ items) failure := by
  apply ((fmt.interfaceToken.read_write deviceUserDescriptor).getD "").bind_rejects
  rwa [if_neg (not_not.mpr rfl)]

theorem readCreateStream_gives (outputConfiguration : OutputConfiguration B)
    (places : Nat → BlobPlace) :
    (readCreateStream fmt : Reader _ _ (Option (DeviceCall M B))).Gives
      ((DeviceCall.createStream outputConfiguration).write fmt lib places)
      (if outputConfiguration.mGbp.isSome then some (.createStream outputConfiguration)
        else none) := by
  rw [DeviceCall.write]
  by_cases hsome : outputConfiguration.mGbp.isSome
  · rw [if_pos hsome, if_pos hsome]
    apply (fmt.readInt32_takes 1).bind_gives
    rw [if_pos (by decide)]
    exact (outputConfiguration.ofParcel_takes.bind_pure _).gives
  · rw [if_neg hsome, if_neg hsome, ← List.append_nil (fmt.int32.write 0)]
    apply (fmt.readInt32_takes 0).bind_gives
    exact (Reader.takes_pure _).gives

/-- What `onTransact` takes out of the data of a call. -/
theorem DeviceCall.readCall_spec (call : DeviceCall M B) (hfits : call.Fits lib)
    (hplace : call ≠ .getInputBufferProducer false) (places : Nat → BlobPlace) :
    match call.delivered lib with
    | .called received => (call.code.readCall fmt lib).Gives (call.write fmt lib places)
        (some received)
    | .answered status => call.seen lib (.of badValue) = .of status ∧
        (call.code.readCall fmt lib : Reader _ _ (Option (DeviceCall M B))).Gives
          (call.write fmt lib places) none
    | .refused => (call.code.readCall fmt lib : Reader _ _ (Option (DeviceCall M B))).Rejects
        (call.write fmt lib places) .badValue := by
  cases call with
  | disconnect | beginConfigure | getCameraInfo | waitUntilIdle | flush =>
      exact (Reader.takes_pure _).gives
  | cancelRequest word | deleteStream word | prepare word | tearDown word
  | createDefaultRequest word => exact readInt32_gives word _
  | endConfigure isConstrainedHighSpeed =>
      exact readBool_gives isConstrainedHighSpeed fun isConstrainedHighSpeed =>
        some (DeviceCall.endConfigure isConstrainedHighSpeed)
  | prepare2 maxCount streamId =>
      apply (fmt.readInt32_takes maxCount).bind_gives
      exact readInt32_gives streamId _
  | createInputStream width height format =>
      apply (fmt.readInt32_takes width).bind_gives
      apply (fmt.readInt32_takes height).bind_gives
      exact readInt32_gives format _
  | submitRequest request repeating lastFrameNumber =>
      obtain ⟨received, hreceived, hgives⟩ :=
        @readSubmitRequest_gives β M B fmt lib request repeating lastFrameNumber hfits (places 0)
      rw [hreceived]
      exact hgives
  | submitRequestList requestList repeating lastFrameNumber =>
      have hspec := @readSubmitRequestList_spec β M B fmt lib requestList repeating
        lastFrameNumber hfits places
      generalize hdelivered :
        (DeviceCall.submitRequestList requestList repeating lastFrameNumber).delivered lib =
          delivery at hspec ⊢
      cases delivery with
      | called received => exact hspec
      | refused => exact hspec
      | answered status => exact hspec.elim
  | createStream outputConfiguration =>
      have hgives := @readCreateStream_gives β M B fmt lib outputConfiguration places
      rw [DeviceCall.delivered]
      by_cases hsome : outputConfiguration.mGbp.isSome
      · rw [if_pos hsome] at hgives ⊢
        exact hgives
      · rw [if_neg hsome] at hgives ⊢
        exact ⟨rfl, hgives⟩
  | getInputBufferProducer producer =>
      cases producer with
      | true => exact (Reader.takes_pure _).gives
      | false => exact absurd rfl hplace

variable {device : Device σ M B}

/-- The metadata that a device puts out fits into a parcel. -/
def DeviceFits (lib : MetadataLibrary M) (device : Device σ M B) : Prop :=
  ∀ call s, ∀ source ∈ (device call s).1.metadata.getD none,
    (lib.copy source).length + lib.alignment < 2 ^ 31

theorem remoteCall_of_transact {call : DeviceCall M B}
    (hplace : call ≠ .getInputBufferProducer false) (alive : Bool) (places : Nat → BlobPlace)
    (place : BlobPlace) (s : σ) :
    remoteCall fmt lib device alive places place call s =
      ((call.finish fmt lib (transact fmt lib device alive place call.code
          (fmt.interfaceToken.write deviceUserDescriptor ++ call.write fmt lib places) s).1).1,
        (transact fmt lib device alive place call.code
          (fmt.interfaceToken.write deviceUserDescriptor ++ call.write fmt lib places) s).2) := by
  rw [remoteCall.eq_def]
  split
  · exact absurd rfl hplace
  · rfl

theorem directCall_dead {call : DeviceCall M B} (hplace : call ≠ .getInputBufferProducer false)
    (s : σ) : directCall lib device false call s = (call.unanswered, s) := by
  rw [directCall.eq_def, if_neg (by decide)]
  split
  · exact absurd rfl hplace
  · rfl

theorem directCall_alive (call : DeviceCall M B) (s : σ) :
    directCall lib device true call s =
      match call.delivered lib with
      | .called received => (call.seen lib (device received s).1, (device received s).2)
      | .answered status => (.of status, s)
      | .refused => (call.unanswered, s) := by
  rw [directCall.eq_def, if_pos rfl]

/-- A call over the interface is the call of the device, but for what its delivery makes of it
and what is seen of the answer. -/
theorem remoteCall_eq {call : DeviceCall M B} (hfits : call.Fits lib)
    (hdevice : DeviceFits lib device) (alive : Bool) (places : Nat → BlobPlace)
    (place : BlobPlace) (s : σ) :
    remoteCall fmt lib device alive places place call s =
      (.ok (directCall lib device alive call s).1, (directCall lib device alive call s).2) := by
  by_cases hplace : call = .getInputBufferProducer false
  · subst hplace
    cases alive <;> rfl
  rw [remoteCall_of_transact hplace, transact]
  cases alive with
  | false =>
      rw [if_neg (by decide), directCall_dead hplace]
      rw [call.finish_nil]
  | true =>
      have hspec := @DeviceCall.readCall_spec β M B fmt lib call hfits hplace places
      rw [if_pos rfl, onTransact, directCall_alive]
      cases hdelivered : call.delivered lib with
      | called received =>
          rw [hdelivered] at hspec
          rw [(DeviceCode.receive_gives hspec).apply]
          have hfinish : (call.finish fmt lib).Gives _ _ :=
            call.finish_gives (device received s).1 place (hdevice received s)
          exact congrArg (·, (device received s).2) hfinish.apply
      | answered status =>
          rw [hdelivered] at hspec
          obtain ⟨hseen, hgives⟩ := hspec
          rw [(DeviceCode.receive_gives hgives).apply]
          have hfinish : (call.finish fmt lib).Gives _ _ :=
            call.finish_gives (.of badValue) place fun source h => (by cases h)
          rw [hseen] at hfinish
          exact congrArg (·, s) hfinish.apply
      | refused =>
          rw [hdelivered] at hspec
          rw [(DeviceCode.receive_rejects hspec).apply]
          exact congrArg (·, s) call.finish_nil

/-! ## The calls of a run -/

/-- The call has places for all that is put out, and nothing of it is lost. -/
def DeviceCall.Whole (lib : MetadataLibrary M) : DeviceCall M B → Prop
  | submitRequest request _ lastFrameNumber =>
      lastFrameNumber ∧ ∀ sent ∈ request, sent.received lib = .ok sent
  | submitRequestList requestList _ lastFrameNumber =>
      lastFrameNumber ∧ ∀ slot ∈ requestList, ∀ sent ∈ slot, sent.received lib = .ok sent
  | cancelRequest _ lastFrameNumber | flush lastFrameNumber => lastFrameNumber
  | createStream outputConfiguration => outputConfiguration.mGbp.isSome
  | getInputBufferProducer producer => producer
  | createDefaultRequest _ request => request
  | getCameraInfo info => info
  | _ => True

theorem receivedSlot_eq_self {slot : Option (CaptureRequest M B)}
    (h : ∀ sent ∈ slot, sent.received lib = .ok sent) : receivedSlot lib slot = .ok slot := by
  cases slot with
  | none => rfl
  | some sent => rw [receivedSlot, h sent rfl, Except.map]

theorem mapM_receivedSlot {requestList : List (Option (CaptureRequest M B))}
    (h : ∀ slot ∈ requestList, ∀ sent ∈ slot, sent.received lib = .ok sent) :
    requestList.mapM (receivedSlot lib) = .ok requestList := by
  obtain ⟨values, hvalues, hall⟩ | ⟨failure, -, bad, hmem, hbad⟩ :=
    mapM_except_cases (receivedSlot lib) requestList
  · have heq : List.Forall₂ (· = ·) requestList values := by
      apply ((List.forall₂_and_left _ _).mpr ⟨h, hall⟩).imp
      intro slot value hboth
      exact Except.ok.inj ((receivedSlot_eq_self hboth.1).symm.trans hboth.2)
    rw [List.forall₂_eq_eq_eq] at heq
    rw [hvalues, heq]
  · cases hbad.symm.trans (receivedSlot_eq_self (h bad hmem))

/-- A whole call is the call that the device gets. -/
theorem DeviceCall.Whole.delivered {call : DeviceCall M B} (h : call.Whole lib) :
    call.delivered lib = .called call := by
  cases call with
  | submitRequest request repeating lastFrameNumber =>
      obtain ⟨rfl, hsent⟩ := h
      cases request with
      | none => rfl
      | some sent => rw [DeviceCall.delivered, hsent sent rfl]
  | submitRequestList requestList repeating lastFrameNumber =>
      obtain ⟨rfl, hslots⟩ := h
      rw [DeviceCall.delivered, mapM_receivedSlot hslots]
  | cancelRequest _ wanted | flush wanted | createDefaultRequest _ wanted | getCameraInfo wanted
  | getInputBufferProducer wanted =>
      obtain rfl : wanted = true := h
      rfl
  | createStream outputConfiguration => exact if_pos h
  | disconnect | beginConfigure | endConfigure | deleteStream | createInputStream | waitUntilIdle
  | prepare | tearDown | prepare2 => rfl

/-- A call, and where the blobs lie that are written for it and for its reply. -/
structure Transaction (M B : Type) where
  call : DeviceCall M B
  alive : Bool
  places : Nat → BlobPlace
  place : BlobPlace

end Proof

section Run

variable {β M B σ : Type}

/-- The calls of a client, one after the other: what they return, and the device then. -/
def remoteRun (fmt : ParcelFormat β B) (lib : MetadataLibrary M) (device : Device σ M B) :
    List (Transaction M B) → σ → List (Except Failure (DeviceAnswer M B)) × σ
  | [], s => ([], s)
  | t :: ts, s =>
      let (answer, s) := remoteCall fmt lib device t.alive t.places t.place t.call s
      let (answers, s) := remoteRun fmt lib device ts s
      (answer :: answers, s)

/-- The same without parcels. -/
def directRun (lib : MetadataLibrary M) (device : Device σ M B) :
    List (Transaction M B) → σ → List (DeviceAnswer M B) × σ
  | [], s => ([], s)
  | t :: ts, s =>
      let (answer, s) := directCall lib device t.alive t.call s
      let (answers, s) := directRun lib device ts s
      (answer :: answers, s)

variable {fmt : ParcelFormat β B} {lib : MetadataLibrary M} {device : Device σ M B}

theorem directCall_whole {call : DeviceCall M B} (h : call.Whole lib) (s : σ) :
    (directCall lib device true call s).2 = (device call s).2 := by
  rw [directCall_alive, h.delivered]

theorem remoteRun_eq_directRun (hdevice : DeviceFits lib device) {ts : List (Transaction M B)}
    (hfits : ∀ t ∈ ts, t.call.Fits lib) (s : σ) :
    remoteRun fmt lib device ts s =
      ((directRun lib device ts s).1.map .ok, (directRun lib device ts s).2) := by
  induction ts generalizing s with
  | nil => rfl
  | cons t ts ih =>
      obtain ⟨hfirst, hrest⟩ := List.forall_mem_cons.mp hfits
      have hnext := ih hrest (directCall lib device t.alive t.call s).2
      rw [remoteRun, remoteCall_eq hfirst hdevice]
      dsimp only
      rw [hnext]
      rfl

theorem directRun_whole {ts : List (Transaction M B)}
    (h : ∀ t ∈ ts, t.alive ∧ t.call.Whole lib) (s : σ) :
    (directRun lib device ts s).2 = ts.foldl (fun s t => (device t.call s).2) s := by
  induction ts generalizing s with
  | nil => rfl
  | cons t ts ih =>
      obtain ⟨⟨halive, hwhole⟩, hrest⟩ := List.forall_mem_cons.mp h
      rw [directRun, List.foldl_cons, halive, ← directCall_whole hwhole]
      exact ih hrest _

end Run

/-- Over any sequence of calls, of which each may find the binder dead, the client sees and the
device becomes what the specification says, wherever the blobs lie. Whole calls are made of the
device as they are, each once and in their order. -/
theorem remoteRun_spec {β M B σ : Type} (fmt : ParcelFormat β B) (lib : MetadataLibrary M)
    (device : Device σ M B) (hdevice : DeviceFits lib device) (ts : List (Transaction M B))
    (hfits : ∀ t ∈ ts, t.call.Fits lib) (s : σ) :
    remoteRun fmt lib device ts s =
        ((directRun lib device ts s).1.map .ok, (directRun lib device ts s).2) ∧
      ((∀ t ∈ ts, t.alive ∧ t.call.Whole lib) →
        (remoteRun fmt lib device ts s).2 = ts.foldl (fun s t => (device t.call s).2) s) := by
  have hrun := @remoteRun_eq_directRun β M B σ fmt lib device hdevice ts hfits s
  refine ⟨hrun, fun hwhole => ?_⟩
  rw [hrun]
  exact directRun_whole hwhole s

/-- A device that counts the calls. -/
def countingDevice : Device Nat { bytes : List UInt8 // bytes ≠ [] } Nat := fun _ s =>
  (.of 0, s + 1)

/-- A request that is submitted, as the client does not see, and a stream that is not deleted,
as it does not see either. -/
def twoTransactions : List (Transaction { bytes : List UInt8 // bytes ≠ [] } Nat) :=
  [⟨.submitRequest (some ⟨some threeBytes, [some 7, none], true⟩) false false, true,
      fun _ => ⟨5, fun _ => 0⟩, ⟨0, fun _ => 0⟩⟩,
    ⟨.deleteStream 4, false, fun _ => ⟨0, fun _ => 0⟩, ⟨0, fun _ => 0⟩⟩]

theorem remoteRun_spec_two :
    remoteRun Item.format plainMetadata countingDevice twoTransactions 0 =
      ([.ok (.of failedTransaction), .ok (.of 0)], 1) := by
  have hfits : ∀ t ∈ twoTransactions, t.call.Fits plainMetadata := by
    intro t hmem
    rcases List.mem_cons.mp hmem with rfl | hmem
    · rintro sent ⟨⟩
      exact ⟨fun source hsource => (by cases hsource; decide), by decide⟩
    · obtain rfl := List.mem_singleton.mp hmem
      trivial
  exact (remoteRun_spec Item.format plainMetadata countingDevice (fun _ _ _ h => by cases h)
    twoTransactions hfits 0).1

end Msm8916.Camera
