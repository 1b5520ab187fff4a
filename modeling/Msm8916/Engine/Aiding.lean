import Msm8916.Engine.LocEng

/-!
What becomes of the requests to delete aiding data. A request that comes while
the engine is on is parked in `aiding_data_for_deletion` until a status report
says that the engine is off; a second one takes the place of the first.
-/

namespace Msm8916.Engine

open Transition

variable {P : Payload}

/-- The mask that a call hands to the adapter's `deleteAidingData`. -/
def Effect.deletes : Effect P → GpsAidingData
  | .deleteAidingData f => f
  | _ => 0

def deletedBy (log : List (Effect P)) : GpsAidingData :=
  log.foldr (fun effect mask => effect.deletes ||| mask) 0

namespace LocEng

/-- The mask of a request to delete aiding data. -/
def Event.requests : Event P → GpsAidingData
  | .msg (.delAidData mType) => mType
  | _ => 0

/-- What has been handed to the adapter since the event began, and what is parked. -/
def owed (eng : LocEng P) : GpsAidingData :=
  deletedBy eng.log ||| eng.aiding_data_for_deletion

end LocEng

/-- The engine, with the union of the masks requested and of those delivered. -/
structure Aiding (P : Payload) where
  eng : LocEng P
  requested : GpsAidingData
  delivered : GpsAidingData

namespace Aiding

def init (callbacks : LocCallbacks) (event : UInt32) (gps_conf : LocGpsCfg) : Aiding P :=
  ⟨LocEng.init callbacks event gps_conf, 0, 0⟩

def step (nmea : NmeaGenerator P) (state : Aiding P) (event : LocEng.Event P) :
    Option (Aiding P) :=
  (LocEng.step nmea state.eng event).map fun next =>
    ⟨next, state.requested ||| event.requests, state.delivered ||| deletedBy next.log⟩

/-- No request has been lost: it is delivered or pending. -/
def Conserved (state : Aiding P) : Prop :=
  state.delivered ||| state.eng.aiding_data_for_deletion = state.requested

/-- The event leaves no request lost. -/
def Conserves (nmea : NmeaGenerator P) (state : Aiding P) (event : LocEng.Event P) : Prop :=
  ∀ next, state.step nmea event = some next → next.Conserved

/-- A request that finds another one pending asks again for all of it that has
not been delivered before. -/
def Repeats (state : Aiding P) (event : LocEng.Event P) : Prop :=
  ∀ mType, event = .msg (.delAidData mType) →
    state.eng.aiding_data_for_deletion &&& ~~~(mType ||| state.delivered) = 0

end Aiding

/-! ## What an engine owes -/

theorem deletedBy_append (first second : List (Effect P)) :
    deletedBy (first ++ second) = deletedBy first ||| deletedBy second := by
  induction first with
  | nil => simp [deletedBy]
  | cons effect effects ih =>
      have hcons : deletedBy (effect :: effects) = effect.deletes ||| deletedBy effects := rfl
      have happend : deletedBy (effect :: effects ++ second) =
          effect.deletes ||| deletedBy (effects ++ second) := rfl
      rw [happend, ih, hcons, UInt16.or_assoc]

namespace LocEng

theorem emit_owed (eng : LocEng P) (effect : Effect P) :
    (eng.emit effect).owed = eng.owed ||| effect.deletes := by
  have hone : deletedBy [effect] = effect.deletes := by simp [deletedBy]
  simp only [owed, emit, deletedBy_append, hone]
  ac_rfl

theorem emit_owed_of_none (eng : LocEng P) {effect : Effect P} (h : effect.deletes = 0) :
    (eng.emit effect).owed = eng.owed := by
  rw [emit_owed, h, UInt16.or_zero]

theorem setInSession_owed (eng : LocEng P) (inSession : Bool) :
    (eng.setInSession inSession).owed = eng.owed := by
  have hemit : ({ eng with adapter.mNavigating := inSession }.emit
      (.setInSession inSession)).owed = eng.owed :=
    emit_owed_of_none { eng with adapter.mNavigating := inSession } rfl
  cases inSession with
  | true => exact hemit
  | false => exact hemit

theorem startHandler_owed (eng : LocEng P) (answer : LocApiAdapterErr) :
    (eng.startHandler answer).owed = eng.owed := by
  have hemit : (eng.emit (.startFix eng.adapter.mFixCriteria)).owed = eng.owed :=
    emit_owed_of_none eng rfl
  unfold startHandler
  split
  · rfl
  · dsimp only
    split
    · rw [setInSession_owed, hemit]
    · exact hemit

theorem stopHandler_owed (eng : LocEng P) : eng.stopHandler.owed = eng.owed := by
  unfold stopHandler
  split
  · rw [setInSession_owed]
    exact emit_owed_of_none eng rfl
  · rfl

/-- A flush hands over what was parked. -/
theorem updateAidingDataForDeletion_owed (eng : LocEng P) :
    eng.updateAidingDataForDeletion.owed = eng.owed := by
  unfold updateAidingDataForDeletion
  split
  · have hone : deletedBy [Effect.deleteAidingData (P := P) eng.aiding_data_for_deletion] =
        eng.aiding_data_for_deletion := by simp [deletedBy, Effect.deletes]
    simp only [owed, emit, deletedBy_append, hone, UInt16.or_zero]
  · rfl

theorem owed_unreported : Unreported (owed : LocEng P → GpsAidingData) where
  emit eng effect heffect := by
    apply emit_owed_of_none
    cases effect <;> first | rfl | cases heffect
  nmeaData _ _ := rfl

theorem endSingleShot_owed (eng : LocEng P) (mStatus : LocSessStatus) :
    (eng.endSingleShot mStatus).owed = eng.owed := by
  unfold endSingleShot
  split_ifs
  · rw [setInSession_owed]
    exact emit_owed_of_none eng rfl
  · exact setInSession_owed eng false
  · rfl

theorem handleEngineUp_owed (eng : LocEng P) : eng.handleEngineUp.owed = eng.owed := by
  unfold handleEngineUp
  split
  · rw [emit_owed_of_none _ rfl, setInSession_owed]
  · rfl

/-- A message that is no request changes what is owed from parked to delivered or
not at all. -/
theorem proc_owed (nmea : NmeaGenerator P) (eng : LocEng P) {msg : Msg P}
    (h : ∀ mType, msg ≠ .delAidData mType) : (eng.proc nmea msg).owed = eng.owed := by
  cases msg with
  | reportPosition report =>
      rcases owed_unreported.reportPosition nmea eng report with hsame | hended
      · exact hsame
      · refine hended.trans ((endSingleShot_owed _ _).trans ?_)
        exact owed_unreported.tellLocation eng report
  | reportSv mSvStatus mLocationExtended mSvExt =>
      exact owed_unreported.reportSv nmea eng mSvStatus mLocationExtended mSvExt
  | reportStatus mStatus =>
      have hreport := owed_unreported.reportStatus eng mStatus fun _ _ _ _ => rfl
      exact (updateAidingDataForDeletion_owed _).trans hreport
  | reportNmea mNmea => exact owed_unreported.reportNmea eng mNmea
  | reportGpsMeasurement mGpsData => exact owed_unreported.reportGpsMeasurement eng mGpsData
  | startFix answer => exact startHandler_owed eng answer
  | stopFix => exact stopHandler_owed eng
  | positionMode mPosMode =>
      exact emit_owed_of_none { eng with adapter.mFixCriteria := mPosMode } rfl
  | delAidData mType => exact absurd rfl (h mType)
  | down => exact owed_unreported.reportStatus eng gpsStatusEngineOff fun _ _ _ _ => rfl
  | up => exact handleEngineUp_owed eng

theorem handle_owed (nmea : NmeaGenerator P) (eng : LocEng P) {event : Event P}
    (h : ∀ mType, event ≠ .msg (.delAidData mType)) : (handle nmea eng event).owed = eng.owed := by
  cases event with
  | msg msg => exact proc_owed nmea eng fun mType heq => h mType (congrArg Event.msg heq)
  | muteOneSession => rfl
  | gpsMeasurementInit measurement_callback =>
      unfold handle gpsMeasurementInit
      dsimp only
      split <;> rfl
  | gpsMeasurementClose => rfl
  | configurationUpdate gps_conf => rfl

end LocEng

/-! ## One event -/

theorem mask_lost_iff (pending asked delivered : GpsAidingData) :
    delivered ||| asked = (delivered ||| pending) ||| asked ↔
      pending &&& ~~~(asked ||| delivered) = 0 := by
  rw [← UInt16.toBitVec_inj, ← UInt16.toBitVec_inj]
  simp only [UInt16.toBitVec_or, UInt16.toBitVec_and, UInt16.toBitVec_not,
    BitVec.eq_of_getLsbD_eq_iff]
  constructor
  · intro h bit hbit
    have hsame := h bit hbit
    simp at hsame ⊢
    grind
  · intro h bit hbit
    have hnone := h bit hbit
    simp at hnone ⊢
    grind

namespace Aiding

theorem conserves_iff (nmea : NmeaGenerator P) {state : Aiding P} (h : state.Conserved)
    (event : LocEng.Event P) : state.Conserves nmea event ↔ state.Repeats event := by
  have hstart : ({ state.eng with log := [] } : LocEng P).owed =
      state.eng.aiding_data_for_deletion := by simp [LocEng.owed, deletedBy]
  have hnext : state.Conserves nmea event ↔
      state.delivered ||| (LocEng.handle nmea { state.eng with log := [] } event).owed =
        state.requested ||| event.requests := by
    simp only [Conserves, step, LocEng.step, Option.map_some, Option.some.injEq, forall_eq',
      Conserved, LocEng.owed, UInt16.or_assoc]
  rw [hnext, ← h]
  by_cases hasks : ∃ mType, event = .msg (.delAidData mType)
  · obtain ⟨mType, rfl⟩ := hasks
    have howed : (LocEng.handle nmea { state.eng with log := [] }
        (.msg (.delAidData mType))).owed = mType := by
      refine (LocEng.updateAidingDataForDeletion_owed _).trans ?_
      simp [LocEng.owed, deletedBy]
    rw [howed, LocEng.Event.requests, mask_lost_iff]
    constructor
    · rintro hlost other heq
      cases heq
      exact hlost
    · exact fun hrepeats => hrepeats mType rfl
  · have hnone : ∀ mType, event ≠ .msg (.delAidData mType) :=
      fun mType heq => hasks ⟨mType, heq⟩
    have hzero : event.requests = 0 := by
      unfold LocEng.Event.requests
      split
      · exact absurd rfl (hnone _)
      · rfl
    rw [LocEng.handle_owed nmea _ hnone, hstart, hzero, UInt16.or_zero]
    exact ⟨fun _ mType heq => absurd heq (hnone mType), fun _ => rfl⟩

/-! ## Runs -/

theorem init_conserved (callbacks : LocCallbacks) (event : UInt32) (gps_conf : LocGpsCfg) :
    (init callbacks event gps_conf : Aiding P).Conserved := by
  simp [Conserved, init, LocEng.init]

/-- Along a run no request to delete aiding data is lost exactly if each of them
that finds another one parked repeats it. -/
theorem aiding_conserved_iff (nmea : NmeaGenerator P) (callbacks : LocCallbacks)
    (event : UInt32) (gps_conf : LocGpsCfg) (events : List (LocEng.Event P)) :
    Along (step nmea) (Conserves nmea) (init callbacks event gps_conf) events ↔
      Along (step nmea) Repeats (init callbacks event gps_conf) events :=
  along_congr (I := Conserved) (fun _ _ next _ hkept hstep => hkept next hstep)
    (fun _ event h => conserves_iff nmea h event) (init_conserved callbacks event gps_conf) events

/-- Two requests come while the engine is on. When it goes off only the second is
handed to the adapter. -/
theorem first_request_lost :
    ¬ ∀ (nmea : NmeaGenerator ⟨Unit, Unit, Unit, Unit, Unit⟩)
      (callbacks : LocCallbacks) (event : UInt32) (gps_conf : LocGpsCfg)
      (events : List (LocEng.Event ⟨Unit, Unit, Unit, Unit, Unit⟩)) (state : Aiding _),
      exec (step nmea) (init callbacks event gps_conf) events = some state →
      state.Conserved := by
  intro hall
  have hlost : (2 : GpsAidingData) = 3 :=
    hall ⟨fun data _ _ _ => (data, []), fun data _ _ => (data, [])⟩
      ⟨true, true, true, true⟩ bitNmea1HzReport ⟨0, 0, 0⟩
      [.msg (.reportStatus gpsStatusEngineOn), .msg (.delAidData 1), .msg (.delAidData 2),
        .msg (.reportStatus gpsStatusEngineOff)] _ rfl
  exact absurd hlost (by decide)

end Aiding

end Msm8916.Engine
