import Msm8916.Engine.LocEng

/-!
A muted session. A privacy-override NI request asks for it, the first status
report of the session begins it and the last one ends it. While it lasts the
reports are to be kept from the framework; `LocEngReportNmea::proc` is the one
that does not look.
-/

namespace Msm8916.Engine

open Transition

variable {P : Payload}

/-- A call of one of `location_cb`, `sv_status_cb`, `gps_measurement_cb` and
`nmea_cb`. -/
def Effect.reports : Effect P → Bool
  | .locationCb _ | .svStatusCb _ _ | .gpsMeasurementCb _ | .nmeaCb _ => true
  | _ => false

namespace LocEng

/-- No report has been made since the event began. -/
def Quiet (eng : LocEng P) : Prop := ∀ effect ∈ eng.log, effect.reports = false

/-- Whether the event keeps the reports from the framework if the session is
muted. -/
def Private (nmea : NmeaGenerator P) (eng : LocEng P) (event : Event P) : Prop :=
  eng.mute_session_state = .inSession →
    ∀ next, step nmea eng event = some next → next.Quiet

/-- Whether the event is no NMEA report of the modem that reaches `nmea_cb` in a
muted session. -/
def NmeaHeld (eng : LocEng P) (event : Event P) : Prop :=
  eng.mute_session_state = .inSession → eng.nmea_cb = true →
    ∀ mNmea, event ≠ .msg (.reportNmea mNmea)

/-! ## What each part of a message emits -/

theorem quiet_emit {eng : LocEng P} {effect : Effect P} (h : eng.Quiet)
    (heffect : effect.reports = false) : (eng.emit effect).Quiet := by
  intro other hother
  rcases List.mem_append.mp hother with hold | hnew
  · exact h other hold
  · rw [List.mem_singleton.mp hnew]
    exact heffect

theorem setInSession_quiet {eng : LocEng P} (h : eng.Quiet) (inSession : Bool) :
    (eng.setInSession inSession).Quiet := by
  have hemit : ({ eng with adapter.mNavigating := inSession }.emit
      (.setInSession inSession)).Quiet := quiet_emit h rfl
  unfold setInSession
  cases inSession with
  | true => exact hemit
  | false => exact hemit

theorem startHandler_quiet {eng : LocEng P} (h : eng.Quiet) (answer : LocApiAdapterErr) :
    (eng.startHandler answer).Quiet := by
  have hemit : (eng.emit (.startFix eng.adapter.mFixCriteria)).Quiet := quiet_emit h rfl
  unfold startHandler
  split
  · exact h
  · dsimp only
    split
    · exact setInSession_quiet hemit true
    · exact hemit

theorem stopHandler_quiet {eng : LocEng P} (h : eng.Quiet) : eng.stopHandler.Quiet := by
  unfold stopHandler
  split
  · exact setInSession_quiet (quiet_emit h rfl) false
  · exact h

theorem updateAidingDataForDeletion_quiet {eng : LocEng P} (h : eng.Quiet) :
    eng.updateAidingDataForDeletion.Quiet := by
  unfold updateAidingDataForDeletion
  split
  · exact quiet_emit h rfl
  · exact h

theorem informGpsStatus_quiet {eng : LocEng P} (h : eng.Quiet) (status : GpsStatusValue) :
    (eng.informGpsStatus status).Quiet := by
  unfold informGpsStatus
  split
  · exact quiet_emit h rfl
  · exact h

/-- A status report emits what `loc_inform_gps_status` does, if anything. -/
theorem reportStatus_log (eng : LocEng P) (status : GpsStatusValue) :
    (eng.reportStatus status).log = eng.log ∨
      (eng.reportStatus status).log = (eng.informGpsStatus status).log := by
  unfold reportStatus informGpsStatus emit
  grind

theorem reportStatus_quiet {eng : LocEng P} (h : eng.Quiet) (status : GpsStatusValue) :
    (eng.reportStatus status).Quiet := by
  rcases reportStatus_log eng status with hlog | hlog
  · rw [Quiet, hlog]
    exact h
  · rw [Quiet, hlog]
    exact informGpsStatus_quiet h status

theorem handleEngineUp_quiet {eng : LocEng P} (h : eng.Quiet) : eng.handleEngineUp.Quiet := by
  unfold handleEngineUp
  split
  · exact quiet_emit (setInSession_quiet h false) rfl
  · exact h

/-! ## A message in a muted session -/

theorem proc_quiet_iff {nmea : NmeaGenerator P} {eng : LocEng P} (h : eng.Quiet)
    (hmuted : eng.mute_session_state = .inSession) (msg : Msg P) :
    (eng.proc nmea msg).Quiet ↔ (eng.nmea_cb = true → ∀ mNmea, msg ≠ .reportNmea mNmea) := by
  cases msg with
  | reportNmea mNmea =>
      cases hcb : eng.nmea_cb with
      | false => simpa [proc, reportNmea, hcb] using h
      | true =>
          constructor
          · intro hquiet
            have := hquiet (.nmeaCb mNmea) (by simp [proc, reportNmea, hcb, emit])
            cases this
          · intro hnone
            exact absurd rfl (hnone rfl mNmea)
  | reportPosition report => simpa [proc, reportPosition, hmuted] using h
  | reportSv mSvStatus mLocationExtended mSvExt => simpa [proc, reportSv, hmuted] using h
  | reportGpsMeasurement mGpsData => simpa [proc, reportGpsMeasurement, hmuted] using h
  | reportStatus mStatus =>
      simpa [proc] using updateAidingDataForDeletion_quiet (reportStatus_quiet h mStatus)
  | startFix answer => simpa [proc] using startHandler_quiet h answer
  | stopFix => simpa [proc] using stopHandler_quiet h
  | positionMode mPosMode =>
      have hemit : (eng.setPositionMode mPosMode).Quiet := quiet_emit h rfl
      simpa [proc] using hemit
  | delAidData mType =>
      have hquiet : (eng.delAidData mType).Quiet := updateAidingDataForDeletion_quiet h
      simpa [proc] using hquiet
  | down =>
      have hquiet : eng.handleEngineDown.Quiet := reportStatus_quiet h gpsStatusEngineOff
      simpa [proc] using hquiet
  | up => simpa [proc] using handleEngineUp_quiet h

theorem handle_quiet_iff {nmea : NmeaGenerator P} {eng : LocEng P} (h : eng.Quiet)
    (hmuted : eng.mute_session_state = .inSession) (event : Event P) :
    (handle nmea eng event).Quiet ↔
      (eng.nmea_cb = true → ∀ mNmea, event ≠ .msg (.reportNmea mNmea)) := by
  cases event with
  | msg msg => simpa [handle] using proc_quiet_iff h hmuted msg
  | muteOneSession =>
      have hquiet : eng.muteOneSession.Quiet := h
      simpa [handle] using hquiet
  | gpsMeasurementInit measurement_callback =>
      have hquiet : (eng.gpsMeasurementInit measurement_callback).Quiet := by
        unfold gpsMeasurementInit
        split
        · exact h
        · exact h
      simpa [handle] using hquiet
  | gpsMeasurementClose =>
      have hquiet : ({ eng with gps_measurement_cb := false } : LocEng P).Quiet := h
      simpa [handle] using hquiet
  | configurationUpdate gps_conf =>
      have hquiet : ({ eng with gps_conf } : LocEng P).Quiet := h
      simpa [handle] using hquiet

theorem private_iff (nmea : NmeaGenerator P) (eng : LocEng P) (event : Event P) :
    Private nmea eng event ↔ eng.NmeaHeld event := by
  apply forall_congr'
  intro hmuted
  have hstart : Quiet ({ eng with log := [] } : LocEng P) := by simp [Quiet]
  have hhandle : (handle nmea { eng with log := [] } event).Quiet ↔ _ :=
    handle_quiet_iff hstart hmuted event
  rw [← hhandle]
  simp [step]

/-! ## Runs -/

/-- A session can always be muted. -/
theorem exists_muted (nmea : NmeaGenerator P) (callbacks : LocCallbacks) (event : UInt32)
    (gps_conf : LocGpsCfg) :
    ∃ eng, Reachable (step nmea) (init callbacks event gps_conf) eng ∧
      eng.mute_session_state = .inSession :=
  ⟨_, ⟨[.muteOneSession, .msg (.reportStatus gpsStatusEngineOn)], rfl⟩, rfl⟩

/-- A muted session is kept from the framework exactly as long as the modem sends
no NMEA report, and whatever the modem sends exactly if there is no `nmea_cb`. -/
theorem mute_privacy (nmea : NmeaGenerator P) (callbacks : LocCallbacks) (event : UInt32)
    (gps_conf : LocGpsCfg) :
    (∀ events, Along (step nmea) (Private nmea) (init callbacks event gps_conf) events ↔
      Along (step nmea) NmeaHeld (init callbacks event gps_conf) events) ∧
    ((∀ eng, Reachable (step nmea) (init callbacks event gps_conf) eng →
      ∀ msg, Private nmea eng (.msg msg)) ↔ callbacks.nmea_cb = false) := by
  constructor
  · intro events
    exact along_congr (I := fun _ => True) (fun _ _ _ _ _ _ => trivial)
      (fun eng event _ => private_iff nmea eng event) trivial events
  · have hcallbacks : ∀ eng, Reachable (step nmea) (init callbacks event gps_conf) eng →
        eng.nmea_cb = callbacks.nmea_cb := by
      intro eng hreach
      have hsame : eng.callbacks = callbacks :=
        invariant_of_step (I := fun eng => eng.callbacks = callbacks)
          (fun eng event next hsame hstep => (step_callbacks hstep).trans hsame) rfl hreach
      exact congrArg LocCallbacks.nmea_cb hsame
    constructor
    · intro hprivate
      obtain ⟨eng, hreach, hmuted⟩ := exists_muted nmea callbacks event gps_conf
      have hheld := (private_iff nmea eng _).mp (hprivate eng hreach (.reportNmea []))
      rw [← hcallbacks eng hreach]
      by_contra hcb
      exact hheld hmuted ((Bool.not_eq_false _).mp hcb) [] rfl
    · intro hnone eng hreach msg
      apply (private_iff nmea eng _).mpr
      intro _ hcb
      rw [hcallbacks eng hreach, hnone] at hcb
      cases hcb

/-- With the NMEA reports of the modem enabled, the location of a muted session
reaches `nmea_cb`. -/
theorem muted_session_leaks :
    ∃ eng next : LocEng ⟨Unit, Unit, Unit, Unit, Unit⟩,
      exec (step ⟨fun data _ _ _ => (data, []), fun data _ _ => (data, [])⟩)
          (init ⟨true, true, true, true⟩ bitNmea1HzReport ⟨0, 0, 1⟩)
          [.muteOneSession, .msg (.reportStatus gpsStatusEngineOn)] = some eng ∧
      eng.mute_session_state = .inSession ∧
      step ⟨fun data _ _ _ => (data, []), fun data _ _ => (data, [])⟩ eng
          (.msg (.reportNmea [0x24, 0x47, 0x50, 0x47, 0x47, 0x41])) = some next ∧
      .nmeaCb [0x24, 0x47, 0x50, 0x47, 0x47, 0x41] ∈ next.log :=
  ⟨_, _, rfl, rfl, rfl, List.mem_singleton.mpr rfl⟩

end LocEng

end Msm8916.Engine
