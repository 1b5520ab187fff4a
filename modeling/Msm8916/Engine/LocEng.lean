import Msm8916.Lib.Transition

/-!
`loc_eng_data_s_type` and the messages of `loc_eng.cpp` that report to the
framework or change a session: position, satellite, measurement, NMEA and status
reports, start, stop, position mode, aiding data, and the engine going down and
up. What other parts of the engine do on a restart (NI, AGPS, configuration) is
not in these definitions. Calls that leave the engine are appended to a log,
which every event starts anew.
-/

namespace Msm8916.Engine

/-- `loc_mute_session_e_type`. -/
inductive LocMuteSession where
  | none
  | wait
  | inSession
deriving DecidableEq, Repr

/-- `loc_sess_status`. -/
inductive LocSessStatus where
  | success
  | intermediate
  | failure
deriving DecidableEq, Repr

/-- The number of a `loc_sess_status`, which `intermediateFix` is compared with. -/
def LocSessStatus.value : LocSessStatus → UInt8
  | .success => 0
  | .intermediate => 1
  | .failure => 2

abbrev GpsStatusValue := UInt16

def gpsStatusNone : GpsStatusValue := 0
def gpsStatusSessionBegin : GpsStatusValue := 1
def gpsStatusSessionEnd : GpsStatusValue := 2
def gpsStatusEngineOn : GpsStatusValue := 3
def gpsStatusEngineOff : GpsStatusValue := 4

abbrev LocPosTechMask := UInt32

def locPosTechMaskSatellite : LocPosTechMask := 0x00000001
def locPosTechMaskSensors : LocPosTechMask := 0x00000008
def locPosTechMaskHybrid : LocPosTechMask := 0x00000080

def gpsLocationHasAccuracy : UInt16 := 0x0010

def gpsPositionRecurrenceSingle : UInt32 := 1

/-- `LOC_API_ADAPTER_BIT_NMEA_1HZ_REPORT`. -/
def bitNmea1HzReport : UInt32 := 0x00000004

/-- `NMEA_PROVIDER_AP`. -/
def nmeaProviderAp : UInt32 := 0

abbrev LocApiAdapterErr := Int

def errSuccess : LocApiAdapterErr := 0
/-- Also the value of `LOC_API_ADAPTER_ERR_ENGINE_DOWN`. -/
def errPhoneOffline : LocApiAdapterErr := 7
def errInternal : LocApiAdapterErr := 10

abbrev GpsAidingData := UInt16

/-- `LocPositionMode`. -/
inductive LocPositionMode where
  | invalid
  | standalone
  | msBased
  | msAssisted
  | reserved1
  | reserved2
  | reserved3
  | reserved4
  | reserved5
deriving DecidableEq, Repr

/-- `LocPosMode`. -/
structure LocPosMode where
  mode : LocPositionMode
  recurrence : UInt32
  min_interval : UInt32
  preferred_accuracy : UInt32
  preferred_time : UInt32
  credentials : List UInt8
  provider : List UInt8
deriving DecidableEq

/-- The `GpsLocation` of a `UlpLocation`. -/
structure GpsLocation where
  flags : UInt16
  latitude : Float
  longitude : Float
  altitude : Float
  speed : Float32
  bearing : Float32
  accuracy : Float32
  timestamp : Int64

/-- The fields of `loc_gps_cfg_s_type` that the reports and `loc_eng_init` read. -/
structure LocGpsCfg where
  INTERMEDIATE_POS : UInt32
  ACCURACY_THRES : UInt32
  NMEA_PROVIDER : UInt32
deriving DecidableEq

/-- The types of what the reports carry and the engine only passes on;
`LocationExt` and `SvExt` are what `location_ext_parser` and `sv_ext_parser`
make of the extension of a report. -/
structure Payload where
  LocationExtended : Type
  LocationExt : Type
  SvStatus : Type
  SvExt : Type
  GpsData : Type

/-- The fields of `loc_eng_data_s_type` that `loc_eng_nmea.cpp` keeps. -/
structure NmeaData where
  sv_used_mask : UInt32
  hdop : Float32
  pdop : Float32
  vdop : Float32

/-- `loc_eng_nmea_generate_pos` and `loc_eng_nmea_generate_sv`: the fields they
leave and the sentences they give to `loc_eng_nmea_send`, in order. -/
structure NmeaGenerator (P : Payload) where
  generatePos : NmeaData → GpsLocation → P.LocationExtended → Bool →
    NmeaData × List (List UInt8)
  generateSv : NmeaData → P.SvStatus → P.LocationExtended → NmeaData × List (List UInt8)

/-- A call out of the engine: to the framework, to the modem through `mLocApi`,
or to the message queue. -/
inductive Effect (P : Payload) where
  | locationCb (location : Option (GpsLocation × P.LocationExt))
  | svStatusCb (svStatus : P.SvStatus) (svExt : P.SvExt)
  | gpsMeasurementCb (gpsData : P.GpsData)
  | nmeaCb (nmea : List UInt8)
  | statusCb (status : GpsStatusValue)
  | startFix (fixCriteria : LocPosMode)
  | stopFix
  | setInSession (inSession : Bool)
  | setPositionMode (fixCriteria : LocPosMode)
  | deleteAidingData (f : GpsAidingData)
  | sendStartFix

/-- The fields of `LocEngAdapter` that a session depends on. -/
structure LocEngAdapter where
  mFixCriteria : LocPosMode
  mNavigating : Bool

/-- `loc_eng_data_s_type`, with whether each callback is set, and `gps_conf`. -/
structure LocEng (P : Payload) where
  adapter : LocEngAdapter
  location_cb : Bool
  status_cb : Bool
  sv_status_cb : Bool
  nmea_cb : Bool
  gps_measurement_cb : Bool
  intermediateFix : UInt8
  engine_status : GpsStatusValue
  fix_session_status : GpsStatusValue
  aiding_data_for_deletion : GpsAidingData
  mute_session_state : LocMuteSession
  generateNmea : Bool
  nmeaData : NmeaData
  gps_conf : LocGpsCfg
  log : List (Effect P)

/-- The callbacks of `LocCallbacks` that reports go to, and whether they are set. -/
structure LocCallbacks where
  location_cb : Bool
  status_cb : Bool
  sv_status_cb : Bool
  nmea_cb : Bool
deriving DecidableEq

/-- `LocEngReportPosition`. -/
structure ReportPosition (P : Payload) where
  mLocation : GpsLocation
  mLocationExtended : P.LocationExtended
  mLocationExt : P.LocationExt
  mStatus : LocSessStatus
  mTechMask : LocPosTechMask

/-- A message of the engine. `startFix` has the error code the modem will answer. -/
inductive Msg (P : Payload) where
  | reportPosition (report : ReportPosition P)
  | reportSv (mSvStatus : P.SvStatus) (mLocationExtended : P.LocationExtended)
      (mSvExt : P.SvExt)
  | reportStatus (mStatus : GpsStatusValue)
  | reportNmea (mNmea : List UInt8)
  | reportGpsMeasurement (mGpsData : P.GpsData)
  | startFix (answer : LocApiAdapterErr)
  | stopFix
  | positionMode (mPosMode : LocPosMode)
  | delAidData (mType : GpsAidingData)
  | down
  | up

variable {P : Payload}

namespace LocEng

/-- `loc_eng_init`, and the constructor of `LocEngAdapter`. -/
def init (callbacks : LocCallbacks) (event : UInt32) (gps_conf : LocGpsCfg) : LocEng P where
  adapter := ⟨⟨.invalid, 0, 0, 0, 0, List.replicate 14 0, List.replicate 8 0⟩, false⟩
  location_cb := callbacks.location_cb
  status_cb := callbacks.status_cb
  sv_status_cb := callbacks.sv_status_cb
  nmea_cb := callbacks.nmea_cb
  gps_measurement_cb := false
  intermediateFix := gps_conf.INTERMEDIATE_POS.toUInt8
  engine_status := gpsStatusNone
  fix_session_status := gpsStatusNone
  aiding_data_for_deletion := 0
  mute_session_state := .none
  generateNmea := event &&& bitNmea1HzReport != 0 && gps_conf.NMEA_PROVIDER == nmeaProviderAp
  nmeaData := ⟨0, 0, 0, 0⟩
  gps_conf
  log := []

def emit (eng : LocEng P) (effect : Effect P) : LocEng P :=
  { eng with log := eng.log ++ [effect] }

/-! ## The adapter -/

/-- `LocEngAdapter::setInSession`. -/
def setInSession (eng : LocEng P) (inSession : Bool) : LocEng P :=
  let eng := { eng with adapter.mNavigating := inSession }.emit (.setInSession inSession)
  if inSession then eng
  else { eng with adapter.mFixCriteria.mode := .invalid }

/-- `LocEngAdapter::setPositionMode`. -/
def setPositionMode (eng : LocEng P) (posMode : LocPosMode) : LocEng P :=
  { eng with adapter.mFixCriteria := posMode }.emit (.setPositionMode posMode)

/-! ## Sessions -/

/-- `loc_eng_start_handler`. -/
def startHandler (eng : LocEng P) (answer : LocApiAdapterErr) : LocEng P :=
  if eng.adapter.mNavigating then eng
  else
    let eng := eng.emit (.startFix eng.adapter.mFixCriteria)
    if answer = errSuccess ∨ answer = errPhoneOffline ∨ answer = errInternal then
      eng.setInSession true
    else eng

/-- `loc_eng_stop_handler`. -/
def stopHandler (eng : LocEng P) : LocEng P :=
  if eng.adapter.mNavigating then (eng.emit .stopFix).setInSession false
  else eng

/-- `loc_eng_mute_one_session`. -/
def muteOneSession (eng : LocEng P) : LocEng P :=
  { eng with mute_session_state := .wait }

/-! ## Aiding data -/

/-- `update_aiding_data_for_deletion`. -/
def updateAidingDataForDeletion (eng : LocEng P) : LocEng P :=
  if eng.engine_status ≠ gpsStatusEngineOn ∧ eng.aiding_data_for_deletion ≠ 0 then
    { eng.emit (.deleteAidingData eng.aiding_data_for_deletion) with
      aiding_data_for_deletion := 0 }
  else eng

/-- `LocEngDelAidData::proc`. -/
def delAidData (eng : LocEng P) (mType : GpsAidingData) : LocEng P :=
  { eng with aiding_data_for_deletion := mType }.updateAidingDataForDeletion

/-! ## Reports -/

/-- `loc_eng_nmea_send`. -/
def nmeaSend (eng : LocEng P) (pNmea : List UInt8) : LocEng P :=
  if eng.nmea_cb then eng.emit (.nmeaCb pNmea) else eng

/-- The end of a generator: the fields it leaves, then its sentences. -/
def nmeaGenerated (eng : LocEng P) (generated : NmeaData × List (List UInt8)) : LocEng P :=
  generated.2.foldl nmeaSend { eng with nmeaData := generated.1 }

/-- Whether a position report that is not a failure goes to `location_cb`: a final
fix from satellites, sensors or both, or any fix when intermediate ones are wanted
and this one is not too inaccurate. -/
def accepts (eng : LocEng P) (report : ReportPosition P) : Bool :=
  (report.mStatus == .success &&
    ((locPosTechMaskSatellite ||| locPosTechMaskSensors ||| locPosTechMaskHybrid) &&&
      report.mTechMask) != 0) ||
  (LocSessStatus.intermediate.value == eng.intermediateFix &&
    !(report.mLocation.flags &&& gpsLocationHasAccuracy != 0 &&
      eng.gps_conf.ACCURACY_THRES != 0 &&
      eng.gps_conf.ACCURACY_THRES.toFloat32 < report.mLocation.accuracy))

/-- The first part of `LocEngReportPosition::proc`, which sets `reported`. -/
def tellLocation (eng : LocEng P) (report : ReportPosition P) : LocEng P × Bool :=
  if !eng.location_cb then (eng, false)
  else if report.mStatus = .failure then (eng.emit (.locationCb none), true)
  else if eng.accepts report then
    (eng.emit (.locationCb (some (report.mLocation, report.mLocationExt))), true)
  else (eng, false)

/-- The second part, for a fix that has been reported: it ends a single shot. -/
def endSingleShot (eng : LocEng P) (mStatus : LocSessStatus) : LocEng P :=
  if eng.adapter.mFixCriteria.recurrence = gpsPositionRecurrenceSingle then
    (if mStatus = .intermediate then eng.emit .stopFix else eng).setInSession false
  else eng

/-- `LocEngReportPosition::proc`. -/
def reportPosition (nmea : NmeaGenerator P) (eng : LocEng P) (report : ReportPosition P) :
    LocEng P :=
  if eng.mute_session_state = .inSession then eng
  else
    let (told, reported) := eng.tellLocation report
    let told := if reported then told.endSingleShot report.mStatus else told
    if told.generateNmea ∧ told.adapter.mNavigating then
      told.nmeaGenerated (nmea.generatePos told.nmeaData report.mLocation
        report.mLocationExtended (reported && report.mStatus != .failure))
    else told

/-- `LocEngReportSv::proc`. -/
def reportSv (nmea : NmeaGenerator P) (eng : LocEng P) (mSvStatus : P.SvStatus)
    (mLocationExtended : P.LocationExtended) (mSvExt : P.SvExt) : LocEng P :=
  if eng.mute_session_state = .inSession then eng
  else
    let eng := if eng.sv_status_cb then eng.emit (.svStatusCb mSvStatus mSvExt) else eng
    if eng.generateNmea then
      eng.nmeaGenerated (nmea.generateSv eng.nmeaData mSvStatus mLocationExtended)
    else eng

/-- `LocEngReportNmea::proc`. -/
def reportNmea (eng : LocEng P) (mNmea : List UInt8) : LocEng P :=
  if eng.nmea_cb then eng.emit (.nmeaCb mNmea) else eng

/-- `LocEngReportGpsMeasurement::proc`. -/
def reportGpsMeasurement (eng : LocEng P) (mGpsData : P.GpsData) : LocEng P :=
  if eng.mute_session_state = .inSession then eng
  else if eng.gps_measurement_cb then eng.emit (.gpsMeasurementCb mGpsData)
  else eng

/-- `loc_inform_gps_status`. -/
def informGpsStatus (eng : LocEng P) (status : GpsStatusValue) : LocEng P :=
  if eng.status_cb then eng.emit (.statusCb status) else eng

/-- What a status makes of `mute_session_state`. -/
def muteAfter (mute : LocMuteSession) (status : GpsStatusValue) : LocMuteSession :=
  let mute :=
    if (status = gpsStatusSessionBegin ∨ status = gpsStatusEngineOn) ∧ mute = .wait then
      .inSession
    else mute
  if mute = .inSession ∧ (status = gpsStatusSessionEnd ∨ status = gpsStatusEngineOff) then
    .none
  else mute

/-- `loc_eng_report_status`. -/
def reportStatus (eng : LocEng P) (status : GpsStatusValue) : LocEng P :=
  let eng := { eng with mute_session_state := muteAfter eng.mute_session_state status }
  let navigating := eng.adapter.mNavigating
  let eng :=
    if status ≠ gpsStatusNone ∧ ¬ (status = gpsStatusSessionEnd ∧ navigating) ∧
        ¬ (status = gpsStatusSessionBegin ∧ ¬ navigating) ∧
        eng.mute_session_state ≠ .inSession then
      eng.informGpsStatus status
    else eng
  let eng :=
    if status = gpsStatusEngineOn ∨ status = gpsStatusEngineOff then
      { eng with engine_status := status }
    else eng
  if status = gpsStatusSessionBegin ∨ status = gpsStatusSessionEnd then
    { eng with fix_session_status := status }
  else eng

/-! ## The engine going down and up -/

/-- `loc_eng_handle_engine_down`. -/
def handleEngineDown (eng : LocEng P) : LocEng P :=
  eng.reportStatus gpsStatusEngineOff

/-- `loc_eng_handle_engine_up`: a session that was interrupted is begun again by a
message. -/
def handleEngineUp (eng : LocEng P) : LocEng P :=
  if eng.adapter.mNavigating then (eng.setInSession false).emit .sendStartFix
  else eng

/-- `proc` of each message. -/
def proc (nmea : NmeaGenerator P) (eng : LocEng P) : Msg P → LocEng P
  | .reportPosition report => eng.reportPosition nmea report
  | .reportSv mSvStatus mLocationExtended mSvExt =>
      eng.reportSv nmea mSvStatus mLocationExtended mSvExt
  | .reportStatus mStatus => (eng.reportStatus mStatus).updateAidingDataForDeletion
  | .reportNmea mNmea => eng.reportNmea mNmea
  | .reportGpsMeasurement mGpsData => eng.reportGpsMeasurement mGpsData
  | .startFix answer => eng.startHandler answer
  | .stopFix => eng.stopHandler
  | .positionMode mPosMode => eng.setPositionMode mPosMode
  | .delAidData mType => eng.delAidData mType
  | .down => eng.handleEngineDown
  | .up => eng.handleEngineUp

/-- What happens to the engine: a message is processed, an NI request with
`GPS_NI_PRIVACY_OVERRIDE` mutes a session, the framework opens or closes the
measurement interface, or `gps_conf` is updated. -/
inductive Event (P : Payload) where
  | msg (msg : Msg P)
  | muteOneSession
  | gpsMeasurementInit (measurement_callback : Bool)
  | gpsMeasurementClose
  | configurationUpdate (gps_conf : LocGpsCfg)

/-- `loc_eng_gps_measurement_init`. -/
def gpsMeasurementInit (eng : LocEng P) (measurement_callback : Bool) : LocEng P :=
  if eng.gps_measurement_cb then eng
  else { eng with gps_measurement_cb := measurement_callback }

def handle (nmea : NmeaGenerator P) (eng : LocEng P) : Event P → LocEng P
  | .msg msg => eng.proc nmea msg
  | .muteOneSession => eng.muteOneSession
  | .gpsMeasurementInit measurement_callback => eng.gpsMeasurementInit measurement_callback
  | .gpsMeasurementClose => { eng with gps_measurement_cb := false }
  | .configurationUpdate gps_conf => { eng with gps_conf }

def step (nmea : NmeaGenerator P) (eng : LocEng P) (event : Event P) : Option (LocEng P) :=
  some (handle nmea { eng with log := [] } event)

/-! ## What a report leaves alone -/

end LocEng

/-- A call of a callback of the framework. -/
def Effect.toFramework : Effect P → Bool
  | .locationCb _ | .svStatusCb _ _ | .gpsMeasurementCb _ | .nmeaCb _ | .statusCb _ => true
  | _ => false

/-- A view of the engine that shows no callback of the framework and no field of
`loc_eng_nmea.cpp`, so that it shows nothing of a report. -/
structure Unreported {β : Type*} (view : LocEng P → β) : Prop where
  emit (eng : LocEng P) (effect : Effect P) (heffect : effect.toFramework = true) :
    view (eng.emit effect) = view eng
  nmeaData (eng : LocEng P) (nmeaData : NmeaData) : view { eng with nmeaData } = view eng

namespace Unreported

variable {β : Type*} {view : LocEng P → β} (h : Unreported view)

include h

theorem nmeaSend (eng : LocEng P) (pNmea : List UInt8) : view (eng.nmeaSend pNmea) = view eng := by
  unfold LocEng.nmeaSend
  split
  · exact h.emit eng _ rfl
  · rfl

theorem nmeaGenerated (eng : LocEng P) (generated : NmeaData × List (List UInt8)) :
    view (eng.nmeaGenerated generated) = view eng := by
  have hfold : ∀ (sentences : List (List UInt8)) (eng : LocEng P),
      view (sentences.foldl LocEng.nmeaSend eng) = view eng := by
    intro sentences
    induction sentences with
    | nil => exact fun _ => rfl
    | cons sentence sentences ih =>
        intro eng
        rw [List.foldl_cons, ih, h.nmeaSend]
  exact (hfold generated.2 _).trans (h.nmeaData eng generated.1)

theorem tellLocation (eng : LocEng P) (report : ReportPosition P) :
    view (eng.tellLocation report).1 = view eng := by
  unfold LocEng.tellLocation
  split_ifs
  · rfl
  · exact h.emit eng _ rfl
  · exact h.emit eng _ rfl
  · rfl

/-- A position report shows by the single shot it ends, if it does. -/
theorem reportPosition (nmea : NmeaGenerator P) (eng : LocEng P) (report : ReportPosition P) :
    view (eng.reportPosition nmea report) = view eng ∨
      view (eng.reportPosition nmea report) =
        view ((eng.tellLocation report).1.endSingleShot report.mStatus) := by
  unfold LocEng.reportPosition
  split
  · exact .inl rfl
  · dsimp only
    split_ifs
    · exact .inr (h.nmeaGenerated _ _)
    · exact .inr rfl
    · exact .inl ((h.nmeaGenerated _ _).trans (h.tellLocation eng report))
    · exact .inl (h.tellLocation eng report)

theorem reportSv (nmea : NmeaGenerator P) (eng : LocEng P) (mSvStatus : P.SvStatus)
    (mLocationExtended : P.LocationExtended) (mSvExt : P.SvExt) :
    view (eng.reportSv nmea mSvStatus mLocationExtended mSvExt) = view eng := by
  have hemit := h.emit eng (.svStatusCb mSvStatus mSvExt) rfl
  unfold LocEng.reportSv
  split
  · rfl
  · dsimp only
    split_ifs
    · exact (h.nmeaGenerated _ _).trans hemit
    · exact hemit
    · exact h.nmeaGenerated _ _
    · rfl

theorem reportNmea (eng : LocEng P) (mNmea : List UInt8) :
    view (eng.reportNmea mNmea) = view eng := by
  unfold LocEng.reportNmea
  split
  · exact h.emit eng _ rfl
  · rfl

theorem reportGpsMeasurement (eng : LocEng P) (mGpsData : P.GpsData) :
    view (eng.reportGpsMeasurement mGpsData) = view eng := by
  unfold LocEng.reportGpsMeasurement
  split_ifs
  · rfl
  · exact h.emit eng _ rfl
  · rfl

theorem informGpsStatus (eng : LocEng P) (status : GpsStatusValue) :
    view (eng.informGpsStatus status) = view eng := by
  unfold LocEng.informGpsStatus
  split
  · exact h.emit eng _ rfl
  · rfl

/-- A status report shows by the statuses it keeps. -/
theorem reportStatus (eng : LocEng P) (status : GpsStatusValue)
    (hstatus : ∀ (eng : LocEng P) mute engine fix, view { eng with
      mute_session_state := mute, engine_status := engine, fix_session_status := fix } = view eng) :
    view (eng.reportStatus status) = view eng := by
  let muted : LocEng P :=
    { eng with mute_session_state := LocEng.muteAfter eng.mute_session_state status }
  have hmuted : view muted = view eng := hstatus eng _ _ _
  have hinformed : view (muted.informGpsStatus status) = view eng :=
    (h.informGpsStatus muted status).trans hmuted
  have hkept : ∀ (told : LocEng P) engine fix, view told = view eng →
      view { told with engine_status := engine, fix_session_status := fix } = view eng :=
    fun told engine fix htold => (hstatus told told.mute_session_state engine fix).trans htold
  unfold LocEng.reportStatus
  dsimp only
  split_ifs
  all_goals
    first
    | exact hkept (muted.informGpsStatus status) _ _ hinformed
    | exact hkept muted _ _ hmuted

end Unreported

namespace LocEng

/-! ## The callbacks stay as `loc_eng_init` saved them -/

def callbacks (eng : LocEng P) : LocCallbacks :=
  ⟨eng.location_cb, eng.status_cb, eng.sv_status_cb, eng.nmea_cb⟩

@[simp]
theorem init_callbacks (callbacks : LocCallbacks) (event : UInt32) (gps_conf : LocGpsCfg) :
    (init callbacks event gps_conf : LocEng P).callbacks = callbacks := rfl

@[simp]
theorem emit_callbacks (eng : LocEng P) (effect : Effect P) :
    (eng.emit effect).callbacks = eng.callbacks := rfl

@[simp]
theorem setInSession_callbacks (eng : LocEng P) (inSession : Bool) :
    (eng.setInSession inSession).callbacks = eng.callbacks := by
  cases inSession <;> rfl

@[simp]
theorem startHandler_callbacks (eng : LocEng P) (answer : LocApiAdapterErr) :
    (eng.startHandler answer).callbacks = eng.callbacks := by
  unfold startHandler
  split
  · rfl
  · dsimp only
    split <;> simp

@[simp]
theorem stopHandler_callbacks (eng : LocEng P) :
    eng.stopHandler.callbacks = eng.callbacks := by
  unfold stopHandler
  split <;> simp

@[simp]
theorem updateAidingDataForDeletion_callbacks (eng : LocEng P) :
    eng.updateAidingDataForDeletion.callbacks = eng.callbacks := by
  unfold updateAidingDataForDeletion
  split <;> rfl

theorem callbacks_unreported : Unreported (callbacks : LocEng P → LocCallbacks) :=
  ⟨fun _ _ _ => rfl, fun _ _ => rfl⟩

@[simp]
theorem endSingleShot_callbacks (eng : LocEng P) (mStatus : LocSessStatus) :
    (eng.endSingleShot mStatus).callbacks = eng.callbacks := by
  unfold endSingleShot
  split_ifs <;> simp

theorem proc_callbacks (nmea : NmeaGenerator P) (eng : LocEng P) (msg : Msg P) :
    (eng.proc nmea msg).callbacks = eng.callbacks := by
  cases msg with
  | reportPosition report =>
      rcases callbacks_unreported.reportPosition nmea eng report with hsame | hended
      · exact hsame
      · refine hended.trans ((endSingleShot_callbacks _ _).trans ?_)
        exact callbacks_unreported.tellLocation eng report
  | reportSv mSvStatus mLocationExtended mSvExt =>
      exact callbacks_unreported.reportSv nmea eng mSvStatus mLocationExtended mSvExt
  | reportStatus mStatus =>
      have hreport := callbacks_unreported.reportStatus eng mStatus fun _ _ _ _ => rfl
      exact (updateAidingDataForDeletion_callbacks _).trans hreport
  | reportNmea mNmea => exact callbacks_unreported.reportNmea eng mNmea
  | reportGpsMeasurement mGpsData => exact callbacks_unreported.reportGpsMeasurement eng mGpsData
  | startFix answer => simp [proc]
  | stopFix => simp [proc]
  | positionMode mPosMode => rfl
  | delAidData mType => exact updateAidingDataForDeletion_callbacks _
  | down => exact callbacks_unreported.reportStatus eng gpsStatusEngineOff fun _ _ _ _ => rfl
  | up =>
      unfold proc handleEngineUp
      dsimp only
      split <;> simp

theorem step_callbacks {nmea : NmeaGenerator P} {eng next : LocEng P} {event : Event P}
    (h : step nmea eng event = some next) : next.callbacks = eng.callbacks := by
  obtain rfl := Option.some.inj h
  cases event with
  | msg msg => exact proc_callbacks nmea _ msg
  | muteOneSession => rfl
  | gpsMeasurementInit measurement_callback =>
      unfold handle gpsMeasurementInit
      dsimp only
      split <;> rfl
  | gpsMeasurementClose => rfl
  | configurationUpdate gps_conf => rfl

end LocEng

end Msm8916.Engine
