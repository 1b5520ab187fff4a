import Msm8916.Engine.Mute
import Msm8916.Engine.Session

/-!
Single shots. `LocEngReportPosition::proc` ends the session with the fix it reports,
and generates no NMEA sentences once the session is over. What it does not ask is whether
the session is on before it calls `location_cb`: a report that was queued behind the
fix is reported as well.
-/

namespace Msm8916.Engine

open Transition

variable {P : Payload}

/-- A call of `location_cb` with a location. -/
def Effect.tellsLocation : Effect P → Bool
  | .locationCb (some _) => true
  | _ => false

namespace LocEng

/-- The locations `location_cb` has been called with since the event began. -/
def locations (eng : LocEng P) : Nat := eng.log.countP Effect.tellsLocation

/-- Whether `location_cb` is called with the location of a report that is processed. -/
def Tells (eng : LocEng P) (report : ReportPosition P) : Prop :=
  eng.mute_session_state ≠ .inSession ∧ eng.location_cb = true ∧ report.mStatus ≠ .failure ∧
    eng.accepts report = true

instance (eng : LocEng P) (report : ReportPosition P) : Decidable (eng.Tells report) :=
  inferInstanceAs (Decidable (_ ∧ _))

/-! ## The locations of an event -/

theorem emit_locations (eng : LocEng P) {effect : Effect P}
    (h : effect.tellsLocation = false) : (eng.emit effect).locations = eng.locations := by
  unfold locations emit
  rw [List.countP_append, List.countP_singleton, h]
  rfl

theorem emit_location (eng : LocEng P) (location : GpsLocation × P.LocationExt) :
    (eng.emit (.locationCb (some location))).locations = eng.locations + 1 := by
  unfold locations emit
  rw [List.countP_append]
  rfl

theorem locations_of_fresh {eng : LocEng P} (h : eng.log = []) : eng.locations = 0 := by
  unfold locations
  rw [h]
  rfl

theorem Quiet.locations_eq {eng : LocEng P} (h : eng.Quiet) : eng.locations = 0 := by
  apply List.countP_eq_zero.mpr
  intro effect heffect htells
  have hreports := h effect heffect
  cases effect with
  | locationCb location => cases hreports
  | _ => cases htells

theorem setInSession_locations (eng : LocEng P) (inSession : Bool) :
    (eng.setInSession inSession).locations = eng.locations := by
  have hemit : ({ eng with adapter.mNavigating := inSession }.emit
      (.setInSession inSession)).locations = eng.locations := emit_locations _ rfl
  unfold setInSession
  cases inSession with
  | true => exact hemit
  | false => exact hemit

theorem endSingleShot_locations (eng : LocEng P) (mStatus : LocSessStatus) :
    (eng.endSingleShot mStatus).locations = eng.locations := by
  unfold endSingleShot
  split_ifs
  · exact (setInSession_locations _ _).trans (emit_locations eng rfl)
  · exact setInSession_locations eng false
  · rfl

theorem nmeaSend_locations (eng : LocEng P) (pNmea : List UInt8) :
    (eng.nmeaSend pNmea).locations = eng.locations := by
  unfold nmeaSend
  split
  · exact emit_locations eng rfl
  · rfl

theorem nmeaGenerated_locations (eng : LocEng P) (generated : NmeaData × List (List UInt8)) :
    (eng.nmeaGenerated generated).locations = eng.locations := by
  have hsent : ∀ (sentences : List (List UInt8)) (eng : LocEng P),
      (sentences.foldl nmeaSend eng).locations = eng.locations := by
    intro sentences
    induction sentences with
    | nil => exact fun _ => rfl
    | cons sentence sentences ih =>
        intro eng
        rw [List.foldl_cons, ih, nmeaSend_locations]
  exact hsent generated.2 _

theorem tellLocation_of_tells {eng : LocEng P} {report : ReportPosition P}
    (h : eng.Tells report) :
    eng.tellLocation report =
      (eng.emit (.locationCb (some (report.mLocation, report.mLocationExt))), true) := by
  obtain ⟨-, hcb, hfailure, haccepts⟩ := h
  unfold tellLocation
  rw [hcb, if_neg (by rintro ⟨⟩), if_neg hfailure, if_pos haccepts]

theorem tellLocation_locations {eng : LocEng P} {report : ReportPosition P}
    (hheard : eng.mute_session_state ≠ .inSession) (h : ¬ eng.Tells report) :
    (eng.tellLocation report).1.locations = eng.locations := by
  unfold tellLocation
  split_ifs with hcb hfailure haccepts
  · rfl
  · exact emit_locations eng rfl
  · exact absurd ⟨hheard, by simpa using hcb, hfailure, haccepts⟩ h
  · rfl

/-- After `tellLocation` a report tells no more. -/
theorem reportPosition_told (nmea : NmeaGenerator P) {eng : LocEng P} (report : ReportPosition P)
    (hheard : eng.mute_session_state ≠ .inSession) :
    (eng.reportPosition nmea report).locations = (eng.tellLocation report).1.locations := by
  unfold reportPosition
  rw [if_neg hheard]
  dsimp only
  split_ifs
  · rw [nmeaGenerated_locations, endSingleShot_locations]
  · exact endSingleShot_locations _ _
  · exact nmeaGenerated_locations _ _
  · rfl

theorem reportPosition_locations (nmea : NmeaGenerator P) (eng : LocEng P)
    (report : ReportPosition P) :
    (eng.reportPosition nmea report).locations =
      eng.locations + if eng.Tells report then 1 else 0 := by
  split
  · rename_i htells
    rw [reportPosition_told nmea report htells.1, tellLocation_of_tells htells]
    exact emit_location eng _
  · rename_i hnot
    by_cases hheard : eng.mute_session_state = .inSession
    · unfold reportPosition
      rw [if_pos hheard]
      rfl
    · exact (reportPosition_told nmea report hheard).trans (tellLocation_locations hheard hnot)

/-- An event that is no position report calls `location_cb` with no location. -/
theorem handle_locations (nmea : NmeaGenerator P) {eng : LocEng P} (h : eng.log = [])
    {event : Event P} (hevent : ∀ report, event ≠ .msg (.reportPosition report)) :
    (handle nmea eng event).locations = 0 := by
  have hquiet : eng.Quiet := by
    rw [Quiet, h]
    exact fun _ hmem => absurd hmem List.not_mem_nil
  have hnone : eng.locations = 0 := locations_of_fresh h
  cases event with
  | msg msg =>
      cases msg with
      | reportPosition report => exact absurd rfl (hevent report)
      | reportSv mSvStatus mLocationExtended mSvExt =>
          have htold : (eng.emit (.svStatusCb mSvStatus mSvExt)).locations = 0 :=
            (emit_locations eng rfl).trans hnone
          unfold handle proc reportSv
          dsimp only
          split_ifs
          · exact hnone
          · exact (nmeaGenerated_locations _ _).trans htold
          · exact htold
          · exact (nmeaGenerated_locations _ _).trans hnone
          · exact hnone
      | reportNmea mNmea =>
          unfold handle proc reportNmea
          dsimp only
          split
          · exact (emit_locations eng rfl).trans hnone
          · exact hnone
      | reportGpsMeasurement mGpsData =>
          unfold handle proc reportGpsMeasurement
          dsimp only
          split_ifs
          · exact hnone
          · exact (emit_locations eng rfl).trans hnone
          · exact hnone
      | reportStatus mStatus =>
          exact (updateAidingDataForDeletion_quiet (reportStatus_quiet hquiet mStatus)).locations_eq
      | startFix answer => exact (startHandler_quiet hquiet answer).locations_eq
      | stopFix => exact (stopHandler_quiet hquiet).locations_eq
      | positionMode mPosMode => exact (emit_locations _ rfl).trans hnone
      | delAidData mType =>
          have hset : ({ eng with aiding_data_for_deletion := mType } : LocEng P).Quiet := hquiet
          exact (updateAidingDataForDeletion_quiet hset).locations_eq
      | down => exact (reportStatus_quiet hquiet gpsStatusEngineOff).locations_eq
      | up => exact (handleEngineUp_quiet hquiet).locations_eq
  | muteOneSession => exact hnone
  | gpsMeasurementInit measurement_callback =>
      unfold handle gpsMeasurementInit
      dsimp only
      split
      · exact hnone
      · exact hnone
  | gpsMeasurementClose => exact hnone
  | configurationUpdate gps_conf => exact hnone

/-- An event tells one location if it is a report that tells, and none otherwise. -/
theorem handle_locations_cases (nmea : NmeaGenerator P) {eng : LocEng P} (h : eng.log = [])
    (event : Event P) :
    (∃ report, event = .msg (.reportPosition report) ∧ eng.Tells report ∧
      (handle nmea eng event).locations = 1) ∨
    ((∀ report, event = .msg (.reportPosition report) → ¬ eng.Tells report) ∧
      (handle nmea eng event).locations = 0) := by
  by_cases hreport : ∃ report, event = .msg (.reportPosition report)
  · obtain ⟨report, rfl⟩ := hreport
    have hlocations := reportPosition_locations nmea eng report
    rw [locations_of_fresh h, Nat.zero_add] at hlocations
    split at hlocations
    · rename_i htells
      exact .inl ⟨report, rfl, htells, hlocations⟩
    · rename_i hnot
      refine .inr ⟨fun other heq => ?_, hlocations⟩
      obtain rfl := Msg.reportPosition.inj (Event.msg.inj heq)
      exact hnot
  · exact .inr ⟨fun report heq => absurd ⟨report, heq⟩ hreport,
      handle_locations nmea h fun report heq => hreport ⟨report, heq⟩⟩

/-! ## The session of an event -/

/-- The fix that is told ends a single shot. -/
theorem reportPosition_ends (nmea : NmeaGenerator P) {eng : LocEng P} {report : ReportPosition P}
    (h : eng.Tells report)
    (hsingle : eng.adapter.mFixCriteria.recurrence = gpsPositionRecurrenceSingle) :
    (eng.reportPosition nmea report).adapter.mNavigating = false := by
  have hends : ∀ told : LocEng P, told.adapter = eng.adapter →
      (told.endSingleShot report.mStatus).adapter.mNavigating = false := by
    intro told htold
    unfold endSingleShot
    rw [htold, if_pos hsingle]
    rfl
  have hended := hends (eng.emit (.locationCb (some (report.mLocation, report.mLocationExt)))) rfl
  unfold reportPosition
  rw [if_neg h.1, tellLocation_of_tells h]
  dsimp only
  rw [if_pos rfl, if_neg (by rw [hended]; rintro ⟨-, ⟨⟩⟩)]
  exact hended

/-- Only a start begins a session, and only a position mode sets the recurrence. -/
theorem handle_adapter (nmea : NmeaGenerator P) {eng : LocEng P} (h : eng.log = [])
    {event : Event P} (hstart : ∀ answer, event ≠ .msg (.startFix answer)) :
    ((handle nmea eng event).adapter.mNavigating = true → eng.adapter.mNavigating = true) ∧
      ((∀ mPosMode, event ≠ .msg (.positionMode mPosMode)) →
        (handle nmea eng event).adapter.mFixCriteria.recurrence =
          eng.adapter.mFixCriteria.recurrence) := by
  cases event with
  | msg msg =>
      have hturn := proc_turn nmea h msg
      have hadapter : (handle nmea eng (.msg msg)).adapter = (eng.proc nmea msg).session.1 := rfl
      rw [hadapter]
      generalize (eng.proc nmea msg).session = session at hturn ⊢
      cases hturn with
      | same _ => exact ⟨id, fun _ => rfl⟩
      | positioned posMode => exact ⟨id, fun hmode => absurd rfl (hmode posMode)⟩
      | started _ _ => exact absurd rfl (hstart _)
      | refused _ _ => exact absurd rfl (hstart _)
      | ended _ => exact ⟨by rintro ⟨⟩, fun _ => rfl⟩
      | restarted _ => exact ⟨by rintro ⟨⟩, fun _ => rfl⟩
  | muteOneSession => exact ⟨id, fun _ => rfl⟩
  | gpsMeasurementInit measurement_callback =>
      unfold handle gpsMeasurementInit
      dsimp only
      split
      · exact ⟨id, fun _ => rfl⟩
      · exact ⟨id, fun _ => rfl⟩
  | gpsMeasurementClose => exact ⟨id, fun _ => rfl⟩
  | configurationUpdate gps_conf => exact ⟨id, fun _ => rfl⟩

end LocEng

/-- The engine, and the locations told since the last start of a single shot. There is
none before a start, and none while another recurrence is set. -/
structure Shots (P : Payload) where
  eng : LocEng P
  fixes : Option Nat

namespace Shots

open LocEng (Event)

/-- What an event makes of `fixes`. -/
def fixesAfter (fixes : Option Nat) (event : Event P) (next : LocEng P) : Option Nat :=
  if next.adapter.mFixCriteria.recurrence = gpsPositionRecurrenceSingle then
    (match event with
      | .msg (.startFix _) => some 0
      | _ => fixes).map (· + next.locations)
  else none

def init (eng : LocEng P) : Shots P := ⟨eng, none⟩

def step (nmea : NmeaGenerator P) (state : Shots P) (event : Event P) : Option (Shots P) :=
  (LocEng.step nmea state.eng event).map fun next =>
    ⟨next, fixesAfter state.fixes event next⟩

/-- A single shot has told one location at most since it was started. -/
def AtMostOnce (state : Shots P) : Prop := ∀ fixes, state.fixes = some fixes → fixes ≤ 1

/-- A report of a single shot that is processed after its fix, when the session is over,
and is told all the same. -/
def Late (state : Shots P) (event : Event P) : Prop :=
  ∃ report, event = .msg (.reportPosition report) ∧ state.fixes = some 1 ∧
    state.eng.adapter.mNavigating = false ∧ state.eng.Tells report

/-- The fix of a single shot has ended its session. -/
def Ended (state : Shots P) : Prop :=
  ∀ fixes, state.fixes = some fixes →
    state.eng.adapter.mFixCriteria.recurrence = gpsPositionRecurrenceSingle ∧
      (0 < fixes → state.eng.adapter.mNavigating = false)

/-! ## One event -/

/-- A step handles the event with an empty log, and counts what it tells. -/
theorem step_some {nmea : NmeaGenerator P} {state next : Shots P} {event : Event P}
    (h : state.step nmea event = some next) :
    ∃ eng : LocEng P, eng.log = [] ∧ eng.adapter = state.eng.adapter ∧
      (∀ report, eng.Tells report ↔ state.eng.Tells report) ∧
      next.eng = LocEng.handle nmea eng event ∧
      next.fixes = fixesAfter state.fixes event (LocEng.handle nmea eng event) := by
  obtain rfl := Option.some.inj h
  exact ⟨{ state.eng with log := [] }, rfl, rfl, fun _ => Iff.rfl, rfl, rfl⟩

theorem fixesAfter_some {fixes : Option Nat} {event : Event P} {next : LocEng P} {after : Nat}
    (h : fixesAfter fixes event next = some after)
    (hstart : ∀ answer, event ≠ .msg (.startFix answer)) :
    next.adapter.mFixCriteria.recurrence = gpsPositionRecurrenceSingle ∧
      ∃ before, fixes = some before ∧ after = before + next.locations := by
  unfold fixesAfter at h
  split at h
  · rename_i hsingle
    split at h
    · exact absurd rfl (hstart _)
    · obtain ⟨before, hbefore, rfl⟩ := Option.map_eq_some_iff.mp h
      exact ⟨hsingle, before, hbefore, rfl⟩
  · cases h

/-- A start begins to count, and tells nothing itself. -/
theorem fixesAfter_start (nmea : NmeaGenerator P) {eng : LocEng P} (h : eng.log = [])
    {fixes : Option Nat} {answer : LocApiAdapterErr} {after : Nat}
    (hafter : fixesAfter fixes (.msg (.startFix answer))
      (LocEng.handle nmea eng (.msg (.startFix answer))) = some after) :
    (LocEng.handle nmea eng (.msg (.startFix answer))).adapter.mFixCriteria.recurrence =
      gpsPositionRecurrenceSingle ∧ after = 0 := by
  unfold fixesAfter at hafter
  split at hafter
  · rename_i hsingle
    refine ⟨hsingle, ?_⟩
    rw [LocEng.handle_locations nmea h (by rintro _ ⟨⟩)] at hafter
    exact (Option.some.inj hafter).symm
  · cases hafter

theorem step_ended {nmea : NmeaGenerator P} {state next : Shots P} {event : Event P}
    (h : state.Ended) (hstep : state.step nmea event = some next) : next.Ended := by
  obtain ⟨eng, hfresh, hadapter, -, hnext, hfixes⟩ := step_some hstep
  rw [Ended, hnext, hfixes]
  intro after hafter
  by_cases hstart : ∃ answer, event = .msg (.startFix answer)
  · obtain ⟨answer, rfl⟩ := hstart
    obtain ⟨hsingle, rfl⟩ := fixesAfter_start nmea hfresh hafter
    exact ⟨hsingle, fun hpos => absurd hpos (Nat.lt_irrefl 0)⟩
  · have hother : ∀ answer, event ≠ .msg (.startFix answer) :=
      fun answer heq => hstart ⟨answer, heq⟩
    obtain ⟨hsingle, before, hbefore, rfl⟩ := fixesAfter_some hafter hother
    refine ⟨hsingle, fun hpos => ?_⟩
    obtain ⟨hrecurrence, hended⟩ := h before hbefore
    rw [← hadapter] at hrecurrence hended
    rcases LocEng.handle_locations_cases nmea hfresh event with
      ⟨report, rfl, htells, -⟩ | ⟨-, hnone⟩
    · exact LocEng.reportPosition_ends nmea htells hrecurrence
    · -- what has been told was told before, and only a start goes on after it
      rw [hnone] at hpos
      have hkept := (LocEng.handle_adapter nmea hfresh hother).1
      exact Bool.eq_false_iff.mpr fun hon => Bool.eq_false_iff.mp (hended hpos) (hkept hon)

/-- A report of a single shot leaves it one. -/
theorem fixesAfter_report (nmea : NmeaGenerator P) {eng : LocEng P} (h : eng.log = [])
    (hsingle : eng.adapter.mFixCriteria.recurrence = gpsPositionRecurrenceSingle)
    (report : ReportPosition P) (before : Nat) :
    fixesAfter (some before) (.msg (.reportPosition report))
        (LocEng.handle nmea eng (.msg (.reportPosition report))) =
      some (before + (LocEng.handle nmea eng (.msg (.reportPosition report))).locations) := by
  have hother : ∀ answer, Event.msg (.reportPosition report) ≠ .msg (.startFix answer) := by
    rintro _ ⟨⟩
  have hrecurrence := (LocEng.handle_adapter nmea h hother).2 (by rintro _ ⟨⟩)
  unfold fixesAfter
  rw [if_pos (hrecurrence.trans hsingle)]
  rfl

/-- While a single shot has told one location at most, an event tells a second one
exactly if it is a late report. -/
theorem step_atMostOnce_iff {nmea : NmeaGenerator P} {state next : Shots P} {event : Event P}
    (h : state.Ended) (honce : state.AtMostOnce) (hstep : state.step nmea event = some next) :
    next.AtMostOnce ↔ ¬ state.Late event := by
  obtain ⟨eng, hfresh, hadapter, htells, -, hfixes⟩ := step_some hstep
  rw [AtMostOnce, hfixes]
  rcases LocEng.handle_locations_cases nmea hfresh event with
    ⟨report, rfl, htold, hone⟩ | ⟨hnot, hnone⟩
  · constructor
    · rintro hnext ⟨_, -, hfixed, -, -⟩
      have hafter := fixesAfter_report nmea hfresh (hadapter ▸ (h 1 hfixed).1) report 1
      rw [hone, ← hfixed] at hafter
      exact absurd (hnext _ hafter) (Nat.not_succ_le_self 1)
    · intro hlate after hafter
      obtain ⟨-, before, hbefore, rfl⟩ := fixesAfter_some hafter (by rintro _ ⟨⟩)
      rw [hone]
      rcases Nat.eq_zero_or_pos before with rfl | hpos
      · exact Nat.le_refl 1
      · obtain rfl : before = 1 := Nat.le_antisymm (honce before hbefore) hpos
        have hoff := (h 1 hbefore).2 hpos
        exact absurd ⟨report, rfl, hbefore, hoff, (htells report).mp htold⟩ hlate
  · have hsound : ¬ state.Late event := by
      rintro ⟨report, heq, -, -, htold⟩
      exact hnot report heq ((htells report).mpr htold)
    refine iff_of_true (fun after hafter => ?_) hsound
    by_cases hstart : ∃ answer, event = .msg (.startFix answer)
    · obtain ⟨answer, rfl⟩ := hstart
      rw [(fixesAfter_start nmea hfresh hafter).2]
      exact Nat.zero_le 1
    · obtain ⟨-, before, hbefore, rfl⟩ :=
        fixesAfter_some hafter fun answer heq => hstart ⟨answer, heq⟩
      rw [hnone]
      exact honce before hbefore

/-! ## Runs -/

theorem init_ended (eng : LocEng P) : (init eng).Ended := by
  rintro _ ⟨⟩

theorem init_atMostOnce (eng : LocEng P) : (init eng).AtMostOnce := by
  rintro _ ⟨⟩

theorem exec_step (nmea : NmeaGenerator P) (state : Shots P) (events : List (Event P)) :
    ∃ final, exec (step nmea) state events = some final := by
  induction events generalizing state with
  | nil => exact ⟨state, rfl⟩
  | cons event events ih =>
      obtain ⟨final, hfinal⟩ := ih ⟨LocEng.handle nmea { state.eng with log := [] } event,
        fixesAfter state.fixes event (LocEng.handle nmea { state.eng with log := [] } event)⟩
      exact ⟨final, hfinal⟩

/-- Whatever the engine processes, a single shot tells at most one location between a
start and the next one exactly if no report comes late. -/
theorem at_most_once_iff (nmea : NmeaGenerator P) (eng : LocEng P) (events : List (Event P)) :
    Always (step nmea) AtMostOnce (init eng) events ↔
      Along (step nmea) (fun state event => ¬ state.Late event) (init eng) events := by
  obtain ⟨final, hrun⟩ := exec_step nmea (init eng) events
  apply always_iff_of_step (I := Ended)
  · exact fun _ _ _ h hstep => step_ended h hstep
  · exact fun _ _ _ h honce hstep => step_atMostOnce_iff h honce hstep
  · exact init_ended eng
  · exact init_atMostOnce eng
  · exact hrun

/-- Two final fixes from satellites were queued when the first of them ended the single
shot: both are told. -/
theorem second_fix_told :
    ¬ ∀ (nmea : NmeaGenerator ⟨Unit, Unit, Unit, Unit, Unit⟩) (callbacks : LocCallbacks)
      (gps_conf : LocGpsCfg) (posMode : LocPosMode) (reports : List (ReportPosition _)),
      posMode.recurrence = gpsPositionRecurrenceSingle →
      Always (step nmea) AtMostOnce (init (LocEng.init callbacks bitNmea1HzReport gps_conf))
        (.msg (.positionMode posMode) :: .msg (.startFix errSuccess) ::
          reports.map fun report => .msg (.reportPosition report)) := by
  intro hall
  let report : ReportPosition ⟨Unit, Unit, Unit, Unit, Unit⟩ :=
    ⟨⟨0, 0, 0, 0, 0, 0, 0, 0⟩, (), (), .success, locPosTechMaskSatellite⟩
  have honce := hall ⟨fun data _ _ _ => (data, []), fun data _ _ => (data, [])⟩
    ⟨true, true, true, true⟩ ⟨0, 0, 0⟩
    ⟨.standalone, gpsPositionRecurrenceSingle, 1000, 50, 120000, [], []⟩ [report, report] rfl
    _ (List.prefix_refl _) _ rfl
  exact absurd (honce 2 (by decide +kernel)) (by decide)

end Shots

end Msm8916.Engine
