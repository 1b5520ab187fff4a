import Msm8916.Doze.Service

/-!
The orientation and the pick-up sensor are on one at a time, and only while the display is
off and nothing is near the device.
-/

namespace Msm8916.Doze

open Transition

/-! ## Delivered events -/

inductive Display where
  | on
  | off
deriving DecidableEq

/-- The service, the last display event and the last proximity reading since then. -/
structure Observed where
  service : Service
  display : Option Display
  reading : Option Bool

/-- Display events alternate, and a sensor delivers events while it is enabled. -/
def deliver (state : Observed) (event : Event) : Option Observed :=
  let service := handle state.service event
  match event with
  | .displayOn =>
      if state.display = some .on then none
      else some { state with service, display := some .on }
  | .displayOff =>
      if state.display = some .off then none
      else some { service, display := some .off, reading := none }
  | .proximity isNear _ =>
      if state.service.mProximitySensor.mEnabled then
        some { state with service, reading := some isNear }
      else none
  | .orientation .. =>
      if state.service.mOrientationSensor.mEnabled then some { state with service } else none
  | .pickUp .. =>
      if state.service.mPickUpSensor.mEnabled then some { state with service } else none
  | .preference .. | .setting _ => some { state with service }

def started (device : Device) (isInteractive : Bool) : Observed where
  service := start device isInteractive
  display := if isInteractive then none else some .off
  reading := none

/-! ## What the handlers switch -/

namespace Service

def Wired (s : Service) : Prop := s.mOrientationSensor.Wired ∧ s.mPickUpSensor.Wired

/-- One of the sensors that analyse the doze is on. -/
def Active (s : Service) : Prop :=
  s.mOrientationSensor.mEnabled = true ∨ s.mPickUpSensor.mEnabled = true

def Exclusive (s : Service) : Prop :=
  ¬ (s.mOrientationSensor.mEnabled = true ∧ s.mPickUpSensor.mEnabled = true)

/-- A handler that leaves the proximity sensor alone and turns a sensor on only while
nothing is near. -/
structure Switches (s next : Service) : Prop where
  proximity : next.mProximitySensor = s.mProximitySensor
  near : next.mProximityNear = s.mProximityNear
  wired : next.Wired
  exclusive : s.Exclusive → next.Exclusive
  active : next.Active → s.Active ∨ s.mProximityNear = false

theorem Switches.trans {s next last : Service} (h : s.Switches next) (h' : next.Switches last) :
    s.Switches last where
  proximity := h'.proximity.trans h.proximity
  near := h'.near.trans h.near
  wired := h'.wired
  exclusive hexclusive := h'.exclusive (h.exclusive hexclusive)
  active hactive := by
    rcases h'.active hactive with hbefore | hfar
    · exact h.active hbefore
    · exact .inr (h.near.symm.trans hfar)

theorem Switches.of_power {s next : Service}
    (hproximity : next.mProximitySensor = s.mProximitySensor)
    (hnear : next.mProximityNear = s.mProximityNear)
    (horientation : next.mOrientationSensor.mEnabled = s.mOrientationSensor.mEnabled)
    (hpickUp : next.mPickUpSensor.mEnabled = s.mPickUpSensor.mEnabled)
    (hwired : next.Wired) : s.Switches next where
  proximity := hproximity
  near := hnear
  wired := hwired
  exclusive h := by
    rw [Exclusive, horientation, hpickUp]
    exact h
  active h := by
    rw [Active, horientation, hpickUp] at h
    exact .inl h

theorem Switches.refl {s : Service} (h : s.Wired) : s.Switches s := .of_power rfl rfl rfl rfl h

/-! ### Turning a sensor off -/

section Off

variable {s : Service}

theorem setOrientationSensor_false_enabled (h : s.Wired) (reset : Bool) :
    (s.setOrientationSensor false reset).mOrientationSensor.mEnabled = false := by
  cases reset with
  | false => exact h.1.disable.1
  | true =>
      have hreset : s.mOrientationSensor.reset.Wired := h.1
      exact hreset.disable.1

theorem setPickUpSensor_false_enabled (h : s.Wired) (reset : Bool) :
    (s.setPickUpSensor false reset).mPickUpSensor.mEnabled = false := by
  cases reset with
  | false => exact h.2.disable.1
  | true =>
      have hreset : s.mPickUpSensor.reset.Wired := h.2
      exact hreset.disable.1

theorem setOrientationSensor_false_pickUp (s : Service) (reset : Bool) :
    (s.setOrientationSensor false reset).mPickUpSensor = s.mPickUpSensor := by
  cases reset <;> rfl

theorem setPickUpSensor_false_orientation (s : Service) (reset : Bool) :
    (s.setPickUpSensor false reset).mOrientationSensor = s.mOrientationSensor := by
  cases reset <;> rfl

theorem setOrientationSensor_false_switches (h : s.Wired) (reset : Bool) :
    s.Switches (s.setOrientationSensor false reset) where
  proximity := by cases reset <;> rfl
  near := by cases reset <;> rfl
  wired := by
    refine ⟨?_, ?_⟩
    · cases reset with
      | false => exact h.1.disable.2
      | true =>
          have hreset : s.mOrientationSensor.reset.Wired := h.1
          exact hreset.disable.2
    · rw [setOrientationSensor_false_pickUp]
      exact h.2
  exclusive _ hboth := by
    rw [setOrientationSensor_false_enabled h reset] at hboth
    exact nomatch hboth.1
  active hactive := by
    rw [Active, setOrientationSensor_false_enabled h reset,
      setOrientationSensor_false_pickUp] at hactive
    rcases hactive with hactive | hactive
    · exact nomatch hactive
    · exact .inl (.inr hactive)

theorem setPickUpSensor_false_switches (h : s.Wired) (reset : Bool) :
    s.Switches (s.setPickUpSensor false reset) where
  proximity := by cases reset <;> rfl
  near := by cases reset <;> rfl
  wired := by
    refine ⟨?_, ?_⟩
    · rw [setPickUpSensor_false_orientation]
      exact h.1
    · cases reset with
      | false => exact h.2.disable.2
      | true =>
          have hreset : s.mPickUpSensor.reset.Wired := h.2
          exact hreset.disable.2
  exclusive _ hboth := by
    rw [setPickUpSensor_false_enabled h reset] at hboth
    exact nomatch hboth.2
  active hactive := by
    rw [Active, setPickUpSensor_false_enabled h reset,
      setPickUpSensor_false_orientation] at hactive
    rcases hactive with hactive | hactive
    · exact .inl (.inl hactive)
    · exact nomatch hactive

/-- Both sensors are turned off, the orientation sensor first. -/
theorem not_active_of_both_off (h : s.Wired) (reset reset' : Bool) :
    ¬ ((s.setOrientationSensor false reset).setPickUpSensor false reset').Active := by
  have hwired := (setOrientationSensor_false_switches h reset).wired
  rw [Active, setPickUpSensor_false_enabled hwired, setPickUpSensor_false_orientation,
    setOrientationSensor_false_enabled h]
  exact fun hactive => hactive.elim nofun nofun

end Off

/-! ### Turning a sensor on -/

section On

variable {s : Service}

/-- The orientation sensor is turned on after the pick-up sensor is turned off. -/
theorem setOrientationSensor_true_switches (h : s.Wired) (hfar : s.mProximityNear = false) :
    s.Switches (s.setOrientationSensor true false) where
  proximity := rfl
  near := rfl
  wired := ⟨h.1.enable, h.2.disable.2⟩
  exclusive _ hboth := by
    have hoff : (s.setOrientationSensor true false).mPickUpSensor.mEnabled = false :=
      h.2.disable.1
    rw [hoff] at hboth
    exact nomatch hboth.2
  active _ := .inr hfar

/-- The pick-up sensor is turned on after the orientation sensor is turned off. -/
theorem setPickUpSensor_true_switches (h : s.Wired) (hfar : s.mProximityNear = false) :
    s.Switches (s.setPickUpSensor true false) where
  proximity := rfl
  near := rfl
  wired := ⟨h.1.disable.2, h.2.enable⟩
  exclusive _ hboth := by
    have hoff : (s.setPickUpSensor true false).mOrientationSensor.mEnabled = false :=
      h.1.disable.1
    rw [hoff] at hboth
    exact nomatch hboth.1
  active _ := .inr hfar

end On

/-! ### The handlers -/

section Handlers

variable {s : Service}

/-- The sensor is released: the handler marks the gestures, and turns one sensor on at
most. -/
theorem handleProximity_released (hfar : s.mProximityNear = false) (timestamp : Int64) :
    ∃ marked : Service,
      (s.handleProximity timestamp = marked.setOrientationSensor true false ∨
        s.handleProximity timestamp = marked.setPickUpSensor true false ∨
        s.handleProximity timestamp = marked) ∧
      (s.Wired → s.Switches marked) ∧ marked.effects = s.effects := by
  have hfar' : (!s.getDozeEnabled.mProximityNear) = true := congrArg not hfar
  unfold handleProximity
  rw [if_pos hfar']
  dsimp only
  split
  · exact ⟨_, .inl rfl, fun h => .of_power rfl rfl rfl rfl h, rfl⟩
  · split
    · exact ⟨_, .inl rfl, fun h => .of_power rfl rfl rfl rfl h, rfl⟩
    · split
      · exact ⟨_, .inl rfl, fun h => .of_power rfl rfl rfl rfl h, rfl⟩
      · split
        · exact ⟨_, .inr (.inl rfl), fun h => .of_power rfl rfl rfl rfl h, rfl⟩
        · exact ⟨_, .inr (.inr rfl), fun h => .of_power rfl rfl rfl rfl h, rfl⟩

theorem handleProximity_stowed (hnear : s.mProximityNear = true) (timestamp : Int64) :
    s.handleProximity timestamp =
      ({ s.getDozeEnabled with mLastStowedTimestamp := timestamp }.setOrientationSensor false
        false).setPickUpSensor false false := by
  have hnear' : ¬ (!s.getDozeEnabled.mProximityNear) = true := by
    rw [show s.getDozeEnabled.mProximityNear = true from hnear]
    exact nofun
  unfold handleProximity
  rw [if_neg hnear']

theorem handleProximity_switches (h : s.Wired) (timestamp : Int64) :
    s.Switches (s.handleProximity timestamp) := by
  cases hnear : s.mProximityNear with
  | false =>
      obtain ⟨marked, heq, hmarked, -⟩ := s.handleProximity_released hnear timestamp
      have hfar : marked.mProximityNear = false := (hmarked h).near.trans hnear
      rcases heq with heq | heq | heq
      · rw [heq]
        exact (hmarked h).trans (setOrientationSensor_true_switches (hmarked h).wired hfar)
      · rw [heq]
        exact (hmarked h).trans (setPickUpSensor_true_switches (hmarked h).wired hfar)
      · rw [heq]
        exact hmarked h
  | true =>
      have hstowed : s.Switches { s.getDozeEnabled with mLastStowedTimestamp := timestamp } :=
        .of_power rfl rfl rfl rfl h
      have horientation := setOrientationSensor_false_switches hstowed.wired false
      have hpickUp := setPickUpSensor_false_switches horientation.wired false
      rw [handleProximity_stowed hnear]
      exact (hstowed.trans horientation).trans hpickUp

theorem handleProximity_near (h : s.Wired) (hnear : s.mProximityNear = true)
    (timestamp : Int64) : ¬ (s.handleProximity timestamp).Active := by
  have hstowed : Service.Wired { s.getDozeEnabled with mLastStowedTimestamp := timestamp } := h
  rw [handleProximity_stowed hnear]
  exact not_active_of_both_off hstowed false false

theorem onProximityInit_switches (h : s.Wired) (isNear : Bool) (timestamp : Int64) :
    Switches { s with mLastStowedTimestamp := timestamp, mProximityNear := isNear }
      (s.onProximityInit isNear timestamp) := by
  have hstowed : Service.Wired { s with
      mLastStowedTimestamp := timestamp, mProximityNear := isNear } := h
  unfold onProximityInit
  dsimp only
  split
  · rename_i hfar
    rw [Bool.and_eq_true, Bool.and_eq_true, Bool.not_eq_true', Bool.not_eq_true'] at hfar
    exact setPickUpSensor_true_switches hstowed hfar.1.2
  · exact .refl hstowed

/-- The proximity sensor has the reading, and the service has not been told. -/
def report (s : Service) (isNear : Bool) : Service :=
  { s with mProximitySensor := { s.mProximitySensor with mState := isNear } }

theorem onProximityChanged_of_not_ready (hready : s.mProximitySensor.mReady = false)
    (isNear : Bool) (timestamp : Int64) :
    s.onProximityChanged isNear timestamp =
      let next := (s.report isNear).onProximityInit isNear timestamp
      { next with mProximitySensor := { next.mProximitySensor with mReady := true } } := by
  have hnot : ¬ s.mProximitySensor.mReady = true := by
    rw [hready]
    exact nofun
  have hinit : (!s.mProximitySensor.mReady) = true := congrArg not hready
  unfold onProximityChanged
  dsimp only
  -- neither branch launches an event, and both go on to `onInit`
  split
  · rfl
  · rename_i hsame
    rw [← not_not.mp hsame]
    rfl

theorem onProximityChanged_of_ready (h : s.Wired) (hready : s.mProximitySensor.mReady = true)
    (isNear : Bool) (timestamp : Int64) :
    s.onProximityChanged isNear timestamp =
      if s.mProximitySensor.mState = isNear then s
      else { s.report isNear with mProximityNear := isNear }.handleProximity timestamp := by
  have hmarked : Service.Wired { s.report isNear with mProximityNear := isNear } := h
  have hafter : ({ s.report isNear with mProximityNear := isNear }.handleProximity
      timestamp).mProximitySensor.mReady = true := by
    rw [(handleProximity_switches hmarked timestamp).proximity]
    exact hready
  have hnot {s : Service} (hready : s.mProximitySensor.mReady = true) :
      ¬ (!s.mProximitySensor.mReady) = true := by
    rw [hready]
    exact nofun
  unfold onProximityChanged
  dsimp only
  split
  · exact if_neg (hnot hafter)
  · rename_i hsame
    rw [if_pos (not_not.mp hsame)]
    exact if_neg (hnot hready)

theorem launchDozePulse_switches (h : s.Wired) (env : Env) :
    s.Switches (s.launchDozePulse env) := by
  obtain ⟨timestamp, log, -, heq⟩ := s.launchDozePulse_eq env
  rw [heq]
  exact .of_power rfl rfl rfl rfl h

theorem analyseDoze_switches (h : s.Wired) (env : Env) : s.Switches (s.analyseDoze env) := by
  have hread : s.Switches s.getDozeEnabled := .of_power rfl rfl rfl rfl h
  have hlaunched := hread.trans (launchDozePulse_switches hread.wired env)
  -- whichever branch launches the pulse, the pick-up sensor is restored after it
  have hrestored {launched : Service} (hlaunched : s.Switches launched) :
      s.Switches (if !launched.mProximityNear && launched.isPickUpEnabled then
        launched.setPickUpSensor true false else launched).resetValues := by
    split
    · rename_i hfar
      rw [Bool.and_eq_true, Bool.not_eq_true'] at hfar
      have hon := hlaunched.trans (setPickUpSensor_true_switches hlaunched.wired hfar.1)
      exact hon.trans (.of_power rfl rfl rfl rfl hon.wired)
    · exact hlaunched.trans (.of_power rfl rfl rfl rfl hlaunched.wired)
  apply hrestored
  split
  · exact hlaunched
  · split
    · exact hlaunched
    · split
      · exact hlaunched
      · exact hread

theorem onOrientationEvent_switches (h : s.Wired) (env : Env) :
    s.Switches (s.onOrientationEvent env) := by
  have hoff := setOrientationSensor_false_switches h false
  unfold onOrientationEvent handleOrientation
  split
  · exact hoff.trans (analyseDoze_switches hoff.wired env)
  · exact hoff

theorem onOrientationChanged_switches (h : s.Wired) (type : SensorType)
    (orientation : Option Orientation) (env : Env) :
    s.Switches (s.onOrientationChanged type orientation env) := by
  have hmeasured : s.Switches { s with
      mOrientationSensor := s.mOrientationSensor.measure type } := by
    cases type <;> exact .of_power rfl rfl rfl rfl h
  unfold onOrientationChanged
  dsimp only
  split
  · cases orientation with
    | none => exact hmeasured
    | some orientation =>
        have hready : s.Switches { s with mOrientationSensor :=
            { s.mOrientationSensor.measure type with mState := orientation, mReady := true } } :=
          hmeasured.trans (.of_power rfl rfl rfl rfl hmeasured.wired)
        exact hready.trans (onOrientationEvent_switches hready.wired env)
  · exact hmeasured

theorem handlePickUp_switches (h : s.Wired) (env : Env) : s.Switches (s.handlePickUp env) := by
  unfold handlePickUp
  dsimp only
  split
  · have hmarked : s.Switches { s.getDozeEnabled with mPickUpDoze := true }.launchWakeLock :=
      .of_power rfl rfl rfl rfl h
    exact hmarked.trans (analyseDoze_switches hmarked.wired env)
  · exact .of_power rfl rfl rfl rfl h

theorem setPickUpState_switches (h : s.Wired) (state : PickUp) (env : Env) :
    s.Switches (s.setPickUpState state env) := by
  unfold setPickUpState
  dsimp only
  split
  · have hmeasured : s.Switches { s with
        mPickUpSensor := { s.mPickUpSensor with mState := state }
        mPickUpState := { s.mPickUpSensor with mState := state }.isPickedUp } :=
      .of_power rfl rfl rfl rfl h
    exact hmeasured.trans (handlePickUp_switches hmeasured.wired env)
  · exact .of_power rfl rfl rfl rfl h

theorem onPickUpChanged_switches (h : s.Wired) (aboveSafezone aboveThreshold : Bool)
    (env : Env) : s.Switches (s.onPickUpChanged aboveSafezone aboveThreshold env) := by
  have hinit {measured : Service} (hmeasured : s.Switches measured) :
      s.Switches (if !measured.mPickUpSensor.mReady then
        { measured with mPickUpSensor := { measured.mPickUpSensor with mReady := true }
          }.onPickUpInit
        else measured) := by
    split
    · exact hmeasured.trans (.of_power rfl rfl rfl rfl hmeasured.wired)
    · exact hmeasured
  apply hinit
  split
  · split
    · exact setPickUpState_switches h .true env
    · exact .refl h
  · split
    · exact setPickUpState_switches h .false env
    · exact .refl h

theorem onSharedPreferenceChanged_switches (h : s.Wired) (key : String) (value : Bool) :
    s.Switches (s.onSharedPreferenceChanged key value) := by
  unfold onSharedPreferenceChanged
  split
  · exact .of_power rfl rfl rfl rfl h
  · split
    · exact .of_power rfl rfl rfl rfl h
    · split
      · exact .of_power rfl rfl rfl rfl h
      · exact .refl h

theorem onSharedPreferenceChanged_active {key : String} {value : Bool}
    (h : (s.onSharedPreferenceChanged key value).Active) : s.Active := by
  unfold onSharedPreferenceChanged at h
  split at h
  · exact h
  · split at h
    · exact h
    · split at h
      · exact h
      · exact h

end Handlers

end Service

/-! ## The invariant -/

/-- The invariant of delivered runs. The proximity sensor has reported since the display
went off exactly when it is ready, and the service then has its last reading. -/
structure Observed.Inv (state : Observed) : Prop where
  wired : state.service.Wired
  proximityWired : state.service.mProximitySensor.Wired
  exclusive : state.service.Exclusive
  enabled : state.service.mProximitySensor.mEnabled = true → state.display = some .off
  ready : state.service.mProximitySensor.mReady = true →
    state.display = some .off ∧ state.reading = some state.service.mProximityNear ∧
      state.service.mProximitySensor.mState = state.service.mProximityNear
  active : state.service.Active → state.service.mProximitySensor.mEnabled = true ∧
    state.service.mProximitySensor.mReady = true ∧ state.service.mProximityNear = false

section Steps

open Service

variable {state : Observed}

/-- A step that reports nothing about the proximity and changes nothing of its sensor. -/
theorem Observed.Inv.of_switches (h : state.Inv) {next : Service}
    (hnext : state.service.Switches next)
    (hactive : next.Active → state.service.Active) :
    Observed.Inv { state with service := next } where
  wired := hnext.wired
  proximityWired := by
    dsimp only
    rw [hnext.proximity]
    exact h.proximityWired
  exclusive := hnext.exclusive h.exclusive
  enabled henabled := by
    rw [hnext.proximity] at henabled
    exact h.enabled henabled
  ready hready := by
    rw [hnext.proximity] at hready
    dsimp only
    rw [hnext.proximity, hnext.near]
    exact h.ready hready
  active hon := by
    dsimp only
    rw [hnext.proximity, hnext.near]
    exact h.active (hactive hon)

/-- Nothing but the proximity sensor is on, and it has not reported. -/
theorem Observed.Inv.of_idle (hwired : state.service.Wired)
    (hproximity : state.service.mProximitySensor.Wired)
    (hready : state.service.mProximitySensor.mReady = false)
    (hidle : ¬ state.service.Active)
    (henabled : state.service.mProximitySensor.mEnabled = true → state.display = some .off) :
    state.Inv where
  wired := hwired
  proximityWired := hproximity
  exclusive hboth := hidle (.inl hboth.1)
  enabled := henabled
  ready hisReady := nomatch hready.symm.trans hisReady
  active hactive := absurd hactive hidle

theorem Observed.Inv.displayOn (h : state.Inv) :
    Observed.Inv { state with service := state.service.onDisplayOn, display := some .on } := by
  let off := (state.service.setOrientationSensor false true).setPickUpSensor false true
  have horientation := setOrientationSensor_false_switches h.wired true
  have hoff : state.service.Switches off :=
    horientation.trans (setPickUpSensor_false_switches horientation.wired true)
  have hreset : off.mProximitySensor.reset.Wired := by
    rw [ProximitySensor.Wired, ProximitySensor.reset, hoff.proximity]
    exact h.proximityWired
  apply Observed.Inv.of_idle
  · exact hoff.wired
  · exact hreset.disable.2
  · exact ProximitySensor.disable_mReady off.mProximitySensor.reset
  · exact not_active_of_both_off h.wired true true
  · intro henabled
    exact nomatch hreset.disable.1.symm.trans henabled

theorem Observed.Inv.displayOff (h : state.Inv) (hdisplay : state.display ≠ some .off) :
    Observed.Inv ⟨state.service.onDisplayOff, some .off, none⟩ := by
  have hready : state.service.mProximitySensor.mReady = false := by
    cases hisReady : state.service.mProximitySensor.mReady with
    | false => rfl
    | true => exact absurd (h.ready hisReady).1 hdisplay
  have hidle : ¬ state.service.Active := fun hactive =>
    hdisplay (h.enabled (h.active hactive).1)
  unfold onDisplayOff
  dsimp only
  split
  · let read := { state.service.getDozeEnabled with mLastPulseTimestamp := 0 }.resetValues
    have hread : read.Wired := h.wired
    let off := (read.setOrientationSensor false true).setPickUpSensor false true
    have horientation := setOrientationSensor_false_switches hread true
    have hoff : read.Switches off :=
      horientation.trans (setPickUpSensor_false_switches horientation.wired true)
    have hreset : off.mProximitySensor.reset.Wired := by
      rw [ProximitySensor.Wired, ProximitySensor.reset, hoff.proximity]
      exact h.proximityWired
    apply Observed.Inv.of_idle
    · exact hoff.wired
    · exact hreset.enable
    · exact ProximitySensor.enable_mReady off.mProximitySensor.reset
    · exact not_active_of_both_off hread true true
    · exact fun _ => rfl
  · exact .of_idle h.wired h.proximityWired hready hidle fun _ => rfl

/-- The proximity sensor reports: it is ready, with the state it reported. -/
theorem Observed.Inv.of_report (h : state.Inv)
    (henabled : state.service.mProximitySensor.mEnabled = true) {next : Service} {isNear : Bool}
    (hwired : next.Wired)
    (hproximity : next.mProximitySensor =
      { state.service.mProximitySensor with mState := isNear, mReady := true })
    (hnear : next.mProximityNear = isNear) (hexclusive : next.Exclusive)
    (hfar : next.Active → isNear = false) :
    Observed.Inv { state with service := next, reading := some isNear } where
  wired := hwired
  proximityWired := by
    dsimp only
    rw [hproximity]
    exact h.proximityWired
  exclusive := hexclusive
  enabled _ := h.enabled henabled
  ready _ := by
    dsimp only
    rw [hproximity, hnear]
    exact ⟨h.enabled henabled, rfl, rfl⟩
  active hactive := by
    dsimp only
    rw [hproximity, hnear]
    exact ⟨henabled, rfl, hfar hactive⟩

/-- The first reading after the display went off. -/
theorem Observed.Inv.proximityInit (h : state.Inv)
    (henabled : state.service.mProximitySensor.mEnabled = true)
    (hready : state.service.mProximitySensor.mReady = false) (isNear : Bool)
    (timestamp : Int64) :
    Observed.Inv { state with
      service := state.service.onProximityChanged isNear timestamp
      reading := some isNear } := by
  have hidle : ¬ state.service.Active := fun hactive =>
    nomatch hready.symm.trans (h.active hactive).2.1
  have hinit := onProximityInit_switches (s := state.service.report isNear) h.wired isNear
    timestamp
  rw [onProximityChanged_of_not_ready hready]
  apply h.of_report henabled
  · exact hinit.wired
  · dsimp only
    rw [hinit.proximity]
    rfl
  · exact hinit.near
  · exact hinit.exclusive h.exclusive
  · intro hactive
    exact (hinit.active hactive).resolve_left hidle

/-- Every later reading. -/
theorem Observed.Inv.proximityEvent (h : state.Inv)
    (henabled : state.service.mProximitySensor.mEnabled = true)
    (hready : state.service.mProximitySensor.mReady = true) (isNear : Bool)
    (timestamp : Int64) :
    Observed.Inv { state with
      service := state.service.onProximityChanged isNear timestamp
      reading := some isNear } := by
  obtain ⟨-, -, hstate⟩ := h.ready hready
  rw [onProximityChanged_of_ready h.wired hready]
  split
  · rename_i hsame
    apply h.of_report henabled h.wired
    · rw [← hsame, ← hready]
    · rw [← hsame, hstate]
    · exact h.exclusive
    · intro hactive
      rw [← hsame, hstate]
      exact (h.active hactive).2.2
  · have hmarked : Service.Wired { state.service.report isNear with mProximityNear := isNear } :=
      h.wired
    have hevent := handleProximity_switches hmarked timestamp
    apply h.of_report henabled hevent.wired
    · refine hevent.proximity.trans ?_
      rw [← hready]
      rfl
    · exact hevent.near
    · exact hevent.exclusive h.exclusive
    · intro hactive
      cases isNear with
      | false => rfl
      | true => exact absurd hactive (handleProximity_near hmarked rfl timestamp)

/-- Every delivered event keeps the invariant. -/
theorem Observed.Inv.deliver (h : state.Inv) {event : Event} {next : Observed}
    (hnext : deliver state event = some next) : next.Inv := by
  cases event with
  | displayOn =>
      obtain ⟨-, heq⟩ := Option.ite_none_left_eq_some.mp hnext
      obtain rfl := Option.some.inj heq
      exact h.displayOn
  | displayOff =>
      obtain ⟨hdisplay, heq⟩ := Option.ite_none_left_eq_some.mp hnext
      obtain rfl := Option.some.inj heq
      exact h.displayOff hdisplay
  | preference key value =>
      obtain rfl := Option.some.inj hnext
      exact h.of_switches (onSharedPreferenceChanged_switches h.wired key value)
        onSharedPreferenceChanged_active
  | setting dozeEnabled =>
      obtain rfl := Option.some.inj hnext
      exact h.of_switches (.of_power rfl rfl rfl rfl h.wired) id
  | proximity isNear timestamp =>
      obtain ⟨henabled, heq⟩ := Option.ite_none_right_eq_some.mp hnext
      obtain rfl := Option.some.inj heq
      cases hready : state.service.mProximitySensor.mReady with
      | false => exact h.proximityInit henabled hready isNear timestamp
      | true => exact h.proximityEvent henabled hready isNear timestamp
  | orientation type orientation env =>
      obtain ⟨hon, heq⟩ := Option.ite_none_right_eq_some.mp hnext
      obtain rfl := Option.some.inj heq
      exact h.of_switches (onOrientationChanged_switches h.wired type orientation env)
        fun _ => .inl hon
  | pickUp aboveSafezone aboveThreshold env =>
      obtain ⟨hon, heq⟩ := Option.ite_none_right_eq_some.mp hnext
      obtain rfl := Option.some.inj heq
      exact h.of_switches (onPickUpChanged_switches h.wired aboveSafezone aboveThreshold env)
        fun _ => .inr hon

end Steps

theorem inv_started (device : Device) (isInteractive : Bool) :
    (started device isInteractive).Inv := by
  have hcreated : Observed.Inv ⟨onCreate device, none, none⟩ :=
    .of_idle ⟨nofun, nofun⟩ nofun rfl (fun hactive => hactive.elim nofun nofun) nofun
  cases isInteractive with
  | true => exact hcreated
  | false => exact hcreated.displayOff nofun

theorem Observed.inv_of_reachable {device : Device} {isInteractive : Bool} {state : Observed}
    (h : Reachable Doze.deliver (started device isInteractive) state) : state.Inv :=
  invariant_of_step (fun _ _ _ hinv hnext => hinv.deliver hnext)
    (inv_started device isInteractive) h

/-- The two sensors are never on together. While one is on, the display is off, the
proximity sensor is on, and the last it reported since the display went off is that nothing
is near. -/
theorem doze_sensors_exclusive {device : Device} {isInteractive : Bool} {state : Observed}
    (h : Reachable deliver (started device isInteractive) state) :
    ¬ (state.service.mOrientationSensor.mEnabled = true ∧
        state.service.mPickUpSensor.mEnabled = true) ∧
      (state.service.mOrientationSensor.mEnabled = true ∨
          state.service.mPickUpSensor.mEnabled = true →
        state.display = some .off ∧ state.service.mProximitySensor.mEnabled = true ∧
          state.reading = some false) := by
  have hinv := Observed.inv_of_reachable h
  refine ⟨hinv.exclusive, fun hactive => ?_⟩
  obtain ⟨henabled, hready, hfar⟩ := hinv.active hactive
  obtain ⟨hdisplay, hreading, -⟩ := hinv.ready hready
  exact ⟨hdisplay, henabled, hreading.trans (congrArg some hfar)⟩

/-- The service starts with the display off, and the first reading turns the pick-up sensor
on. -/
def pickUpDevice : Device where
  proximityPresent := true
  accelerometerPresent := true
  magneticFieldPresent := true
  handwave := false
  pickUp := true
  pocket := false
  dozeEnabled := none

theorem doze_sensors_exclusive_pickUp :
    ∃ state, exec deliver (started pickUpDevice false) [.proximity false 7] = some state ∧
      state.service.mPickUpSensor.mEnabled = true ∧
      state.display = some .off ∧ state.service.mProximitySensor.mEnabled = true ∧
      state.reading = some false := by
  refine ⟨_, rfl, rfl, ?_⟩
  have hreach : Reachable deliver (started pickUpDevice false) _ := ⟨[.proximity false 7], rfl⟩
  exact (doze_sensors_exclusive hreach).2 (.inr rfl)

end Msm8916.Doze
