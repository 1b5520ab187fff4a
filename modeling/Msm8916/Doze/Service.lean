import Msm8916.Doze.Sensors
import Msm8916.Lib.Transition

/-!
`SensorsDozeService`. Each function is a handler's, on the fields of the service; the
system's settings, its clock and the device's sensors are what they find outside.
-/

namespace Msm8916.Doze

def handwaveDeltaNs : Int64 := 1000 * 1000 * 1000
def pulseMinIntervalMs : Int64 := 5000

def keyGestureHandWave : String := "gesture_hand_wave"
def keyGesturePickUp : String := "gesture_pick_up"
def keyGesturePocket : String := "gesture_pocket"

/-- What a handler has the system do, and the calls of `launchDozePulse` with the value of
`mDozeEnabled`. -/
inductive Effect where
  | acquireWakeLock
  | launchDozePulse (mDozeEnabled : Bool)
  | vibrate
  | sendDozeIntent
deriving DecidableEq

/-- What a handler finds in the system: two readings of the clock, and whether the ringer
is silent and touchscreen gestures are to be felt. -/
structure Env where
  elapsedRealtime : Int64
  elapsedRealtimeAfter : Int64
  ringerModeSilent : Bool
  hapticFeedback : Bool

/-- The fields of the service, and `DOZE_ENABLED` in the system's settings. -/
structure Service where
  mOrientationSensor : OrientationSensor
  mPickUpSensor : PickUpSensor
  mProximitySensor : ProximitySensor
  mDozeEnabled : Bool
  mHandwaveDoze : Bool
  mHandwaveGestureEnabled : Bool
  mPickUpDoze : Bool
  mPickUpGestureEnabled : Bool
  mPickUpState : Bool
  mPocketDoze : Bool
  mPocketGestureEnabled : Bool
  mProximityNear : Bool
  mLastPulseTimestamp : Int64
  mLastStowedTimestamp : Int64
  dozeEnabled : Option Int32
  effects : List Effect
deriving DecidableEq

namespace Service

def emit (s : Service) (effect : Effect) : Service := { s with effects := s.effects ++ [effect] }

def getDozeEnabled (s : Service) : Service :=
  { s with mDozeEnabled := s.dozeEnabled.getD 1 ≠ 0 }

def isHandwaveEnabled (s : Service) : Bool := s.mHandwaveGestureEnabled && s.mDozeEnabled

def isPickUpEnabled (s : Service) : Bool := s.mPickUpGestureEnabled && s.mDozeEnabled

def isPocketEnabled (s : Service) : Bool := s.mPocketGestureEnabled && s.mDozeEnabled

def isEventPending (s : Service) : Bool := s.mHandwaveDoze || s.mPickUpDoze || s.mPocketDoze

def launchWakeLock (s : Service) : Service := s.emit .acquireWakeLock

def launchAcknowledge (s : Service) (env : Env) : Service :=
  if !env.ringerModeSilent && env.hapticFeedback then s.emit .vibrate else s

def launchDozePulse (s : Service) (env : Env) : Service :=
  let s := s.emit (.launchDozePulse s.mDozeEnabled)
  let delta :=
    if s.mLastPulseTimestamp ≠ 0 then env.elapsedRealtime - s.mLastPulseTimestamp
    else pulseMinIntervalMs
  if delta ≥ pulseMinIntervalMs then
    let s := s.launchWakeLock.launchAcknowledge env
    { s with mLastPulseTimestamp := env.elapsedRealtimeAfter }.emit .sendDozeIntent
  else s

def resetValues (s : Service) : Service :=
  { s with mHandwaveDoze := false, mPickUpDoze := false, mPocketDoze := false }

/-- `setOrientationSensor`. To enable the sensor it calls `setPickUpSensor(false, false)`,
which only disables the other. -/
def setOrientationSensor (s : Service) (enabled reset : Bool) : Service :=
  let s := if reset then { s with mOrientationSensor := s.mOrientationSensor.reset } else s
  if enabled then
    let s := { s with mPickUpSensor := s.mPickUpSensor.disable }
    let s := s.launchWakeLock
    { s with mOrientationSensor := s.mOrientationSensor.enable }
  else { s with mOrientationSensor := s.mOrientationSensor.disable }

def setPickUpSensor (s : Service) (enabled reset : Bool) : Service :=
  let s := if reset then { s with mPickUpSensor := s.mPickUpSensor.reset } else s
  if enabled then
    let s := s.setOrientationSensor false false
    { s with mPickUpSensor := s.mPickUpSensor.enable }
  else { s with mPickUpSensor := s.mPickUpSensor.disable }

def setProximitySensor (s : Service) (enabled reset : Bool) : Service :=
  let s := if reset then { s with mProximitySensor := s.mProximitySensor.reset } else s
  if enabled then { s with mProximitySensor := s.mProximitySensor.enable }
  else { s with mProximitySensor := s.mProximitySensor.disable }

/-- `handleProximity`. -/
def handleProximity (s : Service) (timestamp : Int64) : Service :=
  let delta := timestamp - s.mLastStowedTimestamp
  let quickWave : Bool := delta < handwaveDeltaNs
  let s := s.getDozeEnabled
  if !s.mProximityNear then
    let s := s.resetValues
    if s.isHandwaveEnabled && s.isPickUpEnabled && s.isPocketEnabled then
      { s with mHandwaveDoze := quickWave, mPickUpDoze := !quickWave, mPocketDoze := !quickWave
        }.setOrientationSensor true false
    else if s.isHandwaveEnabled && quickWave then
      { s with mHandwaveDoze := true }.setOrientationSensor true false
    else if (s.isPickUpEnabled || s.isPocketEnabled) && !quickWave then
      { s with mPickUpDoze := s.isPickUpEnabled, mPocketDoze := s.isPocketEnabled
        }.setOrientationSensor true false
    else if s.isPickUpEnabled then s.setPickUpSensor true false
    else s
  else
    let s := { s with mLastStowedTimestamp := timestamp }
    (s.setOrientationSensor false false).setPickUpSensor false false

/-- `analyseDoze`. -/
def analyseDoze (s : Service) (env : Env) : Service :=
  let s := s.getDozeEnabled
  let s :=
    if s.mHandwaveDoze && !s.mOrientationSensor.isFaceDown then s.launchDozePulse env
    else if s.mPickUpDoze &&
        ((s.mPickUpState && !s.mProximityNear) ||
          (!s.mPickUpState && s.mOrientationSensor.isFaceDown)) then
      s.launchDozePulse env
    else if s.mPocketDoze && s.mOrientationSensor.isVertical then s.launchDozePulse env
    else s
  let s := if !s.mProximityNear && s.isPickUpEnabled then s.setPickUpSensor true false else s
  s.resetValues

def handleOrientation (s : Service) (env : Env) : Service :=
  if !s.mProximityNear then s.analyseDoze env else s

def handlePickUp (s : Service) (env : Env) : Service :=
  let s := s.getDozeEnabled
  if s.mPickUpState && s.isPickUpEnabled then
    ({ s with mPickUpDoze := true }.launchWakeLock).analyseDoze env
  else { s with mPickUpDoze := false }

def onDisplayOn (s : Service) : Service :=
  ((s.setOrientationSensor false true).setPickUpSensor false true).setProximitySensor false true

def onDisplayOff (s : Service) : Service :=
  let s := { s.getDozeEnabled with mLastPulseTimestamp := 0 }
  if s.isHandwaveEnabled || s.isPickUpEnabled || s.isPocketEnabled then
    ((s.resetValues.setOrientationSensor false true).setPickUpSensor false true).setProximitySensor
      true true
  else s

/-- `onSharedPreferenceChanged`, with the value of the preference. -/
def onSharedPreferenceChanged (s : Service) (key : String) (value : Bool) : Service :=
  if keyGestureHandWave = key then { s with mHandwaveGestureEnabled := value }
  else if keyGesturePickUp = key then { s with mPickUpGestureEnabled := value }
  else if keyGesturePocket = key then { s with mPocketGestureEnabled := value }
  else s

/-! ## The sensors' listeners -/

/-- `mProximityListener.onEvent`. -/
def onProximityEvent (s : Service) (isNear : Bool) (timestamp : Int64) : Service :=
  { s with mProximityNear := isNear }.handleProximity timestamp

/-- `mProximityListener.onInit`. -/
def onProximityInit (s : Service) (isNear : Bool) (timestamp : Int64) : Service :=
  let s := { s with mLastStowedTimestamp := timestamp, mProximityNear := isNear }
  if !s.isEventPending && !isNear && s.isPickUpEnabled then s.setPickUpSensor true false else s

/-- `ProximitySensor.onSensorChanged`, with the comparison of the measurement. -/
def onProximityChanged (s : Service) (isNear : Bool) (timestamp : Int64) : Service :=
  let s :=
    if s.mProximitySensor.mState ≠ isNear then
      let s := { s with mProximitySensor := { s.mProximitySensor with mState := isNear } }
      if s.mProximitySensor.mReady then s.onProximityEvent s.mProximitySensor.mState timestamp
      else s
    else s
  if !s.mProximitySensor.mReady then
    let s := s.onProximityInit s.mProximitySensor.mState timestamp
    { s with mProximitySensor := { s.mProximitySensor with mReady := true } }
  else s

/-- `mOrientationListener.onEvent`. -/
def onOrientationEvent (s : Service) (env : Env) : Service :=
  (s.setOrientationSensor false false).handleOrientation env

/-- `OrientationSensor.onSensorChanged`. When there is a rotation matrix, `state` is the
orientation it gives. -/
def onOrientationChanged (s : Service) (type : SensorType) (state : Option Orientation)
    (env : Env) : Service :=
  let s := { s with mOrientationSensor := s.mOrientationSensor.measure type }
  if s.mOrientationSensor.mGravity && s.mOrientationSensor.mMagnetic then
    match state with
    | none => s
    | some state =>
        { s with mOrientationSensor := { s.mOrientationSensor with mState := state, mReady := true }
          }.onOrientationEvent env
  else s

/-- `mPickUpListener.onEvent`. -/
def onPickUpEvent (s : Service) (env : Env) : Service :=
  { s with mPickUpState := s.mPickUpSensor.isPickedUp }.handlePickUp env

/-- `mPickUpListener.onInit`. -/
def onPickUpInit (s : Service) : Service :=
  { s with mPickUpState := s.mPickUpSensor.isPickedUp }

def setPickUpState (s : Service) (state : PickUp) (env : Env) : Service :=
  let s := { s with mPickUpSensor := { s.mPickUpSensor with mState := state } }
  if s.mPickUpSensor.mReady then s.onPickUpEvent env else s

/-- `PickUpSensor.onSensorChanged`, with whether the measurement is above the safe zone and
the threshold. -/
def onPickUpChanged (s : Service) (aboveSafezone aboveThreshold : Bool) (env : Env) : Service :=
  let s :=
    if aboveSafezone then
      if aboveThreshold && s.mPickUpSensor.mState ≠ .true then s.setPickUpState .true env else s
    else if s.mPickUpSensor.mState ≠ .false then s.setPickUpState .false env
    else s
  if !s.mPickUpSensor.mReady then
    { s with mPickUpSensor := { s.mPickUpSensor with mReady := true } }.onPickUpInit
  else s

end Service

/-- `launchDozePulse` writes the time of the last pulse and the log, where its own call is
the first entry. -/
theorem Service.launchDozePulse_eq (s : Service) (env : Env) :
    ∃ timestamp log, (∀ enabled, Effect.launchDozePulse enabled ∉ log) ∧
      s.launchDozePulse env = { s with
        mLastPulseTimestamp := timestamp
        effects := s.effects ++ .launchDozePulse s.mDozeEnabled :: log } := by
  let called := s.emit (.launchDozePulse s.mDozeEnabled)
  let delta :=
    if called.mLastPulseTimestamp ≠ 0 then env.elapsedRealtime - called.mLastPulseTimestamp
    else pulseMinIntervalMs
  have hunfold : s.launchDozePulse env =
      if delta ≥ pulseMinIntervalMs then
        { called.launchWakeLock.launchAcknowledge env with
          mLastPulseTimestamp := env.elapsedRealtimeAfter }.emit .sendDozeIntent
      else called := rfl
  rw [hunfold]
  split
  · unfold launchAcknowledge
    split
    · refine ⟨env.elapsedRealtimeAfter, [.acquireWakeLock, .vibrate, .sendDozeIntent], ?_, ?_⟩
      · simp
      · simp [called, launchWakeLock, emit]
    · refine ⟨env.elapsedRealtimeAfter, [.acquireWakeLock, .sendDozeIntent], ?_, ?_⟩
      · simp
      · simp [called, launchWakeLock, emit]
  · exact ⟨s.mLastPulseTimestamp, [], by simp, rfl⟩

/-! ## Events -/

/-- An event that is delivered to the service, or a change of the system's setting. -/
inductive Event where
  | displayOn
  | displayOff
  | preference (key : String) (value : Bool)
  | setting (dozeEnabled : Option Int32)
  | proximity (isNear : Bool) (timestamp : Int64)
  | orientation (type : SensorType) (state : Option Orientation) (env : Env)
  | pickUp (aboveSafezone aboveThreshold : Bool) (env : Env)

def handle (s : Service) : Event → Service
  | .displayOn => s.onDisplayOn
  | .displayOff => s.onDisplayOff
  | .preference key value => s.onSharedPreferenceChanged key value
  | .setting dozeEnabled => { s with dozeEnabled }
  | .proximity isNear timestamp => s.onProximityChanged isNear timestamp
  | .orientation type state env => s.onOrientationChanged type state env
  | .pickUp aboveSafezone aboveThreshold env =>
      s.onPickUpChanged aboveSafezone aboveThreshold env

/-- The sensors of the device, the preferences and the setting when the service is made. -/
structure Device where
  proximityPresent : Bool
  accelerometerPresent : Bool
  magneticFieldPresent : Bool
  handwave : Bool
  pickUp : Bool
  pocket : Bool
  dozeEnabled : Option Int32

/-- `onCreate`. -/
def onCreate (device : Device) : Service where
  mOrientationSensor := .new device.accelerometerPresent device.magneticFieldPresent
  mPickUpSensor := .new device.accelerometerPresent
  mProximitySensor := .new device.proximityPresent
  mDozeEnabled := false
  mHandwaveDoze := false
  mHandwaveGestureEnabled := device.handwave
  mPickUpDoze := false
  mPickUpGestureEnabled := device.pickUp
  mPickUpState := false
  mPocketDoze := false
  mPocketGestureEnabled := device.pocket
  mProximityNear := false
  mLastPulseTimestamp := 0
  mLastStowedTimestamp := 0
  dozeEnabled := device.dozeEnabled
  effects := []

/-- `onCreate` and `onStartCommand`. -/
def start (device : Device) (isInteractive : Bool) : Service :=
  if !isInteractive then (onCreate device).onDisplayOff else onCreate device

end Msm8916.Doze
