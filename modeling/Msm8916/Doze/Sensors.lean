/-!
The sensors of `cmactions`: `ProximitySensor`, `OrientationSensor` and `PickUpSensor`. Where
a sensor reports a measurement, the model has how it compares with the code's bounds.
-/

namespace Msm8916.Doze

/-- The fields of `ProximitySensor`, and whether the device has the sensor. -/
structure ProximitySensor where
  mEnabled : Bool
  mReady : Bool
  mState : Bool
  present : Bool
deriving DecidableEq

namespace ProximitySensor

def reset (sensor : ProximitySensor) : ProximitySensor :=
  { sensor with mReady := false, mState := false }

def enable (sensor : ProximitySensor) : ProximitySensor :=
  if !sensor.mEnabled && sensor.present then { sensor with mEnabled := true } else sensor

def disable (sensor : ProximitySensor) : ProximitySensor :=
  if sensor.mEnabled && sensor.present then { sensor with mEnabled := false } else sensor

/-- The constructor. -/
def new (present : Bool) : ProximitySensor := ⟨false, false, false, present⟩

end ProximitySensor

inductive Orientation where
  | unknown
  | faceDown
  | faceUp
  | vertical
deriving DecidableEq

/-- The type of an event's sensor. -/
inductive SensorType where
  | accelerometer
  | magneticField
  | other
deriving DecidableEq

/-- The fields of `OrientationSensor`. `mGravity` and `mMagnetic` say whether there is a
measurement. -/
structure OrientationSensor where
  mEnabled : Bool
  mReady : Bool
  mState : Orientation
  mGravity : Bool
  mMagnetic : Bool
  accelerometerPresent : Bool
  magneticFieldPresent : Bool
deriving DecidableEq

namespace OrientationSensor

def isFaceDown (sensor : OrientationSensor) : Bool :=
  sensor.mReady && sensor.mState = .faceDown

def isFaceUp (sensor : OrientationSensor) : Bool :=
  sensor.mReady && sensor.mState = .faceUp

def isVertical (sensor : OrientationSensor) : Bool :=
  sensor.mReady && sensor.mState = .vertical

def reset (sensor : OrientationSensor) : OrientationSensor :=
  { sensor with mGravity := false, mMagnetic := false, mReady := false }

def enable (sensor : OrientationSensor) : OrientationSensor :=
  if !sensor.mEnabled && sensor.accelerometerPresent && sensor.magneticFieldPresent then
    { sensor.reset with mState := .unknown, mEnabled := true }
  else sensor

def disable (sensor : OrientationSensor) : OrientationSensor :=
  if sensor.mEnabled && sensor.accelerometerPresent && sensor.magneticFieldPresent then
    { sensor with mEnabled := false }
  else sensor

/-- The measurement that `onSensorChanged` keeps. -/
def measure (sensor : OrientationSensor) : SensorType → OrientationSensor
  | .accelerometer => { sensor with mGravity := true }
  | .magneticField => { sensor with mMagnetic := true }
  | .other => sensor

def new (accelerometerPresent magneticFieldPresent : Bool) : OrientationSensor :=
  ⟨false, false, .unknown, false, false, accelerometerPresent, magneticFieldPresent⟩

end OrientationSensor

inductive PickUp where
  | unknown
  | false
  | true
deriving DecidableEq

/-- The fields of `PickUpSensor`. -/
structure PickUpSensor where
  mEnabled : Bool
  mReady : Bool
  mState : PickUp
  present : Bool
deriving DecidableEq

namespace PickUpSensor

def isPickedUp (sensor : PickUpSensor) : Bool := sensor.mReady && sensor.mState = .true

def reset (sensor : PickUpSensor) : PickUpSensor :=
  { sensor with mReady := false, mState := .unknown }

def enable (sensor : PickUpSensor) : PickUpSensor :=
  if !sensor.mEnabled && sensor.present then { sensor.reset with mEnabled := true } else sensor

def disable (sensor : PickUpSensor) : PickUpSensor :=
  if sensor.mEnabled && sensor.present then { sensor with mEnabled := false } else sensor

def new (present : Bool) : PickUpSensor := ⟨false, false, .unknown, present⟩

end PickUpSensor

/-! ## What is enabled -/

/-- Only a sensor that the device has is enabled. -/
def ProximitySensor.Wired (sensor : ProximitySensor) : Prop :=
  sensor.mEnabled = true → sensor.present = true

def OrientationSensor.Wired (sensor : OrientationSensor) : Prop :=
  sensor.mEnabled = true →
    sensor.accelerometerPresent = true ∧ sensor.magneticFieldPresent = true

def PickUpSensor.Wired (sensor : PickUpSensor) : Prop :=
  sensor.mEnabled = true → sensor.present = true

section Wired

theorem ProximitySensor.Wired.disable {sensor : ProximitySensor} (h : sensor.Wired) :
    sensor.disable.mEnabled = false ∧ sensor.disable.Wired := by
  unfold ProximitySensor.disable
  split
  · exact ⟨rfl, nofun⟩
  · rename_i hnot
    have hoff : sensor.mEnabled = false := by
      cases henabled : sensor.mEnabled with
      | false => rfl
      | true => simp [henabled, h henabled] at hnot
    exact ⟨hoff, h⟩

theorem ProximitySensor.Wired.enable {sensor : ProximitySensor} (h : sensor.Wired) :
    sensor.enable.Wired := by
  unfold ProximitySensor.enable
  split
  · rename_i hpresent
    rw [Bool.and_eq_true] at hpresent
    exact fun _ => hpresent.2
  · exact h

@[simp]
theorem ProximitySensor.disable_mReady (sensor : ProximitySensor) :
    sensor.disable.mReady = sensor.mReady := by
  unfold ProximitySensor.disable
  split <;> rfl

@[simp]
theorem ProximitySensor.enable_mReady (sensor : ProximitySensor) :
    sensor.enable.mReady = sensor.mReady := by
  unfold ProximitySensor.enable
  split <;> rfl

theorem OrientationSensor.Wired.disable {sensor : OrientationSensor} (h : sensor.Wired) :
    sensor.disable.mEnabled = false ∧ sensor.disable.Wired := by
  unfold OrientationSensor.disable
  split
  · exact ⟨rfl, nofun⟩
  · rename_i hnot
    have hoff : sensor.mEnabled = false := by
      cases henabled : sensor.mEnabled with
      | false => rfl
      | true => simp [henabled, h henabled] at hnot
    exact ⟨hoff, h⟩

@[simp]
theorem OrientationSensor.disable_mReady (sensor : OrientationSensor) :
    sensor.disable.mReady = sensor.mReady := by
  unfold OrientationSensor.disable
  split <;> rfl

@[simp]
theorem OrientationSensor.disable_mState (sensor : OrientationSensor) :
    sensor.disable.mState = sensor.mState := by
  unfold OrientationSensor.disable
  split <;> rfl

theorem OrientationSensor.Wired.enable {sensor : OrientationSensor} (h : sensor.Wired) :
    sensor.enable.Wired := by
  unfold OrientationSensor.enable
  split
  · rename_i hpresent
    rw [Bool.and_eq_true, Bool.and_eq_true] at hpresent
    exact fun _ => ⟨hpresent.1.2, hpresent.2⟩
  · exact h

theorem PickUpSensor.Wired.disable {sensor : PickUpSensor} (h : sensor.Wired) :
    sensor.disable.mEnabled = false ∧ sensor.disable.Wired := by
  unfold PickUpSensor.disable
  split
  · exact ⟨rfl, nofun⟩
  · rename_i hnot
    have hoff : sensor.mEnabled = false := by
      cases henabled : sensor.mEnabled with
      | false => rfl
      | true => simp [henabled, h henabled] at hnot
    exact ⟨hoff, h⟩

theorem PickUpSensor.Wired.enable {sensor : PickUpSensor} (h : sensor.Wired) :
    sensor.enable.Wired := by
  unfold PickUpSensor.enable
  split
  · rename_i hpresent
    rw [Bool.and_eq_true] at hpresent
    exact fun _ => hpresent.2
  · exact h

end Wired

end Msm8916.Doze
