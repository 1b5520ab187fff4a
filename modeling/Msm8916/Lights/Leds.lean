import Msm8916.Lib.LastWrite
import Msm8916.Lib.Transition
import Mathlib.Logic.Function.Basic
import Mathlib.Algebra.Order.Ring.Int

/-!
The notification LED of `liblight/lights.c`. A state of a light is what the caller passes;
the LED files hold what was written to them last. A call has no value when it leaves the
range of `int`.
-/

namespace Msm8916.Lights

open Transition

def ledLightOff : Int := 0
def ledLightOn : Int := 255

def lightFlashTimed : Int32 := 1
def lightFlashHardware : Int32 := 2

/-- `struct light_state_t`, as far as the LED depends on it. -/
structure LightState where
  color : UInt32
  flashMode : Int32
  flashOnMS : Int32
  flashOffMS : Int32
deriving DecidableEq

/-- The indices of `g_lights`. -/
inductive Light where
  | attention
  | notification
  | battery
deriving DecidableEq

/-- The files of the LEDs. -/
structure Leds where
  greenLed : Int
  redLed : Int
  greenPwm : Int
  redPwm : Int
deriving DecidableEq

structure LightsModule where
  g_lights : Light → LightState
  leds : Leds

/-- `is_lit`. -/
def LightState.isLit (state : LightState) : Bool := state.color &&& 0x00ffffff ≠ 0

/-- The top byte of the color. -/
def LightState.level (state : LightState) : Int := ((state.color &&& 0xff000000) >>> 24).toNat

/-- `onMS` and `offMS` of `set_light_locked`. -/
def LightState.onOffMS (state : LightState) : Int × Int :=
  if state.flashMode = lightFlashTimed ∨ state.flashMode = lightFlashHardware then
    (state.flashOnMS.toInt, state.flashOffMS.toInt)
  else (0, 0)

/-- `brightness_level` of `set_light_locked`. -/
def LightState.brightnessLevel (state : LightState) : Int :=
  if state.isLit then
    if state.color &&& 0xff000000 ≠ 0 then state.level else ledLightOn
  else ledLightOff

def intMax : Int := 2 ^ 31 - 1

/-- The value of an `int` expression. -/
def int (value : Int) : Option Int :=
  if -intMax - 1 ≤ value ∧ value ≤ intMax then some value else none

/-- `set_light_locked`, which returns 0. -/
def setLightLocked (state : LightState) (leds : Leds) : Option Leds :=
  let (onMS, offMS) := state.onOffMS
  let leds := { leds with greenLed := ledLightOff, redLed := ledLightOff }
  if 0 < onMS ∧ 0 < offMS then do
    let totalMS ← int (onMS + offMS)
    let scaled ← int (onMS * 255)
    let fake_pwm := scaled / totalMS
    let fake_pwm := if 0 < fake_pwm ∧ fake_pwm < 16 then 16 else fake_pwm
    let pwm ← int (offMS * 1000)
    return { leds with greenLed := fake_pwm, greenPwm := pwm }
  else
    return { leds with greenLed := state.brightnessLevel, greenPwm := 100 }

/-- `handle_led_prioritized_locked`. -/
def handleLedPrioritizedLocked (lights : LightsModule) (state : LightState) : Option LightsModule :=
  if (lights.g_lights .attention).isLit then
    (setLightLocked (lights.g_lights .attention) lights.leds).map fun leds => { lights with leds }
  else if (lights.g_lights .notification).isLit then
    (setLightLocked (lights.g_lights .notification) lights.leds).map fun leds =>
      { lights with leds }
  else (setLightLocked state lights.leds).map fun leds => { lights with leds }

/-- `set_light_notifications`. -/
def setLightNotifications (lights : LightsModule) (state : LightState) : Option LightsModule :=
  handleLedPrioritizedLocked
    { lights with g_lights := Function.update lights.g_lights .notification state } state

/-- `set_light_attention`. -/
def setLightAttention (lights : LightsModule) (state : LightState) : Option LightsModule :=
  handleLedPrioritizedLocked
    { lights with g_lights := Function.update lights.g_lights .attention state } state

/-- What `set_light_battery` writes. -/
def batteryLeds (state : LightState) (leds : Leds) : Leds :=
  let level := if state.level < 0 then 0 else if 100 < state.level then 100 else state.level
  let leds := { leds with greenLed := ledLightOff, redLed := ledLightOff }
  if state.isLit then
    if level ≤ 15 then { leds with redLed := 255, redPwm := 100 }
    else if level ≤ 99 then
      { greenLed := 255, greenPwm := 100, redLed := 255, redPwm := 100 }
    else { leds with greenLed := 255, greenPwm := 100 }
  else leds

/-- `set_light_battery` of an open device. -/
def setLightBattery (lights : LightsModule) (state : LightState) : LightsModule :=
  { lights with leds := batteryLeds state lights.leds }

/-! ## Sequences of calls -/

/-- A call of `set_light` of one of the lights. -/
structure Call where
  light : Light
  state : LightState

def step (lights : LightsModule) (call : Call) : Option LightsModule :=
  match call.light with
  | .attention => setLightAttention lights call.state
  | .notification => setLightNotifications lights call.state
  | .battery => some (setLightBattery lights call.state)

def unlit : LightState where
  color := 0
  flashMode := 0
  flashOnMS := 0
  flashOffMS := 0

/-- The lights before the first call. -/
def initial (leds : Leds) : LightsModule := ⟨fun _ => unlit, leds⟩

/-- The latest state of a light. -/
def latest (calls : List Call) (light : Light) : LightState :=
  (lastWrite (fun call => if call.light = light then some call.state else none) calls).getD unlit

/-! ## What one sees -/

/-- Brightness and PWM of the LEDs that are on. -/
structure Shown where
  green : Option (Int × Int)
  red : Option (Int × Int)
deriving DecidableEq

def led (brightness pwm : Int) : Option (Int × Int) :=
  if brightness = 0 then none else some (brightness, pwm)

def Leds.shown (leds : Leds) : Shown :=
  ⟨led leds.greenLed leds.greenPwm, led leds.redLed leds.redPwm⟩

def dark : Leds := ⟨0, 0, 0, 0⟩

/-- What `set_light_locked` shows for a state. -/
def shownLocked (state : LightState) : Option Shown := (setLightLocked state dark).map Leds.shown

/-- What `set_light_battery` shows for a state. -/
def shownBattery (state : LightState) : Shown := (batteryLeds state dark).shown

/-- The lit state that has priority over the battery. -/
def top (lights : Light → LightState) : Option LightState :=
  if (lights .attention).isLit then some (lights .attention)
  else if (lights .notification).isLit then some (lights .notification)
  else none

/-- What the lit light of the highest priority shows. -/
def wanted (lights : Light → LightState) : Option Shown :=
  match top lights with
  | some state => shownLocked state
  | none => some (shownBattery (lights .battery))

/-- After the calls the LEDs show the latest states. -/
def ShowsLatest (leds : Leds) (calls : List Call) : Prop :=
  ∃ final, exec step (initial leds) calls = some final ∧
    wanted (latest calls) = some final.leds.shown

end Msm8916.Lights
