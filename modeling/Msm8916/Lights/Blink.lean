import Msm8916.Lights.Priority

/-!
The arithmetic of a blinking LED. The times come from the framework, and the code
multiplies and adds them before it divides.
-/

namespace Msm8916.Lights

/-- The LED is on for the part of a period that the state asks for, in units of 1/255 of the
period rounded down, of which 1 to 15 are raised to 16, and off for `flashOffMS`. -/
structure Blinks (state : LightState) (leds : Leds) : Prop where
  ratio : leds.greenLed =
    let ratio := state.flashOnMS.toInt * 255 / (state.flashOnMS.toInt + state.flashOffMS.toInt)
    if 1 ≤ ratio ∧ ratio ≤ 15 then 16 else ratio
  range : 0 ≤ leds.greenLed ∧ leds.greenLed ≤ 255
  off : leds.greenPwm = state.flashOffMS.toInt * 1000

section State

variable {state : LightState}

theorem onOffMS_of_flashes
    (hmode : state.flashMode = lightFlashTimed ∨ state.flashMode = lightFlashHardware) :
    state.onOffMS = (state.flashOnMS.toInt, state.flashOffMS.toInt) := if_pos hmode

/-- Of the three results the sum is the smallest if the products stay in range. -/
theorem inRange_iff (hblinks : state.blinks = true) :
    state.InRange ↔ state.onOffMS.1 * 255 ≤ intMax ∧ state.onOffMS.2 * 1000 ≤ intMax := by
  have hpos : 0 < state.onOffMS.1 ∧ 0 < state.onOffMS.2 := of_decide_eq_true hblinks
  unfold LightState.InRange intMax
  constructor
  · exact fun h => (h hblinks).2
  · rintro ⟨hon, hoff⟩ -
    refine ⟨?_, hon, hoff⟩
    omega

theorem fakePwm_bounds (hblinks : state.blinks = true) :
    0 ≤ fakePwm state ∧ fakePwm state ≤ 255 := by
  obtain ⟨hon, hoff⟩ : 0 < state.onOffMS.1 ∧ 0 < state.onOffMS.2 := of_decide_eq_true hblinks
  have htotal : 0 < state.onOffMS.1 + state.onOffMS.2 := by omega
  have hnonneg : 0 ≤ state.onOffMS.1 * 255 / (state.onOffMS.1 + state.onOffMS.2) :=
    Int.ediv_nonneg (by omega) (by omega)
  have hle : state.onOffMS.1 * 255 / (state.onOffMS.1 + state.onOffMS.2) ≤ 255 :=
    Int.ediv_le_of_le_mul htotal (by omega)
  unfold fakePwm
  dsimp only
  split
  · exact ⟨by decide, by decide⟩
  · exact ⟨hnonneg, hle⟩

end State

/-- A state that flashes is shown as it asks exactly if its times are short enough for the
products of the code. -/
theorem blink_arithmetic_iff (state : LightState)
    (hmode : state.flashMode = lightFlashTimed ∨ state.flashMode = lightFlashHardware)
    (hon : 0 < state.flashOnMS.toInt) (hoff : 0 < state.flashOffMS.toInt) (leds : Leds) :
    (∃ final, setLightLocked state leds = some final ∧ Blinks state final) ↔
      state.flashOnMS.toInt ≤ 8421504 ∧ state.flashOffMS.toInt ≤ 2147483 := by
  have htimes := onOffMS_of_flashes hmode
  have hblinks : state.blinks = true := by
    unfold LightState.blinks
    rw [htimes]
    exact decide_eq_true ⟨hon, hoff⟩
  obtain ⟨hsome, hnone⟩ := setLightLocked_of_blinks state leds hblinks
  have hrange : state.InRange ↔
      state.flashOnMS.toInt ≤ 8421504 ∧ state.flashOffMS.toInt ≤ 2147483 := by
    rw [inRange_iff hblinks, htimes]
    unfold intMax
    omega
  rw [← hrange]
  constructor
  · rintro ⟨final, hfinal, -⟩
    by_contra hover
    rw [hnone hover] at hfinal
    cases hfinal
  · intro h
    refine ⟨_, hsome h, ?_, fakePwm_bounds hblinks, ?_⟩
    · unfold fakePwm
      rw [htimes]
      apply if_congr _ rfl rfl
      dsimp only
      omega
    · rw [htimes]

/-- Half a second on, one second off. -/
def slowBlink : LightState := ⟨0xff00ff00, lightFlashTimed, 500, 1000⟩

theorem blink_arithmetic_iff_slow :
    (∃ final, setLightLocked slowBlink dark = some final ∧ Blinks slowBlink final) ↔
      slowBlink.flashOnMS.toInt ≤ 8421504 ∧ slowBlink.flashOffMS.toInt ≤ 2147483 :=
  blink_arithmetic_iff slowBlink (.inl rfl) (by decide) (by decide) dark

/-- One second on, fifty minutes off: the time off in microseconds is no `int`. -/
theorem long_pause_overflows :
    ¬ ∀ (state : LightState) (leds : Leds),
      (state.flashMode = lightFlashTimed ∨ state.flashMode = lightFlashHardware) →
      0 < state.flashOnMS.toInt → 0 < state.flashOffMS.toInt →
      ∃ final, setLightLocked state leds = some final ∧ Blinks state final := by
  intro hall
  obtain ⟨final, hfinal, -⟩ := hall ⟨0xff00ff00, lightFlashTimed, 1000, 3000000⟩ dark (.inl rfl)
    (by decide) (by decide)
  have hnone : setLightLocked ⟨0xff00ff00, lightFlashTimed, 1000, 3000000⟩ dark = none := by
    decide
  cases hnone.symm.trans hfinal

end Msm8916.Lights
