import Msm8916.Lights.Leds

/-!
When the LEDs show the latest state of the light that has priority.
-/

namespace Msm8916.Lights

open Transition

namespace LightState

/-- The state asks for flashing. -/
def blinks (state : LightState) : Bool := 0 < state.onOffMS.1 ∧ 0 < state.onOffMS.2

/-- The times of a flashing state stay in the range of `int`. -/
def InRange (state : LightState) : Prop :=
  state.blinks → state.onOffMS.1 + state.onOffMS.2 ≤ intMax ∧
    state.onOffMS.1 * 255 ≤ intMax ∧ state.onOffMS.2 * 1000 ≤ intMax

/-- The state is unlit and does not flash, or the LED is on for less than 1/255 of the time. -/
def IsDark (state : LightState) : Prop :=
  if state.blinks then state.onOffMS.1 * 255 < state.onOffMS.1 + state.onOffMS.2
  else state.isLit = false

/-- The state looks like the battery's: steady full green like a full battery, or dark like
an unlit one. -/
def LooksLike (state battery : LightState) : Prop :=
  if battery.isLit then
    100 ≤ battery.level ∧ state.blinks = false ∧ state.brightnessLevel = 255
  else state.IsDark

end LightState

/-- What `set_light_locked` is called with. -/
def prioritized (lights : Light → LightState) (state : LightState) : LightState :=
  (top lights).getD state

/-- The state that a call shows can be shown. -/
def InRange (lights : LightsModule) (call : Call) : Prop :=
  match call.light with
  | .attention | .notification =>
      (prioritized (Function.update lights.g_lights call.light call.state) call.state).InRange
  | .battery => True

/-- The last call shows what has priority: a call for the battery finds the other lights
unlit, and one for another light leaves one of them lit, or what it shows instead looks
alike. -/
def Decides (lights : Light → LightState) (last : Call) : Prop :=
  match last.light, top lights with
  | .battery, some state => state.LooksLike last.state
  | .battery, none | .attention, some _ | .notification, some _ => True
  | .attention, none | .notification, none => last.state.LooksLike (lights .battery)

/-! ## What one call shows -/

section Locked

variable (state : LightState) (leds : Leds)

/-- `fake_pwm` of `set_light_locked`. -/
def fakePwm : Int :=
  let ratio := state.onOffMS.1 * 255 / (state.onOffMS.1 + state.onOffMS.2)
  if 0 < ratio ∧ ratio < 16 then 16 else ratio

theorem int_of_nonneg {value : Int} (h : 0 ≤ value) :
    int value = if value ≤ intMax then some value else none := by
  have hmin : -intMax - 1 ≤ value := by
    unfold intMax
    omega
  simp [int, hmin]

theorem setLightLocked_of_steady (h : state.blinks = false) :
    setLightLocked state leds =
      some { leds with greenLed := state.brightnessLevel, redLed := 0, greenPwm := 100 } := by
  have hnot : ¬ (0 < state.onOffMS.1 ∧ 0 < state.onOffMS.2) := of_decide_eq_false h
  simp only [setLightLocked, if_neg hnot]
  rfl

theorem setLightLocked_of_blinks (h : state.blinks = true) :
    (state.InRange → setLightLocked state leds =
      some { leds with
        greenLed := fakePwm state, redLed := 0, greenPwm := state.onOffMS.2 * 1000 }) ∧
    (¬ state.InRange → setLightLocked state leds = none) := by
  have hpos : 0 < state.onOffMS.1 ∧ 0 < state.onOffMS.2 := of_decide_eq_true h
  obtain ⟨hon, hoff⟩ := hpos
  simp only [LightState.InRange, h, forall_const, setLightLocked, hon, hoff, and_self, if_true,
    int_of_nonneg (show 0 ≤ state.onOffMS.1 + state.onOffMS.2 by omega),
    int_of_nonneg (show 0 ≤ state.onOffMS.1 * 255 by omega),
    int_of_nonneg (show 0 ≤ state.onOffMS.2 * 1000 by omega)]
  constructor
  · rintro ⟨htotal, hscaled, hpwm⟩
    simp only [if_pos htotal, if_pos hscaled, if_pos hpwm]
    rfl
  · intro hover
    by_cases htotal : state.onOffMS.1 + state.onOffMS.2 ≤ intMax
    · by_cases hscaled : state.onOffMS.1 * 255 ≤ intMax
      · have hpwm : ¬ state.onOffMS.2 * 1000 ≤ intMax := fun hpwm => hover ⟨htotal, hscaled, hpwm⟩
        simp only [if_pos htotal, if_pos hscaled, if_neg hpwm]
        rfl
      · simp only [if_pos htotal, if_neg hscaled]
        rfl
    · simp only [if_neg htotal]
      rfl

theorem setLightLocked_isSome :
    (setLightLocked state leds).isSome ↔ state.InRange := by
  cases h : state.blinks with
  | false =>
      rw [setLightLocked_of_steady state leds h]
      exact iff_of_true rfl fun hblinks => by cases h.symm.trans hblinks
  | true =>
      obtain ⟨hsome, hnone⟩ := setLightLocked_of_blinks state leds h
      constructor
      · intro hdefined
        by_contra hover
        rw [hnone hover] at hdefined
        cases hdefined
      · intro hrange
        rw [hsome hrange]
        rfl

/-- What is shown does not depend on what was shown before. -/
theorem map_shown_setLightLocked :
    (setLightLocked state leds).map Leds.shown = shownLocked state := by
  unfold shownLocked
  cases h : state.blinks with
  | false =>
      rw [setLightLocked_of_steady state leds h, setLightLocked_of_steady state dark h]
      rfl
  | true =>
      obtain ⟨hsome, hnone⟩ := setLightLocked_of_blinks state leds h
      obtain ⟨hsome', hnone'⟩ := setLightLocked_of_blinks state dark h
      by_cases hrange : state.InRange
      · rw [hsome hrange, hsome' hrange]
        rfl
      · rw [hnone hrange, hnone' hrange]

theorem level_nonneg : 0 ≤ state.level := Int.natCast_nonneg _

/-- A lit battery is red, then red and green, and green when it is full. -/
theorem shown_batteryLeds :
    (batteryLeds state leds).shown =
      if state.isLit then
        if state.level ≤ 15 then ⟨none, some (255, 100)⟩
        else if state.level ≤ 99 then ⟨some (255, 100), some (255, 100)⟩
        else ⟨some (255, 100), none⟩
      else ⟨none, none⟩ := by
  have hlevel := level_nonneg state
  have hclamped : ∀ bound : Int, bound ≤ 99 →
      ((if state.level < 0 then 0 else if 100 < state.level then 100 else state.level) ≤ bound ↔
        state.level ≤ bound) := by
    intro bound hbound
    split
    · omega
    · split <;> omega
  unfold batteryLeds
  simp only [hclamped 15 (by decide), hclamped 99 (by decide)]
  split
  · split
    · rfl
    · split <;> rfl
  · rfl

end Locked

variable {state battery : LightState}

theorem fakePwm_of_blinks (h : state.blinks = true) :
    fakePwm state ≤ 254 ∧
      (fakePwm state = 0 ↔ state.onOffMS.1 * 255 < state.onOffMS.1 + state.onOffMS.2) := by
  obtain ⟨hon, hoff⟩ : 0 < state.onOffMS.1 ∧ 0 < state.onOffMS.2 := of_decide_eq_true h
  have htotal : 0 < state.onOffMS.1 + state.onOffMS.2 := by omega
  have hle : state.onOffMS.1 * 255 / (state.onOffMS.1 + state.onOffMS.2) ≤ 254 := by
    apply Int.le_of_lt_add_one
    rw [Int.ediv_lt_iff_lt_mul htotal]
    omega
  have hnonneg : 0 ≤ state.onOffMS.1 * 255 / (state.onOffMS.1 + state.onOffMS.2) :=
    Int.ediv_nonneg (by omega) htotal.le
  have hzero : state.onOffMS.1 * 255 / (state.onOffMS.1 + state.onOffMS.2) < 1 ↔
      state.onOffMS.1 * 255 < state.onOffMS.1 + state.onOffMS.2 := by
    rw [Int.ediv_lt_iff_lt_mul htotal, Int.one_mul]
  rw [← hzero]
  unfold fakePwm
  dsimp only
  split
  · omega
  · omega

/-- The top byte of the color is zero only if its bits are. -/
theorem level_ne_zero (h : state.color &&& 0xff000000 ≠ 0) : state.level ≠ 0 := by
  intro hlevel
  apply h
  have hshift : (state.color &&& 0xff000000).toNat / 2 ^ 24 = 0 := by
    have := Int.ofNat.inj hlevel
    rwa [UInt32.toNat_shiftRight, Nat.shiftRight_eq_div_pow] at this
  have hmod : (state.color &&& 0xff000000).toNat % 2 ^ 24 = 0 := by
    rw [UInt32.toNat_and, Nat.and_mod_two_pow]
    exact Nat.and_zero _
  apply UInt32.toNat_inj.mp
  change (state.color &&& 0xff000000).toNat = 0
  omega

theorem brightnessLevel_eq_zero : state.brightnessLevel = 0 ↔ state.isLit = false := by
  unfold LightState.brightnessLevel
  split
  · rename_i hlit
    refine iff_of_false ?_ (by simp [hlit])
    split
    · rename_i hbits
      exact level_ne_zero hbits
    · decide
  · rename_i hlit
    exact iff_of_true rfl (Bool.eq_false_iff.mpr hlit)

theorem shownBattery_eq (state : LightState) :
    shownBattery state =
      if state.isLit then
        if state.level ≤ 15 then ⟨none, some (255, 100)⟩
        else if state.level ≤ 99 then ⟨some (255, 100), some (255, 100)⟩
        else ⟨some (255, 100), none⟩
      else ⟨none, none⟩ := shown_batteryLeds state dark

/-- What the green LED alone has to show to look like the battery. -/
theorem green_eq_shownBattery_iff (brightness pwm : Int) :
    Shown.mk (led brightness pwm) none = shownBattery battery ↔
      if battery.isLit then 100 ≤ battery.level ∧ brightness = 255 ∧ pwm = 100
      else brightness = 0 := by
  rw [shownBattery_eq, led]
  cases battery.isLit with
  | false => by_cases hzero : brightness = 0 <;> simp [hzero]
  | true =>
      simp only [if_true]
      by_cases hred : battery.level ≤ 15
      · rw [if_pos hred]
        exact iff_of_false (by simp) (by omega)
      · by_cases hyellow : battery.level ≤ 99
        · rw [if_neg hred, if_pos hyellow]
          exact iff_of_false (by simp) (by omega)
        · have hfull : 100 ≤ battery.level := by omega
          rw [if_neg hred, if_neg hyellow, and_iff_right hfull]
          by_cases hzero : brightness = 0
          · simp [hzero]
          · simp [hzero]

/-- When what `set_light_locked` shows looks like the battery. -/
theorem shownLocked_eq_battery_iff (hrange : state.InRange) :
    shownLocked state = some (shownBattery battery) ↔ state.LooksLike battery := by
  unfold shownLocked LightState.LooksLike LightState.IsDark
  cases hblinks : state.blinks with
  | false =>
      rw [setLightLocked_of_steady state dark hblinks, Option.map_some, Option.some.injEq]
      refine (green_eq_shownBattery_iff state.brightnessLevel 100).trans ?_
      rw [brightnessLevel_eq_zero]
      simp
  | true =>
      obtain ⟨hle, hzero⟩ := fakePwm_of_blinks hblinks
      have hne : fakePwm state ≠ 255 := by omega
      rw [(setLightLocked_of_blinks state dark hblinks).1 hrange, Option.map_some,
        Option.some.injEq]
      refine (green_eq_shownBattery_iff (fakePwm state) (state.onOffMS.2 * 1000)).trans ?_
      simp [hne, hzero]

/-! ## Runs -/

theorem handleLedPrioritizedLocked_eq (lights : LightsModule) (state : LightState) :
    handleLedPrioritizedLocked lights state =
      (setLightLocked (prioritized lights.g_lights state) lights.leds).map fun leds =>
        { lights with leds } := by
  unfold handleLedPrioritizedLocked prioritized top
  split
  · rfl
  · split <;> rfl

theorem step_isSome (lights : LightsModule) (call : Call) :
    (step lights call).isSome ↔ InRange lights call := by
  obtain ⟨light, state⟩ := call
  cases light with
  | attention | notification =>
      simp only [step, setLightAttention, setLightNotifications, handleLedPrioritizedLocked_eq,
        Option.isSome_map]
      exact setLightLocked_isSome _ _
  | battery => exact iff_of_true rfl trivial

/-- `g_lights` remembers the states of the lights but the battery. -/
theorem step_g_lights {lights next : LightsModule} {call : Call} {light : Light}
    (hlight : light ≠ .battery) (hstep : step lights call = some next) :
    next.g_lights light =
      (if call.light = light then some call.state else none).getD (lights.g_lights light) := by
  have hupdate : ∀ changed, (∃ leds,
      some { g_lights := Function.update lights.g_lights changed call.state, leds } = some next) →
        next.g_lights light =
          (if changed = light then some call.state else none).getD (lights.g_lights light) := by
    rintro changed ⟨leds, hnext⟩
    rw [← Option.some.inj hnext]
    by_cases heq : changed = light
    · subst heq
      simp
    · simp [heq, Function.update_of_ne (Ne.symm heq)]
  obtain ⟨changed, state⟩ := call
  cases changed with
  | attention | notification =>
      simp only [step, setLightAttention, setLightNotifications,
        handleLedPrioritizedLocked_eq] at hstep
      obtain ⟨leds, -, hnext⟩ := Option.map_eq_some_iff.mp hstep
      exact hupdate _ ⟨leds, congrArg some hnext⟩
  | battery =>
      cases hstep
      simp [setLightBattery, hlight.symm]

theorem g_lights_of_exec {leds : Leds} {calls : List Call} {final : LightsModule} {light : Light}
    (hlight : light ≠ .battery) (hrun : exec step (initial leds) calls = some final) :
    final.g_lights light = latest calls light :=
  exec_lastWrite (fun lights => lights.g_lights light)
    (fun _ _ _ hstep => step_g_lights hlight hstep) hrun

theorem top_of_exec {leds : Leds} {calls : List Call} {final : LightsModule}
    (hrun : exec step (initial leds) calls = some final) :
    top final.g_lights = top (latest calls) := by
  unfold top
  have hattention : final.g_lights .attention = latest calls .attention :=
    g_lights_of_exec nofun hrun
  have hnotification : final.g_lights .notification = latest calls .notification :=
    g_lights_of_exec nofun hrun
  rw [hattention, hnotification]

/-- A call for another light than the battery shows what has priority after it. -/
theorem shown_of_step {lights next : LightsModule} {call : Call}
    (hlight : call.light ≠ .battery) (hstep : step lights call = some next) :
    (prioritized next.g_lights call.state).InRange ∧
      shownLocked (prioritized next.g_lights call.state) = some next.leds.shown := by
  obtain ⟨light, state⟩ := call
  cases light with
  | attention | notification =>
      simp only [step, setLightAttention, setLightNotifications,
        handleLedPrioritizedLocked_eq] at hstep
      obtain ⟨leds, hleds, rfl⟩ := Option.map_eq_some_iff.mp hstep
      dsimp only at hleds ⊢
      rw [← setLightLocked_isSome _ lights.leds, ← map_shown_setLightLocked _ lights.leds, hleds]
      exact ⟨rfl, rfl⟩
  | battery => exact absurd rfl hlight

/-- The lit light of the highest priority has been shown. -/
theorem inRange_top {leds : Leds} {calls : List Call} {final : LightsModule}
    (hrun : exec step (initial leds) calls = some final) :
    ∀ state ∈ top final.g_lights, state.InRange := by
  have hinit : top (initial leds).g_lights = none := by
    have hunlit : unlit.isLit = false := by decide
    simp [top, initial, hunlit]
  refine invariant_of_step (I := fun lights : LightsModule => ∀ state ∈ top lights.g_lights,
    state.InRange) (fun lights call next h hstep state hstate => ?_)
    (by rw [hinit]; exact nofun) ⟨calls, hrun⟩
  by_cases hlight : call.light = .battery
  · rw [step, hlight] at hstep
    cases hstep
    exact h state hstate
  · have hshown := (shown_of_step hlight hstep).1
    rwa [prioritized, Option.mem_def.mp hstate] at hshown

theorem wanted_eq_iff_of_step {lights next : LightsModule} {last : Call}
    {latest : Light → LightState} (hstep : step lights last = some next)
    (htop : top next.g_lights = top latest) (hrange : ∀ state ∈ top latest, state.InRange)
    (hlatest : latest last.light = last.state) :
    wanted latest = some next.leds.shown ↔ Decides latest last := by
  obtain ⟨light, state⟩ := last
  cases light with
  | battery =>
      cases hstep
      have hshown : (setLightBattery lights state).leds.shown = shownBattery state :=
        (shown_batteryLeds state lights.leds).trans (shownBattery_eq state).symm
      rw [hshown, wanted, Decides]
      cases hcase : top latest with
      | none => exact iff_of_true (by rw [show latest .battery = state from hlatest]) trivial
      | some shown => exact shownLocked_eq_battery_iff (hrange shown hcase)
  | attention | notification =>
      obtain ⟨hstate, hshown⟩ := shown_of_step (by exact nofun) hstep
      rw [prioritized, htop] at hstate hshown
      rw [← hshown, wanted, Decides]
      cases hcase : top latest with
      | none =>
          rw [hcase] at hstate
          exact eq_comm.trans (shownLocked_eq_battery_iff hstate)
      | some shown => exact iff_of_true rfl trivial

/-- After every sequence of calls the LEDs show the latest state of the lit light of the
highest priority if and only if all states shown can be, and the last call decides. -/
theorem led_output_iff (leds : Leds) (before : List Call) (last : Call) :
    ShowsLatest leds (before ++ [last]) ↔
      Along step InRange (initial leds) (before ++ [last]) ∧
        Decides (latest (before ++ [last])) last := by
  rw [← exec_isSome_iff step_isSome, ShowsLatest]
  cases hrun : exec step (initial leds) (before ++ [last]) with
  | none => simp
  | some final =>
      have htop := top_of_exec hrun
      have hrange := inRange_top hrun
      rw [htop] at hrange
      rw [exec_append] at hrun
      obtain ⟨middle, -, hlast⟩ := Option.bind_eq_some_iff.mp hrun
      have hstep : step middle last = some final := by simpa using hlast
      have hlatest : latest (before ++ [last]) last.light = last.state := by
        rw [latest, lastWrite_append]
        simp [lastWrite]
      simpa using wanted_eq_iff_of_step hstep htop hrange hlatest

/-- A lit notification, and then the battery is charging at 50 of 100. -/
def batteryAfterNotification : List Call :=
  [⟨.notification, ⟨0xff0000ff, 0, 0, 0⟩⟩, ⟨.battery, ⟨0x32ffff00, 0, 0, 0⟩⟩]

/-- The battery takes the place of the notification. -/
theorem battery_replaces_notification :
    ¬ ∀ (leds : Leds) (calls : List Call), calls ≠ [] → ShowsLatest leds calls := by
  intro hall
  obtain ⟨final, hrun, hshown⟩ := hall dark batteryAfterNotification nofun
  have hfinal : (exec step (initial dark) batteryAfterNotification).map
      (fun final => decide (wanted (latest batteryAfterNotification) = some final.leds.shown)) =
        some false := by decide
  rw [hrun] at hfinal
  simp [hshown] at hfinal

end Msm8916.Lights
