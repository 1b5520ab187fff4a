import Msm8916.Doze.Exclusive

/-!
The pulses of a run and the setting they were launched under.
-/

namespace Msm8916.Doze

open Transition

namespace Service

/-- The calls of `launchDozePulse`, each with the value of `mDozeEnabled`. -/
def pulses (s : Service) : List Bool :=
  s.effects.filterMap fun
    | .launchDozePulse enabled => some enabled
    | _ => none

theorem mem_pulses {s : Service} {enabled : Bool} :
    enabled ∈ s.pulses ↔ .launchDozePulse enabled ∈ s.effects := by
  rw [pulses, List.mem_filterMap]
  constructor
  · rintro ⟨effect, hmem, heq⟩
    cases effect with
    | launchDozePulse launched =>
        obtain rfl := Option.some.inj heq
        exact hmem
    | acquireWakeLock => exact nomatch heq
    | vibrate => exact nomatch heq
    | sendDozeIntent => exact nomatch heq
  · exact fun hmem => ⟨_, hmem, rfl⟩

/-! ## What each handler launches -/

section Handlers

variable {s : Service}

@[simp]
theorem launchWakeLock_pulses (s : Service) : s.launchWakeLock.pulses = s.pulses := by
  simp [launchWakeLock, emit, pulses]

theorem launchDozePulse_pulses (s : Service) (env : Env) :
    (s.launchDozePulse env).pulses = s.pulses ++ [s.mDozeEnabled] := by
  obtain ⟨timestamp, log, hlog, heq⟩ := s.launchDozePulse_eq env
  have hquiet : log.filterMap (fun
      | .launchDozePulse enabled => some enabled
      | _ => none) = ([] : List Bool) := by
    apply List.filterMap_eq_nil_iff.mpr
    intro effect hmem
    cases effect with
    | launchDozePulse launched => exact absurd hmem (hlog launched)
    | acquireWakeLock => rfl
    | vibrate => rfl
    | sendDozeIntent => rfl
  rw [heq, pulses, pulses, List.filterMap_append, List.filterMap_cons, hquiet]

@[simp]
theorem setOrientationSensor_pulses (s : Service) (enabled reset : Bool) :
    (s.setOrientationSensor enabled reset).pulses = s.pulses := by
  cases reset <;> cases enabled <;> simp [setOrientationSensor, launchWakeLock, emit, pulses]

@[simp]
theorem setPickUpSensor_pulses (s : Service) (enabled reset : Bool) :
    (s.setPickUpSensor enabled reset).pulses = s.pulses := by
  cases reset <;> cases enabled <;> rfl

@[simp]
theorem setProximitySensor_pulses (s : Service) (enabled reset : Bool) :
    (s.setProximitySensor enabled reset).pulses = s.pulses := by
  cases reset <;> cases enabled <;> rfl

theorem handleProximity_pulses (s : Service) (timestamp : Int64) :
    (s.handleProximity timestamp).pulses = s.pulses := by
  cases hnear : s.mProximityNear with
  | false =>
      obtain ⟨marked, heq, -, heffects⟩ := s.handleProximity_released hnear timestamp
      have hmarked : marked.pulses = s.pulses := by
        rw [pulses, pulses, heffects]
      rcases heq with heq | heq | heq
      · rw [heq, setOrientationSensor_pulses, hmarked]
      · rw [heq, setPickUpSensor_pulses, hmarked]
      · rw [heq, hmarked]
  | true =>
      rw [handleProximity_stowed hnear, setPickUpSensor_pulses, setOrientationSensor_pulses]
      rfl

theorem onProximityInit_pulses (s : Service) (isNear : Bool) (timestamp : Int64) :
    (s.onProximityInit isNear timestamp).pulses = s.pulses := by
  unfold onProximityInit
  dsimp only
  split
  · exact setPickUpSensor_pulses _ true false
  · rfl

theorem onProximityChanged_pulses (s : Service) (isNear : Bool) (timestamp : Int64) :
    (s.onProximityChanged isNear timestamp).pulses = s.pulses := by
  have hinit {told : Service} (htold : told.pulses = s.pulses) :
      (if !told.mProximitySensor.mReady then
        let next := told.onProximityInit told.mProximitySensor.mState timestamp
        { next with mProximitySensor := { next.mProximitySensor with mReady := true } }
        else told).pulses = s.pulses := by
    split
    · exact (onProximityInit_pulses told _ timestamp).trans htold
    · exact htold
  apply hinit
  split
  · dsimp only
    split
    · exact handleProximity_pulses _ timestamp
    · rfl
  · rfl

theorem onDisplayOff_pulses (s : Service) : s.onDisplayOff.pulses = s.pulses := by
  unfold onDisplayOff
  dsimp only
  split
  · rw [setProximitySensor_pulses, setPickUpSensor_pulses, setOrientationSensor_pulses]
    rfl
  · rfl

theorem onSharedPreferenceChanged_pulses (s : Service) (key : String) (value : Bool) :
    (s.onSharedPreferenceChanged key value).pulses = s.pulses := by
  unfold onSharedPreferenceChanged
  split
  · rfl
  · split
    · rfl
    · split <;> rfl

/-- The setting as `getDozeEnabled` reads it. -/
def dozeSetting (s : Service) : Bool := s.dozeEnabled.getD 1 ≠ 0

/-- One of the conditions under which `analyseDoze` launches a pulse. -/
def Launches (s : Service) : Prop :=
  s.mHandwaveDoze = true ∧ s.mOrientationSensor.isFaceDown = false ∨
    s.mPickUpDoze = true ∧
      (s.mPickUpState = true ∧ s.mProximityNear = false ∨
        s.mPickUpState = false ∧ s.mOrientationSensor.isFaceDown = true) ∨
    s.mPocketDoze = true ∧ s.mOrientationSensor.isVertical = true

instance (s : Service) : Decidable s.Launches := by unfold Launches; infer_instance

theorem analyseDoze_pulses (s : Service) (env : Env) :
    (s.analyseDoze env).pulses = s.pulses ++ if s.Launches then [s.dozeSetting] else [] := by
  have hlaunched : (s.getDozeEnabled.launchDozePulse env).pulses = s.pulses ++ [s.dozeSetting] :=
    launchDozePulse_pulses s.getDozeEnabled env
  have hrestored (launched : Service) :
      (if !launched.mProximityNear && launched.isPickUpEnabled then
        launched.setPickUpSensor true false else launched).resetValues.pulses =
          launched.pulses := by
    split
    · exact setPickUpSensor_pulses launched true false
    · rfl
  refine (hrestored _).trans ?_
  split
  · rename_i hhandwave
    rw [Bool.and_eq_true, Bool.not_eq_true'] at hhandwave
    rw [hlaunched, if_pos (.inl hhandwave)]
  · rename_i hhandwave
    rw [Bool.and_eq_true, Bool.not_eq_true'] at hhandwave
    split
    · rename_i hpickUp
      simp only [Bool.and_eq_true, Bool.or_eq_true, Bool.not_eq_true'] at hpickUp
      rw [hlaunched, if_pos (.inr (.inl hpickUp))]
    · rename_i hpickUp
      simp only [Bool.and_eq_true, Bool.or_eq_true, Bool.not_eq_true'] at hpickUp
      split
      · rename_i hpocket
        rw [Bool.and_eq_true] at hpocket
        rw [hlaunched, if_pos (.inr (.inr hpocket))]
      · rename_i hpocket
        rw [Bool.and_eq_true] at hpocket
        have hnone : ¬ s.Launches := by
          rintro (hlaunch | hlaunch | hlaunch)
          · exact hhandwave hlaunch
          · exact hpickUp hlaunch
          · exact hpocket hlaunch
        rw [if_neg hnone, List.append_nil]
        rfl

/-- The pick-up sensor's handler reads the setting before it asks for a pulse. -/
theorem handlePickUp_pulses (s : Service) (env : Env) :
    ∃ launched, false ∉ launched ∧ (s.handlePickUp env).pulses = s.pulses ++ launched := by
  unfold handlePickUp
  dsimp only
  split
  · rename_i hpickedUp
    rw [Bool.and_eq_true, isPickUpEnabled, Bool.and_eq_true] at hpickedUp
    have hsetting : s.dozeSetting = true := hpickedUp.2.2
    let marked := { s.getDozeEnabled with mPickUpDoze := true }.launchWakeLock
    have hmarked : marked.pulses = s.pulses := launchWakeLock_pulses _
    have hread : marked.dozeSetting = true := hsetting
    refine ⟨_, ?_, (analyseDoze_pulses marked env).trans (by rw [hmarked])⟩
    rw [hread]
    split
    · simp
    · simp
  · exact ⟨[], by simp, (List.append_nil _).symm⟩

theorem setPickUpState_pulses (s : Service) (state : PickUp) (env : Env) :
    ∃ launched, false ∉ launched ∧ (s.setPickUpState state env).pulses = s.pulses ++ launched := by
  unfold setPickUpState
  dsimp only
  split
  · exact handlePickUp_pulses _ env
  · exact ⟨[], by simp, (List.append_nil _).symm⟩

theorem onPickUpChanged_pulses (s : Service) (aboveSafezone aboveThreshold : Bool)
    (env : Env) : ∃ launched, false ∉ launched ∧
      (s.onPickUpChanged aboveSafezone aboveThreshold env).pulses = s.pulses ++ launched := by
  have hinit {measured : Service} {launched : List Bool}
      (hmeasured : measured.pulses = s.pulses ++ launched) :
      (if !measured.mPickUpSensor.mReady then
        { measured with mPickUpSensor := { measured.mPickUpSensor with mReady := true }
          }.onPickUpInit
        else measured).pulses = s.pulses ++ launched := by
    split
    · exact hmeasured
    · exact hmeasured
  have hmeasured : ∃ launched, false ∉ launched ∧
      (if aboveSafezone then
        if aboveThreshold && s.mPickUpSensor.mState ≠ .true then s.setPickUpState .true env else s
      else if s.mPickUpSensor.mState ≠ .false then s.setPickUpState .false env
      else s).pulses = s.pulses ++ launched := by
    split
    · split
      · exact setPickUpState_pulses s .true env
      · exact ⟨[], by simp, (List.append_nil _).symm⟩
    · split
      · exact setPickUpState_pulses s .false env
      · exact ⟨[], by simp, (List.append_nil _).symm⟩
  obtain ⟨launched, henabled, heq⟩ := hmeasured
  exact ⟨launched, henabled, hinit heq⟩

end Handlers

/-! ## The orientation -/

/-- With nothing near, this orientation launches a pulse. -/
def PulsePending (s : Service) (orientation : Orientation) : Prop :=
  s.mHandwaveDoze = true ∧ orientation ≠ .faceDown ∨
    s.mPickUpDoze = true ∧ (s.mPickUpState = true ∨ orientation = .faceDown) ∨
    s.mPocketDoze = true ∧ orientation = .vertical

/-- The event completes an orientation. -/
def Completes (s : Service) (type : SensorType) : Prop :=
  (s.mOrientationSensor.measure type).mGravity = true ∧
    (s.mOrientationSensor.measure type).mMagnetic = true

theorem launches_iff {s : Service} (hready : s.mOrientationSensor.mReady = true)
    (hfar : s.mProximityNear = false) :
    s.Launches ↔ s.PulsePending s.mOrientationSensor.mState := by
  have hfaceDown : s.mOrientationSensor.isFaceDown = true ↔
      s.mOrientationSensor.mState = .faceDown := by
    simp [OrientationSensor.isFaceDown, hready]
  have hvertical : s.mOrientationSensor.isVertical = true ↔
      s.mOrientationSensor.mState = .vertical := by
    simp [OrientationSensor.isVertical, hready]
  rw [Launches, PulsePending, ← Bool.not_eq_true, hfaceDown, hvertical, and_iff_left hfar]
  cases s.mPickUpState <;> simp

/-- A pulse that is pending is launched whatever the setting. -/
theorem onOrientationEvent_enabled_iff (s : Service) (env : Env)
    (hready : s.mOrientationSensor.mReady = true) :
    false ∉ (s.onOrientationEvent env).pulses ↔ false ∉ s.pulses ∧
      (s.mProximityNear = false → s.PulsePending s.mOrientationSensor.mState →
        s.dozeSetting = true) := by
  let off := s.setOrientationSensor false false
  have hoff : off.pulses = s.pulses := setOrientationSensor_pulses s false false
  have hoffReady : off.mOrientationSensor.mReady = true :=
    (OrientationSensor.disable_mReady s.mOrientationSensor).trans hready
  have hoffState : off.mOrientationSensor.mState = s.mOrientationSensor.mState :=
    OrientationSensor.disable_mState s.mOrientationSensor
  unfold onOrientationEvent handleOrientation
  split
  · rename_i hnotNear
    have hfar : s.mProximityNear = false := by
      rw [← Bool.not_eq_true']
      exact hnotNear
    have hlaunches : off.Launches ↔ s.PulsePending s.mOrientationSensor.mState := by
      rw [launches_iff hoffReady hfar, hoffState]
      rfl
    rw [analyseDoze_pulses, List.mem_append, not_or, hoff, forall_prop_of_true hfar]
    apply and_congr_right'
    split
    · rename_i hlaunch
      rw [forall_prop_of_true (hlaunches.mp hlaunch), List.mem_singleton]
      have hsetting : off.dozeSetting = s.dozeSetting := rfl
      rw [hsetting]
      cases s.dozeSetting <;> simp
    · rename_i hnone
      exact iff_of_true List.not_mem_nil fun hpending => absurd (hlaunches.mpr hpending) hnone
  · rename_i hnear
    rw [hoff]
    exact (and_iff_left fun hfar => absurd (congrArg not hfar) hnear).symm

theorem onOrientationChanged_enabled_iff (s : Service) (type : SensorType)
    (orientation : Option Orientation) (env : Env) :
    false ∉ (s.onOrientationChanged type orientation env).pulses ↔ false ∉ s.pulses ∧
      ∀ state, orientation = some state → s.Completes type → s.mProximityNear = false →
        s.PulsePending state → s.dozeSetting = true := by
  unfold onOrientationChanged
  dsimp only
  split
  · rename_i hcomplete
    rw [Bool.and_eq_true] at hcomplete
    cases orientation with
    | none => exact (and_iff_left nofun).symm
    | some state =>
        rw [onOrientationEvent_enabled_iff _ env rfl]
        apply and_congr Iff.rfl
        constructor
        · intro h state heq _
          obtain rfl := Option.some.inj heq
          exact h
        · exact fun h => h state rfl hcomplete
  · rename_i hincomplete
    rw [Bool.and_eq_true] at hincomplete
    exact (and_iff_left fun _ _ hcomplete => absurd hcomplete hincomplete).symm

end Service

/-! ## Runs -/

/-- An event that completes an orientation finds no pulse pending while doze is disabled. -/
def PulseAllowed (s : Service) : Event → Prop
  | .orientation type (some orientation) _ => s.dozeEnabled.getD 1 = 0 → s.Completes type →
      s.mProximityNear = false → ¬ s.PulsePending orientation
  | _ => True

theorem handle_enabled_iff (s : Service) (event : Event) :
    false ∉ (handle s event).pulses ↔ false ∉ s.pulses ∧ PulseAllowed s event := by
  cases event with
  | displayOn =>
      have hquiet : s.onDisplayOn.pulses = s.pulses := by simp [Service.onDisplayOn]
      rw [handle, hquiet]
      exact (and_iff_left trivial).symm
  | displayOff =>
      rw [handle, Service.onDisplayOff_pulses]
      exact (and_iff_left trivial).symm
  | preference key value =>
      rw [handle, Service.onSharedPreferenceChanged_pulses]
      exact (and_iff_left trivial).symm
  | setting dozeEnabled => exact (and_iff_left trivial).symm
  | proximity isNear timestamp =>
      rw [handle, Service.onProximityChanged_pulses]
      exact (and_iff_left trivial).symm
  | orientation type orientation env =>
      rw [handle, Service.onOrientationChanged_enabled_iff]
      apply and_congr_right'
      cases orientation with
      | none => exact iff_of_true nofun trivial
      | some orientation =>
          constructor
          · intro h hdisabled hcomplete hfar hpending
            exact of_decide_eq_true (h orientation rfl hcomplete hfar hpending) hdisabled
          · intro h state heq hcomplete hfar hpending
            obtain rfl := Option.some.inj heq
            exact decide_eq_true fun hdisabled => h hdisabled hcomplete hfar hpending
  | pickUp aboveSafezone aboveThreshold env =>
      obtain ⟨launched, henabled, heq⟩ :=
        s.onPickUpChanged_pulses aboveSafezone aboveThreshold env
      rw [handle, heq, List.mem_append, not_or]
      exact and_congr_right' (iff_of_true henabled trivial)

/-- Over any sequence of events, `launchDozePulse` is called with doze enabled exactly when no
event completes an orientation with a pulse pending and doze disabled. -/
theorem doze_pulse_enabled_iff (device : Device) (isInteractive : Bool) (events : List Event) :
    Effect.launchDozePulse false ∉ (events.foldl handle (start device isInteractive)).effects ↔
      Along (fun s event => some (handle s event)) PulseAllowed (start device isInteractive)
        events := by
  have hstarted : false ∉ (start device isInteractive).pulses := by
    cases isInteractive with
    | true => exact List.not_mem_nil
    | false =>
        have hquiet : (onCreate device).onDisplayOff.pulses = [] :=
          Service.onDisplayOff_pulses (onCreate device)
        rw [show start device false = (onCreate device).onDisplayOff from rfl, hquiet]
        exact List.not_mem_nil
  have hgood (s : Service) (event : Event) (next : Service) (_ : True)
      (hnext : some (handle s event) = some next) :
      false ∉ next.pulses ↔ false ∉ s.pulses ∧ PulseAllowed s event := by
    obtain rfl := Option.some.inj hnext
    exact handle_enabled_iff s event
  rw [← Service.mem_pulses]
  exact (along_iff_of_step (I := fun _ => True) (fun _ _ _ _ _ => trivial) hgood trivial
    (exec_total handle _ events)).trans (and_iff_right hstarted)

/-- Something passes over the proximity sensor, doze is disabled, and the orientation that was
asked for comes after. -/
def waveDevice : Device := { pickUpDevice with handwave := true, pickUp := false }

def disabledAfterWave : List Event :=
  [.proximity true 3, .proximity false 5, .setting (some 0),
    .orientation .accelerometer none ⟨9, 9, true, false⟩,
    .orientation .magneticField (some .faceUp) ⟨9, 9, true, false⟩]

theorem pulse_while_disabled :
    (exec deliver (started waveDevice false) disabledAfterWave).isSome ∧
      Effect.launchDozePulse false ∈
        (disabledAfterWave.foldl handle (start waveDevice false)).effects := by
  decide

end Msm8916.Doze
