import Msm8916.Camera.Parameters

/-!
The index of a camera in the array of stored parameters of `camera/CameraWrapper.cpp`. The
index is the number in the name the camera is opened with. A call is one step; the module is
built for 32 bits.
-/

namespace Msm8916.Camera.Device

open CString Transition

/-- `wrapper_camera_device_t`, without the vendor's device. -/
structure WrapperCameraDevice where
  id : Int
deriving DecidableEq

/-- The array of stored strings, and the devices that are open. -/
structure Wrapper where
  fixed_set_params : Option (List (Option String))
  devices : List WrapperCameraDevice

/-- The result of `camera_device_open`, its device and the array it leaves. -/
structure Opened where
  rv : Int
  device : Option WrapperCameraDevice
  fixed_set_params : Option (List (Option String))

/-- `atoi` where a `long` has the range of an `int`. -/
def cameraid (name : List Char) : Int := max (-2 ^ 31) (min (2 ^ 31 - 1) (strtol 10 name))

/-- The pointers there is room for: the size in bytes has 32 bits. -/
def room (num_cameras : Int) : Nat := (4 * num_cameras % 2 ^ 32).toNat / 4

/-- `camera_device_open`. -/
def cameraDeviceOpen (num_cameras : Int) (fixed_set_params : Option (List (Option String)))
    (name : Option (List Char)) (env : OpenEnv) : Opened :=
  match name with
  | none => ⟨0, none, fixed_set_params⟩
  | some name =>
      if !env.check_vendor_module then ⟨-einval, none, fixed_set_params⟩
      else if !env.fixed_set_params then ⟨-enomem, none, none⟩
      else
        let fixed_set_params := some (List.replicate (room num_cameras) none)
        if num_cameras < cameraid name then ⟨-einval, none, fixed_set_params⟩
        else if !env.camera_device then ⟨-enomem, none, fixed_set_params⟩
        else if env.rv ≠ 0 then ⟨env.rv, none, fixed_set_params⟩
        else if !env.camera_ops then ⟨-enomem, none, fixed_set_params⟩
        else ⟨0, some ⟨cameraid name⟩, fixed_set_params⟩

/-- The array holds the index. -/
def Inside (fixed_set_params : Option (List (Option String))) (id : Int) : Prop :=
  ∃ params, fixed_set_params = some params ∧ 0 ≤ id ∧ id < params.length

/-- `camera_fixup_setparams`, which has no value where the array does not hold the index. -/
def cameraFixupSetparams (fixed_set_params : Option (List (Option String))) (id : Int)
    (settings : String) (strdup : Bool) : Option (List (Option String)) :=
  fixed_set_params.bind fun params =>
    if 0 ≤ id ∧ id < params.length then
      some (params.set id.toNat
        (if strdup then some (fixedText cameraParameters settings) else none))
    else none

/-- The calls on the open devices, by their place in the list. -/
inductive Label where
  | deviceOpen (name : Option (List Char)) (env : OpenEnv)
  | setParameters (place : Nat) (settings : String) (strdup : Bool)
  | deviceClose (place : Nat)

/-- A call. `camera_device_close` looks at the array once for each camera. -/
def step (num_cameras : Int) (wrapper : Wrapper) : Label → Option Wrapper
  | .deviceOpen name env =>
      let opened := cameraDeviceOpen num_cameras wrapper.fixed_set_params name env
      some ⟨opened.fixed_set_params, wrapper.devices ++ opened.device.toList⟩
  | .setParameters place settings strdup =>
      wrapper.devices[place]?.bind fun device =>
        (cameraFixupSetparams wrapper.fixed_set_params device.id settings strdup).map
          fun params => { wrapper with fixed_set_params := some params }
  | .deviceClose place =>
      if place < wrapper.devices.length ∧
          (num_cameras ≤ 0 ∨ wrapper.fixed_set_params.isSome) then
        some { wrapper with devices := wrapper.devices.eraseIdx place }
      else none

/-- The wrapper when the module is loaded. -/
def loaded : Wrapper where
  fixed_set_params := none
  devices := []

/-- The id that an open stores is the number of a camera and inside the array, and so is the
index at every access. -/
def InRange (num_cameras : Int) (wrapper : Wrapper) : Label → Prop
  | .deviceOpen name env =>
      ∀ device,
        (cameraDeviceOpen num_cameras wrapper.fixed_set_params name env).device = some device →
        0 ≤ device.id ∧ device.id < num_cameras ∧
          Inside (cameraDeviceOpen num_cameras wrapper.fixed_set_params name env).fixed_set_params
            device.id
  | .setParameters place _ _ =>
      ∀ device, wrapper.devices[place]? = some device →
        Inside wrapper.fixed_set_params device.id
  | .deviceClose _ => True

/-- Whatever an open needs outside the wrapper is there, and the vendor's open accepts. -/
def Accepts (env : OpenEnv) : Prop :=
  env.check_vendor_module = true ∧ env.fixed_set_params = true ∧ env.camera_device = true ∧
    env.rv = 0 ∧ env.camera_ops = true

/-- The numbers that pass the check of `camera_device_open` and are none of a camera: the
negative ones, the number of cameras itself, and, where the size of the array wraps, those it
has no room for. -/
def Slips (num_cameras id : Int) : Prop :=
  id ≤ num_cameras ∧
    (id < 0 ∨ id = num_cameras ∨ 2 ^ 30 ≤ num_cameras ∧ num_cameras % 2 ^ 30 ≤ id)

/-- No open that is accepted has such a number in its name, and no parameters are set after an
open that found no memory for the array. -/
def Numbered (num_cameras : Int) (wrapper : Wrapper) : Label → Prop
  | .deviceOpen name env =>
      ∀ text, name = some text → Accepts env → ¬ Slips num_cameras (cameraid text)
  | .setParameters place _ _ =>
      place < wrapper.devices.length → wrapper.fixed_set_params.isSome
  | .deviceClose _ => True

/-! ## The operations -/

section Operations

variable {num_cameras : Int}

theorem room_eq (num_cameras : Int) : (room num_cameras : Int) = num_cameras % 2 ^ 30 := by
  unfold room
  omega

/-- For a number that passes the check, the room is enough exactly if it does not slip. -/
theorem slips_iff {id : Int} (hid : id ≤ num_cameras) :
    ¬ Slips num_cameras id ↔ 0 ≤ id ∧ id < num_cameras ∧ id < room num_cameras := by
  rw [room_eq, Slips]
  omega

/-- What an open does: there is no device and the array is the old one, missing or new; or
the device has the number of the name, which passed the check, and the array is new. -/
theorem cameraDeviceOpen_cases (num_cameras : Int) (params : Option (List (Option String)))
    (name : Option (List Char)) (env : OpenEnv) :
    (∃ rv after, cameraDeviceOpen num_cameras params name env = ⟨rv, none, after⟩ ∧
        (after = params ∨ after = none ∨
          after = some (List.replicate (room num_cameras) none))) ∨
      ∃ text, name = some text ∧ Accepts env ∧ cameraid text ≤ num_cameras ∧
        cameraDeviceOpen num_cameras params name env =
          ⟨0, some ⟨cameraid text⟩, some (List.replicate (room num_cameras) none)⟩ := by
  cases name with
  | none => exact .inl ⟨_, _, rfl, .inl rfl⟩
  | some text =>
      rw [cameraDeviceOpen]
      cases hvendor : env.check_vendor_module with
      | false => exact .inl ⟨_, _, rfl, .inl rfl⟩
      | true =>
          cases harray : env.fixed_set_params with
          | false => exact .inl ⟨_, _, rfl, .inr (.inl rfl)⟩
          | true =>
              simp only [Bool.not_true, Bool.false_eq_true, if_false]
              split
              · exact .inl ⟨_, _, rfl, .inr (.inr rfl)⟩
              · rename_i hid
                split
                · exact .inl ⟨_, _, rfl, .inr (.inr rfl)⟩
                · rename_i hmemory
                  split
                  · exact .inl ⟨_, _, rfl, .inr (.inr rfl)⟩
                  · rename_i hrv
                    split
                    · exact .inl ⟨_, _, rfl, .inr (.inr rfl)⟩
                    · rename_i hops
                      have haccepts : Accepts env :=
                        ⟨hvendor, harray, by simpa using hmemory, by simpa using hrv,
                          by simpa using hops⟩
                      exact .inr ⟨text, rfl, haccepts, not_lt.mp hid, rfl⟩

theorem cameraDeviceOpen_device {params : Option (List (Option String))}
    {name : Option (List Char)} {env : OpenEnv} {device : WrapperCameraDevice}
    (h : (cameraDeviceOpen num_cameras params name env).device = some device) :
    ∃ text, name = some text ∧ Accepts env ∧ cameraid text ≤ num_cameras ∧
      cameraDeviceOpen num_cameras params name env =
        ⟨0, some ⟨cameraid text⟩, some (List.replicate (room num_cameras) none)⟩ := by
  rcases cameraDeviceOpen_cases num_cameras params name env with ⟨rv, after, hopen, _⟩ | hmade
  · rw [hopen] at h
    cases h
  · exact hmade

/-- An open that is accepted makes a device when its number passes the check. -/
theorem cameraDeviceOpen_accepted (params : Option (List (Option String))) {text : List Char}
    {env : OpenEnv} (haccepts : Accepts env) (hid : cameraid text ≤ num_cameras) :
    (cameraDeviceOpen num_cameras params (some text) env).device = some ⟨cameraid text⟩ := by
  obtain ⟨hvendor, harray, hmemory, hrv, hops⟩ := haccepts
  rw [cameraDeviceOpen, hvendor, harray, hmemory, hrv, hops]
  simp [not_lt.mpr hid]

/-- After an open the array is the old one or has room for the cameras. -/
theorem cameraDeviceOpen_params {params : Option (List (Option String))}
    {name : Option (List Char)} {env : OpenEnv} {after : List (Option String)}
    (h : (cameraDeviceOpen num_cameras params name env).fixed_set_params = some after) :
    params = some after ∨ after.length = room num_cameras := by
  rcases cameraDeviceOpen_cases num_cameras params name env with
    ⟨rv, array, hopen, hold | hnone | hnew⟩ | ⟨text, _, _, _, hopen⟩
  · rw [hopen, hold] at h
    exact .inl h
  · rw [hopen, hnone] at h
    cases h
  · rw [hopen, hnew] at h
    obtain rfl := Option.some.inj h
    exact .inr List.length_replicate
  · rw [hopen] at h
    obtain rfl := Option.some.inj h
    exact .inr List.length_replicate

/-- Where the parameters are stored, the index is inside and the array keeps its length. -/
theorem cameraFixupSetparams_spec {params next : List (Option String)} {id : Int}
    {settings : String} {strdup : Bool}
    (h : cameraFixupSetparams (some params) id settings strdup = some next) :
    (0 ≤ id ∧ id < params.length) ∧ next.length = params.length := by
  rw [cameraFixupSetparams, Option.bind_some] at h
  split at h
  · rename_i hid
    obtain rfl := Option.some.inj h
    exact ⟨hid, List.length_set⟩
  · cases h

end Operations

/-! ## Runs -/

/-- The open devices have places in the array, which has room for that many. -/
structure Placed (num_cameras : Int) (wrapper : Wrapper) : Prop where
  ids : ∀ device ∈ wrapper.devices, 0 ≤ device.id ∧ device.id < room num_cameras
  length : ∀ params, wrapper.fixed_set_params = some params → params.length = room num_cameras

theorem loaded_placed (num_cameras : Int) : Placed num_cameras loaded := ⟨nofun, nofun⟩

theorem Placed.inside {num_cameras : Int} {wrapper : Wrapper} (h : Placed num_cameras wrapper)
    {device : WrapperCameraDevice} (hdevice : device ∈ wrapper.devices) :
    Inside wrapper.fixed_set_params device.id ↔ wrapper.fixed_set_params.isSome := by
  constructor
  · rintro ⟨params, hparams, -⟩
    rw [hparams]
    rfl
  · intro hsome
    obtain ⟨params, hparams⟩ := Option.isSome_iff_exists.mp hsome
    refine ⟨params, hparams, ?_⟩
    rw [h.length params hparams]
    exact h.ids device hdevice

/-- The device that a good open makes has a place. -/
theorem Placed.step {num_cameras : Int} {wrapper next : Wrapper} {label : Label}
    (h : Placed num_cameras wrapper) (hrange : InRange num_cameras wrapper label)
    (hstep : Device.step num_cameras wrapper label = some next) : Placed num_cameras next := by
  cases label with
  | deviceOpen name env =>
      obtain rfl := Option.some.inj hstep
      have hlength : ∀ params,
          (cameraDeviceOpen num_cameras wrapper.fixed_set_params name env).fixed_set_params =
            some params → params.length = room num_cameras := by
        intro params hparams
        rcases cameraDeviceOpen_params hparams with hold | hnew
        · exact h.length params hold
        · exact hnew
      refine ⟨fun device hdevice => ?_, hlength⟩
      rcases List.mem_append.mp hdevice with hopen | hmade
      · exact h.ids device hopen
      · obtain ⟨_, _, params, hparams, hnonneg, hlt⟩ := hrange device (Option.mem_toList.mp hmade)
        exact ⟨hnonneg, hlength params hparams ▸ hlt⟩
  | setParameters place settings strdup =>
      obtain ⟨device, _, hmap⟩ := Option.bind_eq_some_iff.mp hstep
      obtain ⟨params, hfixup, rfl⟩ := Option.map_eq_some_iff.mp hmap
      refine ⟨h.ids, fun params' hparams' => ?_⟩
      obtain rfl := Option.some.inj hparams'
      obtain ⟨old, hold, _⟩ := Option.bind_eq_some_iff.mp hfixup
      rw [hold] at hfixup
      rw [(cameraFixupSetparams_spec hfixup).2]
      exact h.length old hold
  | deviceClose place =>
      simp only [Device.step] at hstep
      split at hstep
      · obtain rfl := Option.some.inj hstep
        exact ⟨fun device hdevice => h.ids device (List.mem_of_mem_eraseIdx hdevice), h.length⟩
      · cases hstep

theorem inRange_open_iff (num_cameras : Int) (wrapper : Wrapper) (name : Option (List Char))
    (env : OpenEnv) :
    InRange num_cameras wrapper (.deviceOpen name env) ↔
      Numbered num_cameras wrapper (.deviceOpen name env) := by
  constructor
  · rintro hrange text rfl haccepts hslips
    have hid := hslips.1
    have hdevice := cameraDeviceOpen_accepted wrapper.fixed_set_params haccepts hid
    obtain ⟨hnonneg, hlt, params, hparams, _, hinside⟩ := hrange _ hdevice
    obtain ⟨_, _, _, _, hopened⟩ := cameraDeviceOpen_device hdevice
    rw [hopened] at hparams
    obtain rfl := Option.some.inj hparams
    rw [List.length_replicate] at hinside
    exact (slips_iff hid).mpr ⟨hnonneg, hlt, hinside⟩ hslips
  · intro hnumbered device hdevice
    obtain ⟨text, rfl, haccepts, hid, hopened⟩ := cameraDeviceOpen_device hdevice
    obtain ⟨hnonneg, hlt, hroom⟩ := (slips_iff hid).mp (hnumbered text rfl haccepts)
    rw [hopened] at hdevice ⊢
    obtain rfl := Option.some.inj hdevice
    refine ⟨hnonneg, hlt, _, rfl, hnonneg, ?_⟩
    rw [List.length_replicate]
    exact hroom

/-- In every sequence of calls, whatever the number of cameras: all ids and all indices are in
range if and only if every number in an accepted name is one of a camera and no parameters
are set without an array. -/
theorem camera_ids_in_range_iff (num_cameras : Int) (labels : List Label) :
    Along (step num_cameras) (InRange num_cameras) loaded labels ↔
      Along (step num_cameras) (Numbered num_cameras) loaded labels := by
  apply along_congr (I := Placed num_cameras)
  · intro wrapper label next hplaced hrange hstep
    exact hplaced.step hrange hstep
  · intro wrapper label hplaced
    cases label with
    | deviceOpen name env => exact inRange_open_iff num_cameras wrapper name env
    | setParameters place settings strdup =>
        constructor
        · intro hrange hplace
          have hdevice := List.getElem?_eq_getElem hplace
          exact (hplaced.inside (List.getElem_mem hplace)).mp (hrange _ hdevice)
        · intro hnumbered device hdevice
          obtain ⟨hplace, _⟩ := List.getElem?_eq_some_iff.mp hdevice
          exact (hplaced.inside (List.mem_of_getElem? hdevice)).mpr (hnumbered hplace)
    | deviceClose place => exact Iff.rfl
  · exact loaded_placed num_cameras

/-- With two cameras, the vendor's open accepts the name of a third. -/
theorem third_of_two_cameras :
    ¬ ∀ (num_cameras : Int) (labels : List Label),
      Along (step num_cameras) (InRange num_cameras) loaded labels := by
  intro hall
  have hopen := (hall 2 [.deviceOpen (some ['2']) ⟨true, true, true, 0, true⟩]).1
  have hdevice : (cameraDeviceOpen 2 none (some ['2']) ⟨true, true, true, 0, true⟩).device =
      some ⟨2⟩ := by
    decide
  obtain ⟨_, hlt, _⟩ := hopen ⟨2⟩ hdevice
  exact absurd hlt (by decide)

end Msm8916.Camera.Device
