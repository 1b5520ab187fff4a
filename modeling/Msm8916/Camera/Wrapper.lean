import Msm8916.Lib.Transition
import Mathlib.Data.List.FinRange
import Mathlib.Logic.Function.Basic

/-!
The stored parameter strings of `camera/CameraWrapper.cpp`. A string is named by the number
of the `strdup` that made it. `open` and `close` run under `gCameraWrapperLock`; what they
need of the vendor's module and of `malloc` is a parameter of the call.
-/

namespace Msm8916.Camera

open Transition

def einval : Int := 22
def enomem : Int := 12

/-- `CameraParameters` of the Android camera library, as far as the wrapper uses it. -/
structure CameraParameters (Params : Type*) where
  unflatten : String → Params
  flatten : Params → String
  get : Params → String → Option String
  remove : Params → String → Params
  keySceneMode : String
  sceneModeHdr : String
  keyQcHdrNeed1x : String

/-- The global state of the wrapper: the array of the strings of `n` cameras, the strings
that were made, those that were freed, in this order, and the cameras that are open. -/
structure Wrapper (n : Nat) where
  fixed_set_params : Option (Fin n → Option Nat)
  strings : List String
  freed : List Nat
  opened : List (Fin n)

/-- What `camera_device_open` meets outside the wrapper. -/
structure OpenEnv where
  check_vendor_module : Bool
  fixed_set_params : Bool
  camera_device : Bool
  rv : Int
  camera_ops : Bool

section Operations

variable {n : Nat}

/-- `camera_device_open`, with its result. -/
def cameraDeviceOpen (wrapper : Wrapper n) (cameraid : Fin n) (env : OpenEnv) :
    Int × Wrapper n :=
  if !env.check_vendor_module then (-einval, wrapper)
  else if !env.fixed_set_params then (-enomem, { wrapper with fixed_set_params := none })
  else
    let wrapper := { wrapper with fixed_set_params := some fun _ => none }
    if n < cameraid.val then (-einval, wrapper)
    else if !env.camera_device then (-enomem, wrapper)
    else if env.rv ≠ 0 then (env.rv, wrapper)
    else if !env.camera_ops then (-enomem, wrapper)
    else (0, { wrapper with opened := cameraid :: wrapper.opened })

/-- The text `camera_fixup_setparams` stores. -/
def fixedText {Params : Type*} (lib : CameraParameters Params) (settings : String) : String :=
  let params := lib.unflatten settings
  let params :=
    if lib.get params lib.keySceneMode = some lib.sceneModeHdr then
      lib.remove params lib.keyQcHdrNeed1x
    else params
  lib.flatten params

/-- `camera_fixup_setparams`. Without the array it has no value; `strdup` may fail. -/
def cameraFixupSetparams {Params : Type*} (lib : CameraParameters Params) (wrapper : Wrapper n)
    (id : Fin n) (settings : String) (strdup : Bool) : Option (Wrapper n) :=
  wrapper.fixed_set_params.map fun params =>
    let freed := wrapper.freed ++ (params id).toList
    if strdup then
      { wrapper with
        fixed_set_params := some (Function.update params id (some wrapper.strings.length))
        strings := wrapper.strings ++ [fixedText lib settings]
        freed := freed }
    else
      { wrapper with fixed_set_params := some (Function.update params id none), freed := freed }

/-- `camera_device_close`, which has no value without the array. The strings of all cameras
are freed, one after the other. -/
def cameraDeviceClose (wrapper : Wrapper n) (id : Fin n) : Option (Wrapper n) :=
  wrapper.fixed_set_params.map fun params =>
    { wrapper with
      freed := wrapper.freed ++ (List.finRange n).filterMap params
      opened := wrapper.opened.erase id }

end Operations

/-- The operations on a camera. -/
inductive Label (n : Nat) where
  | deviceOpen (id : Fin n) (env : OpenEnv)
  | setParameters (id : Fin n) (settings : String) (strdup : Bool)
  | deviceClose (id : Fin n)

def Label.id {n : Nat} : Label n → Fin n
  | .deviceOpen id _ | .setParameters id _ _ | .deviceClose id => id

/-- The camera service opens a camera once and uses it while it is open. -/
def step {n : Nat} {Params : Type*} (lib : CameraParameters Params) (wrapper : Wrapper n) :
    Label n → Option (Wrapper n)
  | .deviceOpen id env =>
      if id ∈ wrapper.opened then none else some (cameraDeviceOpen wrapper id env).2
  | .setParameters id settings strdup =>
      if id ∈ wrapper.opened then cameraFixupSetparams lib wrapper id settings strdup else none
  | .deviceClose id =>
      if id ∈ wrapper.opened then cameraDeviceClose wrapper id else none

/-- The wrapper when the module is loaded. -/
def loaded (n : Nat) : Wrapper n where
  fixed_set_params := none
  strings := []
  freed := []
  opened := []

/-- The string stored for a camera. -/
def stored {n : Nat} (wrapper : Wrapper n) (id : Fin n) : Option Nat :=
  wrapper.fixed_set_params.bind fun params => params id

end Msm8916.Camera
