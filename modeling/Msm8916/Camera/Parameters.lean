import Msm8916.Camera.Wrapper
import Msm8916.Lib.CString
import Msm8916.Lib.SortedMap
import Mathlib.Data.String.Basic

/-!
The parameters of `libshims/camera/CameraParameters.cpp`, built without `QCOM_HARDWARE`,
and what `camera/CameraWrapper.cpp` changes in them. The keyed vector of the parameters is
a sorted map. A text is read key by key and printed again.
-/

namespace Msm8916.Camera

open CString

/-- The map of `CameraParameters`. -/
abbrev Parameters := SortedMap String String

namespace Parameters

def keySceneMode := "scene-mode"
def keySupportedSceneModes := "scene-mode-values"
def keyAutoWhitebalanceLockSupported := "auto-whitebalance-lock-supported"
def sceneModeHdr := "hdr"
def keyQcLongshotSupported := "longshot-supported"
def keyQcManualFocusPosition := "manual-focus-position"
def keyQcManualFocusPosType := "manual-focus-pos-type"
def keyQcFocusPositionScale := "cur-focus-scale"
def keyQcFocusPositionDiopter := "cur-focus-diopter"
def keyQcHdrNeed1x := "hdr-need-1x"

/-- The loop of `flatten`. -/
def flattenEntries : List (String × String) → List Char
  | [] => []
  | [entry] => entry.1.toList ++ '=' :: entry.2.toList
  | entry :: entries => entry.1.toList ++ '=' :: (entry.2.toList ++ ';' :: flattenEntries entries)

def flatten (params : Parameters) : String := String.ofList (flattenEntries params.entries)

/-- The loop of `unflatten`, for a number of rounds. -/
def unflattenFrom : Nat → List Char → Parameters → Parameters
  | 0, _, params => params
  | rounds + 1, a, params =>
      match strchr '=' a with
      | none => params
      | some (key, a) =>
          match strchr ';' a with
          | none => params.add (String.ofList key) (String.ofList a)
          | some (value, a) =>
              unflattenFrom rounds a (params.add (String.ofList key) (String.ofList value))

/-- Every round takes a character at least. -/
def unflatten (settings : String) : Parameters :=
  unflattenFrom settings.toList.length settings.toList .empty

def get (params : Parameters) (key : String) : Option String :=
  (params.lookup key).filter (· ≠ "")

/-- `set`, which refuses a separator in the key or in the value. -/
def set (params : Parameters) (key value : String) : Parameters :=
  if '=' ∈ key.toList ∨ ';' ∈ key.toList then params
  else if '=' ∈ value.toList ∨ ';' ∈ value.toList then params
  else params.add key value

end Parameters

open Parameters

/-- The library the wrapper is linked against. -/
def cameraParameters : CameraParameters Parameters where
  unflatten := unflatten
  flatten := flatten
  get := get
  remove := SortedMap.remove
  keySceneMode := keySceneMode
  sceneModeHdr := sceneModeHdr
  keyQcHdrNeed1x := keyQcHdrNeed1x

/-- The parameters `camera_fixup_getparams` prints. -/
def fixupGetparams (params : Parameters) : Parameters :=
  let params := params.remove keyQcLongshotSupported
  let params := params.remove keyAutoWhitebalanceLockSupported
  let params := set params keySupportedSceneModes "auto,hdr"
  let manualFocusPosition := get params keyQcManualFocusPosition
  match get params keyQcManualFocusPosType with
  | none => params
  | some manualFocusPositionType =>
      if manualFocusPositionType = "2" then
        set params keyQcFocusPositionScale (manualFocusPosition.getD "0")
      else if manualFocusPositionType = "3" then
        set params keyQcFocusPositionDiopter (manualFocusPosition.getD "0")
      else params

/-- `camera_fixup_getparams`. -/
def cameraFixupGetparams (settings : String) : String :=
  flatten (fixupGetparams (unflatten settings))

end Msm8916.Camera
