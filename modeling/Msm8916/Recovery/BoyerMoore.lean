import Mathlib.Logic.Function.Basic
import Mathlib.Algebra.Ring.Int.Defs
import Mathlib.Algebra.Ring.Nat
import Mathlib.Data.List.Basic

/-!
The string search of `recovery/recovery_updater.cpp`. The text and the pattern
are the accessible bytes, `str_len` and `pat_len` their lengths. Every function
is partial: it has no value when the code would read or write outside an array,
read a table entry it has not written, or leave the range of `int`.
-/

namespace Msm8916.Recovery

abbrev Byte := UInt8

def intMax : Int := 2 ^ 31 - 1

/-- Conversion of an unsigned value to `int`. -/
def toInt (value : Nat) : Int := Int.bmod value (2 ^ 32)

/-- Addition of two `int` values, which may not overflow. -/
def addInt (x y : Int) : Option Int :=
  if -intMax - 1 ≤ x + y ∧ x + y ≤ intMax then some (x + y) else none

/-- Read of a character array at an `int` index. -/
def readAt (str : List Byte) (i : Int) : Option Byte :=
  if 0 ≤ i then str[i.toNat]? else none

/-- The loop of `max_suffix_len`, with `remaining` steps left until `i = p`.
Both characters are read before `i < p` is tested. -/
def maxSuffixLenFrom (str : List Byte) (p : Nat) : (remaining i : Nat) → Option Nat
  | 0, i => do
      let _ ← str[p - i]?
      let _ ← str[str.length - 1 - i]?
      return i
  | remaining + 1, i => do
      let left ← str[p - i]?
      let right ← str[str.length - 1 - i]?
      if left = right then maxSuffixLenFrom str p remaining (i + 1) else return i

/-- `max_suffix_len`. -/
def maxSuffixLen (str : List Byte) (p : Nat) : Option Nat :=
  maxSuffixLenFrom str p p 0

/-- The last index of a pattern, as the unsigned `pat_len - 1`. -/
def lastIndex (patLen : Nat) : Nat :=
  if patLen = 0 then 2 ^ 64 - 1 else patLen - 1

/-- The second loop of `bm_make_delta1`; a table over `uint8_t` has every index. -/
def delta1From (pat : List Byte) :
    (remaining i : Nat) → (Byte → Int) → Option (Byte → Int)
  | 0, _, delta1 => some delta1
  | remaining + 1, i, delta1 => do
      let idx ← pat[i]?
      delta1From pat remaining (i + 1)
        (Function.update delta1 idx (toInt (pat.length - 1 - i)))

/-- `bm_make_delta1`. -/
def bmMakeDelta1 (pat : List Byte) : Option (Byte → Int) :=
  delta1From pat (lastIndex pat.length) 0 fun _ => toInt pat.length

/-- `strncmp(pat + a, pat + b, n) == 0`. -/
def strncmpEqual (pat : List Byte) : (a b n : Nat) → Option Bool
  | _, _, 0 => some true
  | a, b, n + 1 => do
      let x ← pat[a]?
      let y ← pat[b]?
      if x ≠ y then return false
      else if x = 0 then return true
      else strncmpEqual pat (a + 1) (b + 1) n

/-- An array of `pat_len` ints, some entries not yet written. -/
abbrev Delta2 := Nat → Option Int

def writeDelta2 (patLen : Nat) (delta2 : Delta2) (i : Nat) (value : Int) : Option Delta2 :=
  if i < patLen then some (Function.update delta2 i (some value)) else none

/-- The first loop of `bm_make_delta2`, with positions below `p` left. -/
def delta2Prefix (pat : List Byte) :
    (p lastPrefix : Nat) → Delta2 → Option Delta2
  | 0, _, delta2 => some delta2
  | p + 1, lastPrefix, delta2 => do
      let isPrefix ← strncmpEqual pat p 0 (pat.length - p)
      let lastPrefix := if isPrefix then p + 1 else lastPrefix
      let delta2 ← writeDelta2 pat.length delta2 p
        (toInt (lastPrefix + (pat.length - 1 - p)))
      delta2Prefix pat p lastPrefix delta2

/-- The second loop of `bm_make_delta2`. -/
def delta2Suffix (pat : List Byte) :
    (remaining p : Nat) → Delta2 → Option Delta2
  | 0, _, delta2 => some delta2
  | remaining + 1, p, delta2 => do
      let sufLen ← maxSuffixLen pat p
      let left ← pat[p - sufLen]?
      let right ← pat[pat.length - 1 - sufLen]?
      let delta2 ←
        if left ≠ right then
          writeDelta2 pat.length delta2 (pat.length - 1 - sufLen)
            (toInt (pat.length - 1 - p + sufLen))
        else some delta2
      delta2Suffix pat remaining (p + 1) delta2

/-- `bm_make_delta2`. -/
def bmMakeDelta2 (pat : List Byte) : Option Delta2 := do
  let delta2 ← delta2Prefix pat pat.length (lastIndex pat.length % 2 ^ 32) fun _ => none
  delta2Suffix pat (pat.length - 1) 0 delta2

/-- The inner loop of `bm_search`, with `j` one above the source's index. It
ends with the source's `i` and `j`. -/
def matchBack (str pat : List Byte) : (j : Nat) → (i : Int) → Option (Int × Int)
  | 0, i => some (i, -1)
  | j + 1, i => do
      let c ← readAt str i
      let d ← pat[j]?
      if c = d then matchBack str pat j (i - 1) else return (i, j)

/-- The outer loop of `bm_search`. Each alignment is further right than the
one before, so there are never more than `str_len` of them. -/
def searchFrom (str pat : List Byte) (delta1 : Byte → Int) (delta2 : Delta2) :
    (fuel : Nat) → (i : Int) → Option (Option Int)
  | 0, _ => none
  | fuel + 1, i =>
      if i < toInt str.length then do
        let (i, j) ← matchBack str pat pat.length i
        if j < 0 then return some (i + 1)
        else do
          let c ← readAt str i
          let shift2 ← delta2 j.toNat
          let i ← addInt i (max (delta1 c) shift2)
          searchFrom str pat delta1 delta2 fuel i
      else return none

/-- `bm_search`, with the result as an offset into the text. -/
def bmSearch (str pat : List Byte) : Option (Option Int) := do
  let delta1 ← bmMakeDelta1 pat
  let delta2 ← bmMakeDelta2 pat
  if pat.length = 0 then return some 0
  else searchFrom str pat delta1 delta2 (str.length + 1) (toInt (pat.length - 1))

end Msm8916.Recovery
