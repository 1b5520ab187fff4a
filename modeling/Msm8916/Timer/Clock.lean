import Mathlib.Data.Int.Order.Basic

/-!
Readings of `CLOCK_BOOTTIME` and the deadline `LocTimer::start` computes from
one. A reading is normalised and later than boot, so it is never the zero value
that tells `timerfd_settime` to disarm.
-/

namespace Msm8916.Timer

/-- `struct timespec`, ordered by seconds and then nanoseconds. -/
structure Timespec where
  tv_sec : Int
  tv_nsec : Int
deriving DecidableEq, Repr

namespace Timespec

instance : LE Timespec where
  le a b := a.tv_sec < b.tv_sec ∨ (a.tv_sec = b.tv_sec ∧ a.tv_nsec ≤ b.tv_nsec)

instance (a b : Timespec) : Decidable (a ≤ b) :=
  inferInstanceAs (Decidable (_ ∨ _))

def toNanoseconds (time : Timespec) : Int := time.tv_sec * 1000000000 + time.tv_nsec

/-- Nanoseconds beyond a second go over to the seconds. -/
def carry (time : Timespec) : Timespec :=
  if time.tv_nsec ≥ 1000000000 then
    ⟨time.tv_sec + time.tv_nsec / 1000000000, time.tv_nsec % 1000000000⟩
  else time

/-- The deadline arithmetic of `LocTimer::start`. The millisecond operations
are those of `unsigned int`. -/
def afterMs (now : Timespec) (timeOutInMs : UInt32) : Timespec :=
  carry ⟨now.tv_sec + (timeOutInMs / 1000).toNat,
    now.tv_nsec + ((timeOutInMs % 1000) * 1000000).toNat⟩

theorem toNanoseconds_carry (time : Timespec) :
    time.carry.toNanoseconds = time.toNanoseconds := by
  unfold carry
  split
  · simp only [toNanoseconds]; omega
  · rfl

/-- The product of the sub-second part fits `unsigned int`. -/
theorem toNat_subsecond (timeOutInMs : UInt32) :
    ((timeOutInMs % 1000) * 1000000).toNat = timeOutInMs.toNat % 1000 * 1000000 := by
  have hlt : timeOutInMs.toNat % 1000 < 1000 := Nat.mod_lt _ (by decide)
  rw [UInt32.toNat_mul, UInt32.toNat_mod]
  change timeOutInMs.toNat % 1000 * 1000000 % 4294967296 = _
  omega

theorem toNanoseconds_afterMs (now : Timespec) (timeOutInMs : UInt32) :
    (now.afterMs timeOutInMs).toNanoseconds =
      now.toNanoseconds + timeOutInMs.toNat * 1000000 := by
  have hdiv : (timeOutInMs / 1000).toNat = timeOutInMs.toNat / 1000 := UInt32.toNat_div _ _
  rw [afterMs, toNanoseconds_carry, toNat_subsecond, hdiv]
  simp only [toNanoseconds]
  omega

theorem carry_normalised {time : Timespec} (h : 0 ≤ time.tv_nsec) :
    0 ≤ time.carry.tv_nsec ∧ time.carry.tv_nsec < 1000000000 := by
  unfold carry
  split
  · exact ⟨Int.emod_nonneg _ (by decide), Int.emod_lt_of_pos _ (by decide)⟩
  · omega

end Timespec

/-- A normalised reading of the clock, later than boot. -/
structure BootTime extends Timespec where
  nsec_nonneg : 0 ≤ tv_nsec
  nsec_lt : tv_nsec < 1000000000
  positive : 0 < tv_sec ∨ (tv_sec = 0 ∧ 0 < tv_nsec)
deriving DecidableEq

namespace BootTime

/-- `mFutureTime` of a timer started at `now`. -/
def afterMs (now : BootTime) (timeOutInMs : UInt32) : BootTime where
  toTimespec := now.toTimespec.afterMs timeOutInMs
  nsec_nonneg :=
    (Timespec.carry_normalised (Int.add_nonneg now.nsec_nonneg (Int.natCast_nonneg _))).1
  nsec_lt :=
    (Timespec.carry_normalised (Int.add_nonneg now.nsec_nonneg (Int.natCast_nonneg _))).2
  positive := by
    have hpositive := now.positive
    have hnow := now.nsec_nonneg
    unfold Timespec.afterMs Timespec.carry
    split <;> dsimp only at * <;> omega

/-- The clock a whole number of seconds after its first one. -/
def atSecond (sec : Nat) : BootTime where
  tv_sec := sec + 1
  tv_nsec := 0
  nsec_nonneg := Int.le_refl 0
  nsec_lt := by decide
  positive := .inl (by omega)

/-- A deadline is never the value that disarms the timerfd. -/
theorem ne_disarm (time : BootTime) : time.toTimespec ≠ ⟨0, 0⟩ := by
  intro hzero
  have hpositive := time.positive
  rw [hzero] at hpositive
  simp at hpositive

end BootTime

end Msm8916.Timer
