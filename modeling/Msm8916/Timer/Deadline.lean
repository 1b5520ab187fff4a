import Msm8916.Timer.Wrapper
import Mathlib.Algebra.Ring.Int.Defs

/-!
The deadline of a timer that is started through the C interface. `loc_timer_start` takes 64 bits
of milliseconds and `LocTimer::start` an `unsigned int`.
-/

namespace Msm8916.Timer

namespace Timespec

def Normalised (time : Timespec) : Prop := 0 ≤ time.tv_nsec ∧ time.tv_nsec < 1000000000

/-- `mFutureTime` of the delegate `loc_timer_start` creates. -/
def deadline (now : Timespec) (msec : UInt64) : Timespec := now.afterMs msec.toUInt32

theorem deadline_normalised {now : Timespec} (hnow : now.Normalised) (msec : UInt64) :
    (now.deadline msec).Normalised :=
  carry_normalised (Int.add_nonneg hnow.1 (Int.natCast_nonneg _))

theorem toNanoseconds_deadline (now : Timespec) (msec : UInt64) :
    (now.deadline msec).toNanoseconds =
      now.toNanoseconds + (msec.toNat % 2 ^ 32 : Nat) * 1000000 := by
  rw [deadline, toNanoseconds_afterMs, UInt64.toNat_toUInt32]

/-- The sums that `LocTimer::start` forms before the carry: the nanoseconds fit in 31 bits, and
the seconds are between those of the clock and of the deadline. -/
theorem deadline_sums {now : Timespec} (hnow : now.Normalised) (msec : UInt64) :
    now.tv_nsec + ((msec.toUInt32 % 1000) * 1000000).toNat < 2 ^ 31 ∧
      now.tv_sec ≤ now.tv_sec + (msec.toUInt32 / 1000).toNat ∧
      now.tv_sec + (msec.toUInt32 / 1000).toNat ≤ (now.deadline msec).tv_sec := by
  obtain ⟨hnonneg, hlt⟩ := hnow
  have hsubsecond := toNat_subsecond msec.toUInt32
  refine ⟨by omega, by omega, ?_⟩
  rw [deadline, afterMs, carry]
  split
  · dsimp only
    omega
  · exact Int.le_refl _

end Timespec

namespace LocTimerApi

open Timespec

/-- The constructor of a `LocTimer` leaves `mTimer` null, so that the call creates a
delegate. -/
theorem mTimer_locTimerStart {state : LocTimerApi}
    (hnull : state.timers.mTimer state.wrappers.next = none) (msec : UInt64)
    (wakeOnExpire : Bool) :
    ∃ timer,
      (state.locTimerStart true msec wakeOnExpire).timers.mTimer state.wrappers.next =
        some timer ∧
      timer.mFutureTime.toTimespec = state.timers.now.toTimespec.deadline msec := by
  refine ⟨⟨state.timers.nextAddress, state.timers.now.afterMs msec.toUInt32⟩, ?_, rfl⟩
  rw [locTimerStart, if_pos rfl]
  change (state.timers.start state.wrappers.next msec.toUInt32 wakeOnExpire).mTimer _ = _
  rw [LocTimers.start, hnull]
  exact Function.update_self _ _ _

/-- The delegate has the deadline that was asked for exactly if the milliseconds fit in an
`unsigned int`. -/
theorem deadline_exact_iff {now : Timespec} (hnow : now.Normalised) (msec : UInt64) :
    (∀ state : LocTimerApi, state.timers.now.toTimespec = now →
      state.timers.mTimer state.wrappers.next = none → ∀ wakeOnExpire, ∃ timer,
        (state.locTimerStart true msec wakeOnExpire).timers.mTimer state.wrappers.next =
          some timer ∧ timer.mFutureTime.toTimespec = now.deadline msec) ∧
    ((now.deadline msec).toNanoseconds = now.toNanoseconds + msec.toNat * 1000000 ∧
      (now.deadline msec).Normalised ↔ msec.toNat < 2 ^ 32) := by
  constructor
  · rintro state rfl hnull wakeOnExpire
    exact mTimer_locTimerStart hnull msec wakeOnExpire
  · rw [toNanoseconds_deadline]
    constructor
    · rintro ⟨hexact, -⟩
      have hlt : msec.toNat % 2 ^ 32 < 2 ^ 32 := Nat.mod_lt _ (by decide)
      omega
    · intro hsmall
      rw [Nat.mod_eq_of_lt hsmall]
      exact ⟨rfl, deadline_normalised hnow msec⟩

theorem deadline_exact_iff_carry :
    (∀ state : LocTimerApi, state.timers.now.toTimespec = ⟨5, 999000000⟩ →
      state.timers.mTimer state.wrappers.next = none → ∀ wakeOnExpire, ∃ timer,
        (state.locTimerStart true 1500 wakeOnExpire).timers.mTimer state.wrappers.next =
          some timer ∧ timer.mFutureTime.toTimespec = deadline ⟨5, 999000000⟩ 1500) ∧
    ((deadline ⟨5, 999000000⟩ 1500).toNanoseconds =
        toNanoseconds ⟨5, 999000000⟩ + (1500 : UInt64).toNat * 1000000 ∧
      (deadline ⟨5, 999000000⟩ 1500).Normalised ↔ (1500 : UInt64).toNat < 2 ^ 32) :=
  deadline_exact_iff ⟨by decide, by decide⟩ 1500

/-- A timer of some fifty days is due at once. -/
theorem deadline_of_wrapped :
    ¬ ∀ now : Timespec, now.Normalised → ∀ msec : UInt64,
      (now.deadline msec).toNanoseconds = now.toNanoseconds + msec.toNat * 1000000 ∧
        (now.deadline msec).Normalised := by
  intro hall
  have hdue : deadline ⟨1, 0⟩ 4294967296 = ⟨1, 0⟩ := by decide
  obtain ⟨hexact, -⟩ := hall ⟨1, 0⟩ ⟨by decide, by decide⟩ 4294967296
  rw [hdue] at hexact
  exact absurd hexact (by decide)

end LocTimerApi

end Msm8916.Timer
