import Mathlib.Algebra.BigOperators.Group.List.Basic
import Mathlib.Data.Int.Basic
import Mathlib.Tactic.IntervalCases

/-!
The Gregorian calendar, and `gmtime`: the date and time of day of a second that is
counted from 1970.
-/

namespace Msm8916.Calendar

abbrev IsLeap (year : Int) : Prop := year % 4 = 0 ∧ (year % 100 ≠ 0 ∨ year % 400 = 0)

/-- The number of days of a month; January is month one. -/
def monthLength (year : Int) : Nat → Nat
  | 2 => if IsLeap year then 29 else 28
  | 4 | 6 | 9 | 11 => 30
  | _ => 31

def daysBeforeMonth (year : Int) (month : Nat) : Nat :=
  ((List.range (month - 1)).map fun earlier => monthLength year (earlier + 1)).sum

/-- The days from the first of January 1970 to that of a year. -/
def daysBeforeYear (year : Int) : Int :=
  365 * (year - 1970) + ((year - 1) / 4 - 492) - ((year - 1) / 100 - 19) + ((year - 1) / 400 - 4)

structure Date where
  year : Int
  month : Nat
  day : Nat
deriving DecidableEq, Repr

namespace Date

/-- There is such a day. -/
structure Valid (date : Date) : Prop where
  month_pos : 1 ≤ date.month
  month_le : date.month ≤ 12
  day_pos : 1 ≤ date.day
  day_le : date.day ≤ monthLength date.year date.month

/-- The days from the first of January 1970. -/
def days (date : Date) : Int :=
  daysBeforeYear date.year + daysBeforeMonth date.year date.month + (date.day - 1)

end Date

/-- The year of a cycle of 400 years and the day of that year, both from zero, when
years start in March: centuries, then groups of four years, then years, the last of
each being the longer one. -/
def yearDay (day : Nat) : Nat × Nat :=
  let century := min (day / 36524) 3
  let day := day - century * 36524
  let four := min (day / 1461) 24
  let day := day - four * 1461
  let year := min (day / 365) 3
  (100 * century + 4 * four + year, day - year * 365)

/-- The date of a day, counted from 1970. -/
def dateOf (days : Int) : Date :=
  -- from the first of March of the year 0
  let days := days + 719468
  let (year, day) := yearDay (days % 146097).toNat
  let month := (5 * day + 2) / 153
  ⟨400 * (days / 146097) + year + if month < 10 then 0 else 1,
    if month < 10 then month + 3 else month - 9, day - (153 * month + 2) / 5 + 1⟩

/-- What `yearDay` takes apart; a year of 366 days is the last of four, and then not
the last of a century but that of the cycle. -/
theorem yearDay_spec {day : Nat} (h : day < 146097) :
    ∃ century four year rest, yearDay day = (100 * century + 4 * four + year, rest) ∧
      century ≤ 3 ∧ four ≤ 24 ∧ year ≤ 3 ∧
      day = 36524 * century + 1461 * four + 365 * year + rest ∧
      rest ≤ 365 ∧ (rest = 365 → year = 3 ∧ (four = 24 → century = 3)) := by
  refine ⟨_, _, _, _, rfl, ?_⟩
  obtain ⟨century, hcentury⟩ : ∃ century, century = min (day / 36524) 3 := ⟨_, rfl⟩
  rw [← hcentury]
  obtain ⟨inCentury, hrest⟩ : ∃ rest, rest = day - century * 36524 := ⟨_, rfl⟩
  rw [← hrest]
  have hlast : inCentury < 36524 ∨ inCentury = 36524 ∧ century = 3 := by omega
  obtain ⟨four, hfour⟩ : ∃ four, four = min (inCentury / 1461) 24 := ⟨_, rfl⟩
  rw [← hfour]
  obtain ⟨inFour, hinFour⟩ : ∃ rest, rest = inCentury - four * 1461 := ⟨_, rfl⟩
  rw [← hinFour]
  have hlong : inFour ≤ 1460 ∧ (inFour = 1460 → four = 24 → century = 3) := by omega
  obtain ⟨year, hyear⟩ : ∃ year, year = min (inFour / 365) 3 := ⟨_, rfl⟩
  rw [← hyear]
  refine ⟨by omega, by omega, by omega, by omega, by omega, by omega⟩

/-- The month of a day of a year that starts in March, and the day of the month. -/
theorem month_spec {day : Nat} (h : day ≤ 365) :
    ∃ month rest, (5 * day + 2) / 153 = month ∧ month ≤ 11 ∧
      day - (153 * month + 2) / 5 = rest ∧ day = (153 * month + 2) / 5 + rest ∧
      5 * day + 2 < 153 * (month + 1) := by
  refine ⟨_, _, rfl, by omega, rfl, by omega, by omega⟩

/-- From March on, months have 153 days in five, after a February that may be longer. -/
theorem daysBeforeMonth_eq (year : Int) {month : Nat} (h : month ≤ 9) :
    daysBeforeMonth year (month + 3) =
      (153 * month + 2) / 5 + if IsLeap year then 60 else 59 := by
  have hfebruary : monthLength year 2 = if IsLeap year then 29 else 28 := rfl
  have hsum : ∀ later, daysBeforeMonth year later =
      ((List.range (later - 1)).map fun earlier => monthLength year (earlier + 1)).sum :=
    fun _ => rfl
  rw [hsum]
  interval_cases month <;>
    simp [List.range_succ, monthLength] <;> split <;> rfl

theorem monthLength_eq (year : Int) {month : Nat} (h : month ≤ 9) :
    monthLength year (month + 3) = (153 * (month + 1) + 2) / 5 - (153 * month + 2) / 5 := by
  interval_cases month <;> rfl

/-- The days up to the first of March of a year, by the years that start in March. -/
theorem daysBeforeYear_eq (year : Int) :
    daysBeforeYear year + (if IsLeap year then 60 else 59) =
      365 * year + year / 4 - year / 100 + year / 400 - 719468 := by
  unfold daysBeforeYear
  by_cases hleap : IsLeap year
  · rw [if_pos hleap]
    omega
  · rw [if_neg hleap]
    omega

/-- A day by the year that starts in the March before it. -/
structure InYear (days start : Int) (day month inMonth : Nat) : Prop where
  days_eq : days = 365 * start + start / 4 - start / 100 + start / 400 + day - 719468
  month_le : month ≤ 11
  day_eq : day = (153 * month + 2) / 5 + inMonth
  day_lt : 5 * day + 2 < 153 * (month + 1)
  day_le : day ≤ 365
  leap : day = 365 → IsLeap (start + 1)

theorem dateOf_eq (days : Int) : ∃ start day month inMonth,
    InYear days start day month inMonth ∧ dateOf days =
      ⟨start + (if month < 10 then 0 else 1), if month < 10 then month + 3 else month - 9,
        inMonth + 1⟩ := by
  have hcycle : ((days + 719468) % 146097).toNat < 146097 := by omega
  obtain ⟨century, four, year, day, hyearDay, hcentury, hfour, hyear, hday, hrest, hlong⟩ :=
    yearDay_spec hcycle
  obtain ⟨month, inMonth, hmonth, hle, hinMonth, hsplit, hnext⟩ := month_spec hrest
  obtain ⟨cycle, hcycle⟩ : ∃ cycle, cycle = (days + 719468) / 146097 := ⟨_, rfl⟩
  obtain ⟨start, hstart⟩ : ∃ start : Int,
      start = 400 * cycle + (100 * century + 4 * four + year : Nat) := ⟨_, rfl⟩
  refine ⟨start, day, month, inMonth, ?_, ?_⟩
  · have hfours : start / 4 = 100 * cycle + 25 * century + four := by omega
    have hcenturies : start / 100 = 4 * cycle + century := by omega
    have hcycles : start / 400 = cycle := by omega
    refine ⟨by omega, hle, hsplit, hnext, hrest, ?_⟩
    intro hlast
    obtain ⟨hthird, hcycleEnd⟩ := hlong hlast
    constructor
    · omega
    · omega
  · simp only [dateOf, hyearDay, hmonth, hinMonth, hstart, hcycle]

section InYear

variable {days start : Int} {day month inMonth : Nat}

theorem InYear.fromMarch (h : InYear days start day month inMonth) (hmonth : month ≤ 9) :
    (Date.mk start (month + 3) (inMonth + 1)).Valid ∧
      (Date.mk start (month + 3) (inMonth + 1)).days = days := by
  obtain ⟨hdays, -, hday, hlt, -, -⟩ := h
  have hlength := monthLength_eq start hmonth
  have hmonths := daysBeforeMonth_eq start hmonth
  have hyears := daysBeforeYear_eq start
  constructor
  · refine ⟨?_, ?_, ?_, ?_⟩ <;> dsimp only
    · omega
    · omega
    · omega
    · rw [hlength]
      omega
  · simp only [Date.days]
    rw [hmonths]
    split at hyears
    · rename_i hfebruary
      rw [if_pos hfebruary]
      omega
    · rename_i hfebruary
      rw [if_neg hfebruary]
      omega

/-- The days up to the turn of the year. -/
theorem daysBeforeYear_succ (start : Int) : daysBeforeYear (start + 1) =
    365 * start + start / 4 - start / 100 + start / 400 - 719468 + 306 := by
  unfold daysBeforeYear
  rw [Int.add_sub_cancel]
  omega

theorem InYear.january (h : InYear days start day 10 inMonth) :
    (Date.mk (start + 1) 1 (inMonth + 1)).Valid ∧
      (Date.mk (start + 1) 1 (inMonth + 1)).days = days := by
  obtain ⟨hdays, -, hday, hlt, -, -⟩ := h
  have hlength : monthLength (start + 1) 1 = 31 := rfl
  have hmonths : daysBeforeMonth (start + 1) 1 = 0 := rfl
  constructor
  · refine ⟨Nat.le_refl 1, Nat.le_add_right 1 11, ?_, ?_⟩ <;> dsimp only
    · omega
    · rw [hlength]
      omega
  · simp only [Date.days]
    rw [hmonths, daysBeforeYear_succ]
    omega

theorem InYear.february (h : InYear days start day 11 inMonth) :
    (Date.mk (start + 1) 2 (inMonth + 1)).Valid ∧
      (Date.mk (start + 1) 2 (inMonth + 1)).days = days := by
  obtain ⟨hdays, -, hday, hlt, hle, hleap⟩ := h
  have hlength : monthLength (start + 1) 2 = if IsLeap (start + 1) then 29 else 28 := rfl
  have hmonths : daysBeforeMonth (start + 1) 2 = 31 := rfl
  constructor
  · refine ⟨Nat.le_succ 1, Nat.le_add_right 2 10, ?_, ?_⟩ <;> dsimp only
    · omega
    · rw [hlength]
      -- the last day of the longest year is in a February of 29 days
      by_cases hlast : day = 365
      · rw [if_pos (hleap hlast)]
        omega
      · have hshort : 28 ≤ if IsLeap (start + 1) then 29 else 28 := by
          split <;> decide
        omega
  · simp only [Date.days]
    rw [hmonths, daysBeforeYear_succ]
    omega

end InYear

/-- The date of a day exists and is that many days from 1970. -/
theorem dateOf_spec (days : Int) : (dateOf days).Valid ∧ (dateOf days).days = days := by
  obtain ⟨start, day, month, inMonth, h, hdate⟩ := dateOf_eq days
  rw [hdate]
  by_cases hearly : month < 10
  · rw [if_pos hearly, if_pos hearly, Int.add_zero]
    exact h.fromMarch (Nat.le_of_lt_succ hearly)
  · rw [if_neg hearly, if_neg hearly]
    have hle := h.month_le
    obtain rfl | rfl : month = 10 ∨ month = 11 := by omega
    · exact h.january
    · exact h.february

/-- The fields of `struct tm` but for the days of the week and of the year and the flag
of the daylight saving time. -/
structure Tm where
  tm_sec : Nat
  tm_min : Nat
  tm_hour : Nat
  tm_mday : Nat
  tm_mon : Nat
  tm_year : Int
deriving DecidableEq, Repr

/-- `gmtime`, which fails if the year is not an `int`. -/
def gmtime (seconds : Int) : Option Tm :=
  let date := dateOf (seconds / 86400)
  let time := (seconds % 86400).toNat
  let tm_year := date.year - 1900
  if -2 ^ 31 ≤ tm_year ∧ tm_year < 2 ^ 31 then
    some ⟨time % 60, time / 60 % 60, time / 3600, date.day, date.month - 1, tm_year⟩
  else
    none

/-- The second of a date and a time of day. -/
def secondOf (date : Date) (hour minute second : Nat) : Int :=
  date.days * 86400 + hour * 3600 + minute * 60 + second

/-- What `gmtime` finds is a date and a time of day, and that second. -/
theorem gmtime_spec {seconds : Int} {tm : Tm} (h : gmtime seconds = some tm) :
    (Date.mk (tm.tm_year + 1900) (tm.tm_mon + 1) tm.tm_mday).Valid ∧
      tm.tm_hour < 24 ∧ tm.tm_min < 60 ∧ tm.tm_sec < 60 ∧
      secondOf (Date.mk (tm.tm_year + 1900) (tm.tm_mon + 1) tm.tm_mday) tm.tm_hour tm.tm_min
        tm.tm_sec = seconds := by
  obtain ⟨hvalid, hdays⟩ := dateOf_spec (seconds / 86400)
  unfold gmtime at h
  dsimp only at h
  split at h
  · obtain rfl := Option.some.inj h
    have hdate : Date.mk ((dateOf (seconds / 86400)).year - 1900 + 1900)
        ((dateOf (seconds / 86400)).month - 1 + 1) (dateOf (seconds / 86400)).day =
        dateOf (seconds / 86400) := by
      rw [Int.sub_add_cancel, Nat.sub_add_cancel hvalid.month_pos]
    rw [hdate]
    refine ⟨hvalid, ?_, ?_, ?_, ?_⟩
    · dsimp only
      omega
    · exact Nat.mod_lt _ (by decide)
    · exact Nat.mod_lt _ (by decide)
    · rw [secondOf, hdays]
      dsimp only
      omega
  · cases h

theorem dateOf_year_bounds (days : Int) :
    400 * ((days + 719468) / 146097) ≤ (dateOf days).year ∧
      (dateOf days).year ≤ 400 * ((days + 719468) / 146097) + 400 := by
  have hcycle : ((days + 719468) % 146097).toNat < 146097 := by omega
  obtain ⟨century, four, year, day, hyearDay, hcentury, hfour, hyear, -⟩ := yearDay_spec hcycle
  simp only [dateOf, hyearDay]
  split
  · omega
  · omega

/-- It does not fail on a count of milliseconds that fits 64 bits. -/
theorem gmtime_isSome {seconds : Int} (hlow : -2 ^ 63 ≤ 1000 * seconds)
    (hhigh : 1000 * seconds < 2 ^ 63) : (gmtime seconds).isSome := by
  have hyear := dateOf_year_bounds (seconds / 86400)
  unfold gmtime
  dsimp only
  rw [if_pos]
  · rfl
  · omega

end Msm8916.Calendar
