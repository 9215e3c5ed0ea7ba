import WebServer.Timer.Date

/-!
# Broken-down time

Model of the static functions of `timer/time_zone.{h,cc}`: `toUtcTime` and `fromUtcTime` convert between seconds
since the epoch and `struct tm`, in UTC, by the formulas of `timer/date.cc`.

`gmtime` and `timegm` are the functions of the C library for the same purpose, by the calendar. They are inverse
to each other (`timegm_gmtime`), and the code agrees with them.
-/

namespace WebServer.Timer

open Net Log Lib

/-- `struct tm`; a null `tm_zone` is `none`. -/
structure Tm where
  tm_sec : Int
  tm_min : Int
  tm_hour : Int
  tm_mday : Int
  tm_mon : Int
  tm_year : Int
  tm_wday : Int
  tm_yday : Int
  tm_isdst : Int
  tm_gmtoff : Int
  tm_zone : Option Bytes
deriving DecidableEq, Repr

/-- The day of the year is kept or left out. -/
def Tm.keepYday (tm : Tm) (yday : Bool) : Tm := { tm with tm_yday := if yday then tm.tm_yday else 0 }

/-- A `struct tm` after `memset`. -/
def Tm.zero : Tm := ⟨0, 0, 0, 0, 0, 0, 0, 0, 0, 0, none⟩

def kSecondsPerDay : Int := 24 * 60 * 60

/-- `fillHMS`; its argument is `unsigned`. -/
def fillHMS (seconds : Int) (utc : Tm) : Tm :=
  let seconds := IntType.unsignedInt.cast seconds
  let minutes := seconds / 60
  { utc with
    tm_sec := IntType.int.cast (seconds % 60)
    tm_min := IntType.int.cast (minutes % 60)
    tm_hour := IntType.int.cast (minutes / 60) }

namespace TimeZone

/-- The day and the second in it that `toUtcTime` computes. -/
def splitDay (secondsSinceEpoch : Int) : Option (Int × Int) := do
  let seconds := IntType.int.cast (secondsSinceEpoch.tmod kSecondsPerDay)
  let days := IntType.int.cast (secondsSinceEpoch.tdiv kSecondsPerDay)
  if seconds < 0 then
    some (← int (days - 1), ← int (seconds + kSecondsPerDay))
  else
    some (days, seconds)

/-- `TimeZone::toUtcTime` -/
def toUtcTime (secondsSinceEpoch : Int) (yday : Bool) : Option Tm := do
  let (days, seconds) ← splitDay secondsSinceEpoch
  let utc := fillHMS seconds { Tm.zero with tm_zone := some (bytes "GMT") }
  let date : Date := ⟨← int (days + Date.kJulianDayOf1970_01_01)⟩
  let ymd ← date.yearMonthDay
  let utc := { utc with
    tm_year := ← int (ymd.year - 1900)
    tm_mon := ← int (ymd.month - 1)
    tm_mday := ymd.day
    tm_wday := ← date.weekDay }
  if yday then
    let startOfYear ← Date.ofYearMonthDay ymd.year 1 1
    some { utc with tm_yday := ← int (date.julianDayNumber_ - startOfYear.julianDayNumber_) }
  else
    some utc

/-- `TimeZone::fromUtcTime(int year, int month, int day, int hour, int minute, int seconds)`; the product of the
    days and their length is of type `time_t`. -/
def fromUtcTimeFields (year month day hour minute seconds : Int) : Option Int := do
  let date ← Date.ofYearMonthDay year month day
  let secondsInDay ← int ((← int ((← int (hour * 3600)) + (← int (minute * 60)))) + seconds)
  let days ← int (date.julianDayNumber_ - Date.kJulianDayOf1970_01_01)
  IntType.long.result ((← IntType.long.result (days * kSecondsPerDay)) + secondsInDay)

/-- `TimeZone::fromUtcTime(const struct tm&)` -/
def fromUtcTime (utc : Tm) : Option Int := do
  fromUtcTimeFields (← int (utc.tm_year + 1900)) (← int (utc.tm_mon + 1)) utc.tm_mday utc.tm_hour utc.tm_min utc.tm_sec

end TimeZone

/-! ## The C library -/

/-- The day number of the first of January 1970. -/
def epochDay : Int := 719468

/-- The broken-down time in UTC that `gmtime_r` gives. -/
def gmtime (t : Int) : Tm :=
  let date := CivilDate.ofDayNumber (t / 86400 + epochDay)
  { tm_sec := t % 60
    tm_min := t / 60 % 60
    tm_hour := t / 3600 % 24
    tm_mday := date.day
    tm_mon := date.month - 1
    tm_year := date.year - 1900
    tm_wday := (t / 86400 + 4) % 7
    tm_yday := date.dayNumber - date.newYear.dayNumber
    tm_isdst := 0
    tm_gmtoff := 0
    tm_zone := some (bytes "GMT") }

/-- The first day of a month that may be counted past the end of the year. -/
def monthDay (year mon : Int) : CivilDate :=
  ⟨year + mon / 12, mon % 12 + 1, 1, by omega, by omega, le_rfl, monthLength_pos⟩

/-- The seconds since the epoch that `timegm` gives; the fields may be outside of their ranges. -/
def timegm (tm : Tm) : Int :=
  ((monthDay (tm.tm_year + 1900) tm.tm_mon).dayNumber - epochDay + (tm.tm_mday - 1)) * 86400 +
    tm.tm_hour * 3600 + tm.tm_min * 60 + tm.tm_sec

/-- Days of one month are as far apart as their numbers. -/
lemma dayNumber_monthDay {d : CivilDate} :
    (monthDay d.year (d.month - 1)).dayNumber + (d.day - 1) = d.dayNumber := by
  have ⟨lo, hi, _, _⟩ := d.isDate
  have year : (d.month - 1) / 12 = 0 := by omega
  have month : (d.month - 1) % 12 + 1 = d.month := by omega
  simp only [monthDay, CivilDate.dayNumber, CivilDate.marchYear, CivilDate.marchMonth, year, month,
    Int.add_zero]
  omega

/-- `timegm` undoes `gmtime_r`. -/
lemma timegm_gmtime {t : Int} : timegm (gmtime t) = t := by
  have day := @dayNumber_monthDay (CivilDate.ofDayNumber (t / 86400 + epochDay))
  rw [CivilDate.dayNumber_ofDayNumber] at day
  simp only [timegm, gmtime, Int.sub_add_cancel]
  omega

/-! ## The code and the library -/

section Agree

variable {t : Int}

/-- The seconds since the epoch for which nothing overflows and the Julian day number is at least `-1`. -/
def Representable (t : Int) : Prop := -210866889600 ≤ t ∧ t < 46172011392000

/-- A conversion to `int` keeps what is in its range. -/
lemma int_cast_eq {z : Int} (lo : -2147483648 ≤ z) (hi : z ≤ 2147483647) : IntType.int.cast z = z := by
  apply IntType.cast_eq
  constructor <;> simp only [IntType.minValue, IntType.maxValue, IntType.signed, IntType.width, if_true] <;> omega

/-- A conversion to `unsigned int` keeps what is in its range. -/
lemma unsigned_cast_eq {z : Int} (lo : 0 ≤ z) (hi : z ≤ 4294967295) : IntType.unsignedInt.cast z = z := by
  apply IntType.cast_eq
  constructor <;>
    simp only [IntType.minValue, IntType.maxValue, IntType.signed, IntType.width, Bool.false_eq_true, if_false] <;> omega

/-- A result in the range of an `int64_t` does not overflow. -/
lemma long_eq {z : Int} (lo : -9223372036854775808 ≤ z) (hi : z ≤ 9223372036854775807) :
    IntType.long.result z = some z := by
  apply IntType.result_eq
  constructor <;> simp only [IntType.minValue, IntType.maxValue, IntType.signed, IntType.width, if_true] <;> omega

/-- The correction of negative remainders gives the day and the second counted downwards. -/
lemma splitDay_eq (h : Representable t) : TimeZone.splitDay t = some (t / 86400, t % 86400) := by
  obtain ⟨lo, hi⟩ := h
  have day : kSecondsPerDay = 86400 := rfl
  by_cases whole : 0 ≤ t ∨ (86400 : Int) ∣ t
  · have rem : t.tmod 86400 = t % 86400 := by
      rw [Int.tmod_eq_emod, if_pos whole]
      exact Int.sub_zero _
    have quot : t.tdiv 86400 = t / 86400 := by
      rw [Int.tdiv_eq_ediv, if_pos whole, Int.add_zero]
    rw [TimeZone.splitDay, day, rem, quot, int_cast_eq (by omega) (by omega), int_cast_eq (by omega) (by omega),
      if_neg (by omega)]
  · have rem : t.tmod 86400 = t % 86400 - 86400 := by
      rw [Int.tmod_eq_emod, if_neg whole]
      rfl
    have quot : t.tdiv 86400 = t / 86400 + 1 := by
      rw [Int.tdiv_eq_ediv, if_neg whole]
      rfl
    rw [TimeZone.splitDay, day, rem, quot, int_cast_eq (by omega) (by omega), int_cast_eq (by omega) (by omega),
      if_pos (by omega), int_bind (by omega) (by omega), int_bind (by omega) (by omega), Int.add_sub_cancel,
      Int.sub_add_cancel]

/-- `fillHMS` writes the hour, the minute and the second of the day. -/
lemma fillHMS_eq {utc : Tm} :
    fillHMS (t % 86400) utc = { utc with tm_sec := t % 60, tm_min := t / 60 % 60, tm_hour := t / 3600 % 24 } := by
  rw [fillHMS, unsigned_cast_eq (by omega) (by omega), int_cast_eq (by omega) (by omega),
    int_cast_eq (by omega) (by omega), int_cast_eq (by omega) (by omega)]
  congr 1 <;> omega

/-- The day of the week, for a Julian day number that is not before `-1`. -/
lemma weekDay_eq {days : Int} (lo : -2440589 ≤ days) (hi : days ≤ 2000000000) :
    Date.weekDay ⟨days + 2440588⟩ = some ((days + 4) % 7) := by
  rw [Date.weekDay, int_bind (by dsimp only; omega) (by dsimp only; omega), Date.kDaysPerWeek,
    Int.tmod_eq_emod_of_nonneg (by dsimp only; omega), Option.some.injEq]
  dsimp only
  omega

/-- The day number of the first of January. -/
lemma ofYearMonthDay_newYear {d : CivilDate} (h : Counted d.newYear) :
    Date.ofYearMonthDay d.year 1 1 = some ⟨d.newYear.dayNumber + marchOfYearZero⟩ := by
  have eq : getJulianDayNumber d.year 1 1 = some (d.newYear.dayNumber + marchOfYearZero) := getJulianDayNumber_eq h
  rw [Date.ofYearMonthDay, eq]
  rfl

/-- `toUtcTime` does what `gmtime_r` does, but for the day of the year if that is not asked for. -/
lemma toUtcTime_eq (h : Representable t) (yday : Bool) :
    TimeZone.toUtcTime t yday = some ((gmtime t).keepYday yday) := by
  have lo := h.1
  have hi := h.2
  have epoch : t / 86400 + 2440588 - marchOfYearZero = t / 86400 + epochDay := by
    rw [marchOfYearZero, epochDay]
    omega
  have civil : getYearMonthDay (t / 86400 + 2440588) =
      some (.ofCivil (CivilDate.ofDayNumber (t / 86400 + epochDay))) := by
    rw [getYearMonthDay_eq ⟨by omega, by omega⟩, epoch]
  have number : (CivilDate.ofDayNumber (t / 86400 + epochDay)).dayNumber = t / 86400 + epochDay :=
    CivilDate.dayNumber_ofDayNumber
  unfold gmtime Tm.keepYday
  generalize CivilDate.ofDayNumber (t / 86400 + epochDay) = d at civil number ⊢
  have year := d.newYear_mem
  have counted : Counted d.newYear := by
    unfold epochDay at number
    exact ⟨by omega, by omega⟩
  obtain ⟨month_pos, month_le, _, _⟩ := d.isDate
  have year_mem : -4799 ≤ d.year ∧ d.year ≤ 5795201 := by
    have := counted.year
    have january : d.newYear.marchYear = d.year - 1 := rfl
    omega
  rw [TimeZone.toUtcTime, splitDay_eq h, Option.bind_eq_bind, Option.bind_some]
  dsimp only
  rw [fillHMS_eq, Date.kJulianDayOf1970_01_01, int_bind (by omega) (by omega), Date.yearMonthDay, civil,
    Option.bind_eq_bind, Option.bind_some]
  dsimp only [YearMonthDay.ofCivil]
  rw [int_bind (by omega) (by omega), int_bind (by omega) (by omega), weekDay_eq (by omega) (by omega),
    Option.bind_eq_bind, Option.bind_some]
  cases yday with
  | false => rfl
  | true =>
    have past : t / 86400 + 2440588 - (d.newYear.dayNumber + marchOfYearZero) =
        d.dayNumber - d.newYear.dayNumber := by
      unfold marchOfYearZero epochDay at *
      omega
    rw [if_pos rfl, ofYearMonthDay_newYear counted, Option.bind_eq_bind, Option.bind_some]
    dsimp only
    rw [past, int_eq (by omega) (by omega)]
    rfl

/-- The fields are in the ranges of `struct tm`, and the year is one in which days can be counted. -/
structure Tm.InRanges (tm : Tm) : Prop where
  year : -6699 ≤ tm.tm_year ∧ tm.tm_year ≤ 4998100
  month : 0 ≤ tm.tm_mon ∧ tm.tm_mon ≤ 11
  day : 1 ≤ tm.tm_mday ∧ tm.tm_mday ≤ 31
  hour : 0 ≤ tm.tm_hour ∧ tm.tm_hour ≤ 23
  minute : 0 ≤ tm.tm_min ∧ tm.tm_min ≤ 59
  second : 0 ≤ tm.tm_sec ∧ tm.tm_sec ≤ 60

/-- The first days of the months of these years are counted. -/
lemma counted_monthDay {year mon : Int} (hy : -4799 ≤ year ∧ year ≤ 5000000) (hm : 0 ≤ mon ∧ mon ≤ 11) :
    Counted (monthDay year mon) := by
  have y : year + mon / 12 = year := by omega
  have := @dayNumber_of_year (monthDay year mon) (by
    simp only [CivilDate.marchYear, monthDay, y]
    split <;> omega)
  exact ⟨by omega, by omega⟩

/-- `fromUtcTime` does what `timegm` does, also for days past the end of a month. -/
lemma fromUtcTime_eq {tm : Tm} (h : tm.InRanges) : TimeZone.fromUtcTime tm = some (timegm tm) := by
  have ⟨year, month, day, hour, minute, second⟩ := h
  have counted := @counted_monthDay (tm.tm_year + 1900) tm.tm_mon (by omega) month
  have number : Date.ofYearMonthDay (tm.tm_year + 1900) (tm.tm_mon + 1) tm.tm_mday =
      some ⟨(monthDay (tm.tm_year + 1900) tm.tm_mon).dayNumber + (tm.tm_mday - 1) + marchOfYearZero⟩ := by
    have eq := getJulianDayNumber_add (k := tm.tm_mday - 1) counted (by omega)
    have y : tm.tm_year + 1900 + tm.tm_mon / 12 = tm.tm_year + 1900 := by omega
    have m : tm.tm_mon % 12 + 1 = tm.tm_mon + 1 := by omega
    have d : 1 + (tm.tm_mday - 1) = tm.tm_mday := by omega
    simp only [monthDay, y, m, d] at eq
    simp only [monthDay, y, m]
    rw [Date.ofYearMonthDay, eq]
    rfl
  obtain ⟨lo, hi⟩ := counted
  unfold timegm
  generalize (monthDay (tm.tm_year + 1900) tm.tm_mon).dayNumber = n at number lo hi
  unfold TimeZone.fromUtcTime TimeZone.fromUtcTimeFields marchOfYearZero at *
  rw [int_bind (by omega) (by omega), int_bind (by omega) (by omega), number, Option.bind_eq_bind,
    Option.bind_some, int_bind (by omega) (by omega),
    int_bind (by omega) (by omega), int_bind (by omega) (by omega), int_bind (by omega) (by omega)]
  dsimp only [Date.kJulianDayOf1970_01_01, kSecondsPerDay]
  rw [int_bind (by omega) (by omega), long_eq (by omega) (by omega), Option.bind_eq_bind, Option.bind_some,
    long_eq (by omega) (by omega), Option.some.injEq, epochDay]
  omega

/-- The fields that `gmtime_r` gives are in the ranges of `struct tm`. -/
lemma gmtime_inRanges (h : Representable t) : (gmtime t).InRanges := by
  obtain ⟨lo, hi⟩ := h
  have number : (CivilDate.ofDayNumber (t / 86400 + epochDay)).dayNumber = t / 86400 + epochDay :=
    CivilDate.dayNumber_ofDayNumber
  unfold gmtime
  generalize CivilDate.ofDayNumber (t / 86400 + epochDay) = d at number
  have ⟨month_pos, month_le, day_pos, day_le⟩ := d.isDate
  have year : -4799 ≤ d.year ∧ d.year ≤ 1470000 := by
    have start : CivilDate.yearStart (-4799) = -1752799 := by decide
    have stop : CivilDate.yearStart 1469999 = 536906109 := by decide
    have lo' := @CivilDate.dayNumber_lt_yearStart d
    have hi' := @CivilDate.yearStart_le_dayNumber d
    unfold epochDay at number
    have ge : CivilDate.yearStart (-4799) < CivilDate.yearStart (d.marchYear + 1) := by omega
    have le : CivilDate.yearStart d.marchYear < CivilDate.yearStart 1469999 := by omega
    rw [CivilDate.yearStart_strictMono.lt_iff_lt] at ge le
    unfold CivilDate.marchYear at ge le
    split at ge <;> split at le <;> omega
  have long : d.day ≤ 31 := by
    unfold monthLength at day_le
    split_ifs at day_le <;> omega
  constructor <;> dsimp only <;> omega

end Agree

/-- On every time whose day number is at least `-1` and small enough to be computed without overflow, `toUtcTime`
    gives the broken-down time of `gmtime_r`, up to the day of the year if that is not asked for, and `fromUtcTime`
    takes it back to the time. -/
theorem toUtcTime_roundtrip (t : Int) (yday : Bool) (h : Representable t) :
    TimeZone.toUtcTime t yday = some ((gmtime t).keepYday yday) ∧
      TimeZone.fromUtcTime ((gmtime t).keepYday yday) = some t := by
  refine ⟨toUtcTime_eq h yday, ?_⟩
  have ⟨year, month, day, hour, minute, second⟩ := gmtime_inRanges h
  have ranges : ((gmtime t).keepYday yday).InRanges := ⟨year, month, day, hour, minute, second⟩
  have eq : timegm ((gmtime t).keepYday yday) = t := timegm_gmtime
  rw [fromUtcTime_eq ranges, eq]

/-- The last second of the year before the epoch. -/
theorem toUtcTime_roundtrip_before_epoch :
    TimeZone.toUtcTime (-1) true = some ((gmtime (-1)).keepYday true) ∧
      TimeZone.fromUtcTime ((gmtime (-1)).keepYday true) = some (-1) :=
  toUtcTime_roundtrip (-1) true ⟨by decide, by decide⟩

example : TimeZone.toUtcTime (-1) true =
    some ⟨59, 59, 23, 31, 11, 69, 3, 364, 0, 0, some (bytes "GMT")⟩ := by decide +kernel

/-- `fromUtcTime` gives what `timegm` gives for every broken-down time whose fields are in the ranges of `struct tm`,
    whether the month has that day or not. -/
theorem fromUtcTime_timegm (tm : Tm) (h : tm.InRanges) : TimeZone.fromUtcTime tm = some (timegm tm) :=
  fromUtcTime_eq h

/-- The 31st of February 2000 at 23:59:60. -/
theorem fromUtcTime_timegm_past_february :
    TimeZone.fromUtcTime ⟨60, 59, 23, 31, 1, 100, 0, 0, 0, 0, none⟩ =
      some (timegm ⟨60, 59, 23, 31, 1, 100, 0, 0, 0, 0, none⟩) :=
  fromUtcTime_timegm _ (by constructor <;> decide)

end WebServer.Timer
