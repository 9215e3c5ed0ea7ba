import WebServer.Lib.Calendar
import WebServer.Log.Convert

/-!
# Dates

Model of `timer/date.{h,cc}`: dates as Julian day numbers. The arithmetic is that of `int`: division goes towards
zero and overflow is undefined (`none`).

`getYearMonthDay` and `getJulianDayNumber` are the day numbers of the calendar, counted from another day, where
nothing overflows or is negative.
-/

namespace WebServer.Timer

open Net Log Lib

/-- The result of an operation on `int`. -/
def int (z : Int) : Option Int := IntType.int.result z

/-- `struct Date::YearMonthDay` -/
structure YearMonthDay where
  year : Int
  month : Int
  day : Int
deriving DecidableEq, Repr

/-- `getJulianDayNumber` -/
def getJulianDayNumber (year month day : Int) : Option Int := do
  let a := (← int (14 - month)).tdiv 12
  let y ← int ((← int (year + 4800)) - a)
  let m ← int ((← int (month + (← int (12 * a)))) - 3)
  let sum ← int (day + (← int ((← int (153 * m)) + 2)).tdiv 5)
  let sum ← int (sum + (← int (y * 365)))
  let sum ← int (sum + y.tdiv 4)
  let sum ← int (sum - y.tdiv 100)
  let sum ← int (sum + y.tdiv 400)
  int (sum - 32045)

/-- `getYearMonthDay` -/
def getYearMonthDay (julianDayNumber : Int) : Option YearMonthDay := do
  let a ← int (julianDayNumber + 32044)
  let b := (← int ((← int (4 * a)) + 3)).tdiv 146097
  let c ← int (a - (← int (b * 146097)).tdiv 4)
  let d := (← int ((← int (4 * c)) + 3)).tdiv 1461
  let e ← int (c - (← int (1461 * d)).tdiv 4)
  let m := (← int ((← int (5 * e)) + 2)).tdiv 153
  let day ← int ((← int (e - (← int ((← int (153 * m)) + 2)).tdiv 5)) + 1)
  let month ← int ((← int (m + 3)) - (← int (12 * m.tdiv 10)))
  let year ← int ((← int ((← int ((← int (b * 100)) + d)) - 4800)) + m.tdiv 10)
  some ⟨year, month, day⟩

/-- `class Date` -/
structure Date where
  julianDayNumber_ : Int
deriving DecidableEq, Repr

namespace Date

def kDaysPerWeek : Int := 7

/-- `Date::kJulianDayOf1970_01_01` -/
def kJulianDayOf1970_01_01 : Int := 2440588

/-- `Date::Date(int year, int month, int day)` -/
def ofYearMonthDay (year month day : Int) : Option Date := do
  some ⟨← getJulianDayNumber year month day⟩

/-- `Date::yearMonthDay` -/
def yearMonthDay (date : Date) : Option YearMonthDay := getYearMonthDay date.julianDayNumber_

/-- `Date::weekDay` -/
def weekDay (date : Date) : Option Int := do
  some ((← int (date.julianDayNumber_ + 1)).tmod kDaysPerWeek)

example : getJulianDayNumber 1970 1 1 = some kJulianDayOf1970_01_01 := by decide

end Date

/-- The date as the code has it. -/
def YearMonthDay.ofCivil (d : CivilDate) : YearMonthDay := ⟨d.year, d.month, d.day⟩

/-! ## The formulas -/

/-- The Julian day number of the first of March of the year 0. -/
def marchOfYearZero : Int := 1721120

/-- The Julian day numbers whose dates `getYearMonthDay` can compute: from the first of March 4801 BC on, as long
    as four times the number of days since then is an `int`. -/
def InRange (j : Int) : Prop := -32044 ≤ j ∧ j ≤ 536838867

/-- A result in the range of an `int` does not overflow. -/
lemma int_eq {z : Int} (lo : -2147483648 ≤ z) (hi : z ≤ 2147483647) : int z = some z := by
  apply IntType.result_eq
  constructor <;> simp only [IntType.minValue, IntType.maxValue, IntType.signed, IntType.width, if_true] <;> omega

/-- A result outside of the range of an `int` is undefined. -/
lemma int_none {z : Int} (h : z < -2147483648 ∨ 2147483647 < z) : int z = none := by
  rw [int, IntType.result, if_pos]
  refine ⟨rfl, fun fits => ?_⟩
  obtain ⟨lo, hi⟩ := fits
  simp only [IntType.minValue, IntType.maxValue, IntType.signed, IntType.width, if_true] at lo hi
  omega

/-- An operation that does not overflow, in a computation. -/
lemma int_bind {α : Type} {z : Int} {f : Int → Option α} (lo : -2147483648 ≤ z) (hi : z ≤ 2147483647) :
    (int z >>= f) = f z := by
  rw [int_eq lo hi]
  rfl

section Formulas

open CivilDate

variable {j a b c d e m s y : Int}

/-- What `getYearMonthDay` computes from its intermediate values, when these are as small as those of a day. -/
lemma getYearMonthDay_parts (ha : 0 ≤ a ∧ a ≤ 536870911) (hb : 0 ≤ b ∧ b ≤ 14699) (hc : 0 ≤ c ∧ c ≤ 36524)
    (hd : 0 ≤ d ∧ d ≤ 99) (he : 0 ≤ e ∧ e ≤ 365) (hm : 0 ≤ m ∧ m ≤ 11) (hs : 0 ≤ s ∧ s ≤ e)
    (hq : 0 ≤ m.tdiv 10 ∧ m.tdiv 10 ≤ 1) (eb : (4 * a + 3).tdiv 146097 = b) (ec : a - (b * 146097).tdiv 4 = c)
    (ed : (4 * c + 3).tdiv 1461 = d) (ee : c - (1461 * d).tdiv 4 = e) (em : (5 * e + 2).tdiv 153 = m)
    (es : (153 * m + 2).tdiv 5 = s) :
    getYearMonthDay (a - 32044) =
      some ⟨b * 100 + d - 4800 + m.tdiv 10, m + 3 - 12 * m.tdiv 10, e - s + 1⟩ := by
  unfold getYearMonthDay
  rw [Int.sub_add_cancel, int_bind, int_bind, int_bind, eb, int_bind, ec, int_bind, int_bind, int_bind, ed,
    int_bind, ee, int_bind, int_bind, int_bind, em, int_bind, int_bind, es, int_bind, int_bind, int_bind, int_bind,
    int_bind, int_bind, int_bind, int_bind, int_bind]
  all_goals omega

/-- The code counts the centuries from 48 centuries before the year 0. -/
lemma century_shift : century (a - 1753164) = century a - 48 := by
  unfold century
  omega

/-- The day of the century does not change with the origin of the count. -/
lemma dayOfCentury_shift : dayOfCentury (a - 1753164) = dayOfCentury a := by
  rw [dayOfCentury, century_shift, dayOfCentury]
  omega

/-- On a day number in range `getYearMonthDay` gives its date. -/
lemma getYearMonthDay_eq (h : InRange j) :
    getYearMonthDay j = some (.ofCivil (ofDayNumber (j - marchOfYearZero))) := by
  obtain ⟨a, rfl⟩ : ∃ a, j = a - 32044 := ⟨j + 32044, by omega⟩
  obtain ⟨lo, hi⟩ := h
  have hb : 0 ≤ century a ∧ century a ≤ 14699 := by
    unfold century
    omega
  have hc : 0 ≤ dayOfCentury a ∧ dayOfCentury a ≤ 36524 := ⟨dayOfCentury_mem.1, dayOfCentury_le⟩
  have hd := yearOfCentury_mem hc.1 hc.2
  have he : 0 ≤ dayOf a ∧ dayOf a ≤ 365 := ⟨dayOf_mem.1, dayOf_le⟩
  have hm := monthOfYear_mem he.1 he.2
  have hs : 0 ≤ monthStart (monthOfYear (dayOf a)) ∧ monthStart (monthOfYear (dayOf a)) ≤ dayOf a := by
    refine ⟨?_, monthStart_monthOfYear.1⟩
    unfold monthStart
    omega
  have tenth : (monthOfYear (dayOf a)).tdiv 10 = if monthOfYear (dayOf a) < 10 then 0 else 1 := by
    rw [Int.tdiv_eq_ediv_of_nonneg hm.1]
    split <;> omega
  have parts := getYearMonthDay_parts (a := a) (by omega) hb hc hd he hm hs
    (by rw [tenth]; split <;> omega)
    (Int.tdiv_eq_ediv_of_nonneg (by omega))
    (by rw [Int.tdiv_eq_ediv_of_nonneg (by omega), Int.mul_comm]; rfl)
    (Int.tdiv_eq_ediv_of_nonneg (by omega))
    (by rw [Int.tdiv_eq_ediv_of_nonneg (by omega)]; rfl)
    (Int.tdiv_eq_ediv_of_nonneg (by omega)) (Int.tdiv_eq_ediv_of_nonneg (by omega))
  have shift : a - 32044 - marchOfYearZero = a - 1753164 := by
    rw [marchOfYearZero]
    omega
  have same : dayOf (a - 1753164) = dayOf a := congrArg dayOfYear dayOfCentury_shift
  rw [parts, shift, tenth, Option.some.injEq]
  simp only [ofDayNumber, YearMonthDay.ofCivil, yearOf, century_shift, dayOfCentury_shift, same,
    YearMonthDay.mk.injEq]
  refine ⟨?_, ?_, trivial⟩ <;> split <;> omega

/-- Later days overflow. -/
lemma getYearMonthDay_none (h : 536838867 < j) : getYearMonthDay j = none := by
  unfold getYearMonthDay
  by_cases big : 2147483647 < j + 32044
  · rw [int_none (.inr big)]
    rfl
  · rw [int_bind (by omega) (by omega)]
    by_cases four : 2147483647 < 4 * (j + 32044)
    · rw [int_none (.inr four)]
      rfl
    · rw [int_bind (by omega) (by omega), int_none (.inr (by omega))]
      rfl

/-- What `getJulianDayNumber` computes, with `a` and the month counted from March. -/
lemma getJulianDayNumber_parts {year month day : Int} (ha : 0 ≤ a ∧ a ≤ 1) (hm : 0 ≤ m ∧ m ≤ 11)
    (hy : 0 ≤ y ∧ y ≤ 5800000) (hk : -2147483648 ≤ day + monthStart m - 32045 ∧ day ≤ 20000000)
    (ea : (14 - month).tdiv 12 = a) (ey : year + 4800 - a = y) (em : month + 12 * a - 3 = m) :
    getJulianDayNumber year month day = some (day + monthStart m + yearStart y - 32045) := by
  have month_mem : 0 ≤ monthStart m ∧ monthStart m ≤ 337 := by
    unfold monthStart
    omega
  have es : (153 * m + 2).tdiv 5 = monthStart m := Int.tdiv_eq_ediv_of_nonneg (by omega)
  have quarter : y.tdiv 4 = y / 4 := Int.tdiv_eq_ediv_of_nonneg hy.1
  have hundredth : y.tdiv 100 = y / 100 := Int.tdiv_eq_ediv_of_nonneg hy.1
  have cycle : y.tdiv 400 = y / 400 := Int.tdiv_eq_ediv_of_nonneg hy.1
  unfold getJulianDayNumber
  rw [int_bind, ea, int_bind, int_bind, ey, int_bind, int_bind, int_bind, em, int_bind, int_bind, es, int_bind,
    int_bind, int_bind, quarter, int_bind, hundredth, int_bind, cycle, int_bind, int_eq, Option.some.injEq]
  · unfold yearStart
    omega
  all_goals omega

/-- The dates from the first of March 4801 BC on whose day numbers are far from overflow. -/
def Counted (d : CivilDate) : Prop := -1753164 ≤ d.dayNumber ∧ d.dayNumber ≤ 2000000000

/-- The start of a year, counted from 4800 BC. -/
lemma yearStart_shift : yearStart (y + 4800) = yearStart y + 1753164 := by
  unfold yearStart
  omega

/-- The years of the dates that are counted. -/
lemma Counted.year {d : CivilDate} (h : Counted d) : -4800 ≤ d.marchYear ∧ d.marchYear ≤ 5795200 := by
  have start : yearStart (-4800) = -1753164 := by decide
  have stop : yearStart 5795200 = 2116653336 := by decide
  have lo : yearStart (-4800) < yearStart (d.marchYear + 1) := by
    have := @dayNumber_lt_yearStart d
    have := h.1
    omega
  have hi : yearStart d.marchYear < yearStart 5795200 := by
    have := @yearStart_le_dayNumber d
    have := h.2
    omega
  rw [yearStart_strictMono.lt_iff_lt] at lo hi
  omega

/-- The day numbers of the years that are meant to be counted. -/
lemma dayNumber_of_year {d : CivilDate} (h : -4800 ≤ d.marchYear ∧ d.marchYear ≤ 5000000) :
    -1753164 ≤ d.dayNumber ∧ d.dayNumber < 1826212865 := by
  have start : yearStart (-4800) = -1753164 := by decide
  have stop : yearStart (5000000 + 1) = 1826212865 := by decide
  have lo := yearStart_strictMono.monotone h.1
  have hi := yearStart_strictMono.monotone (Int.add_le_add_right h.2 1)
  have := @yearStart_le_dayNumber d
  have := @dayNumber_lt_yearStart d
  omega

/-- The days after a date in its month, and those past the end of the month. -/
lemma getJulianDayNumber_add {d : CivilDate} {k : Int} (h : Counted d) (hk : 0 ≤ k ∧ k ≤ 31) :
    getJulianDayNumber d.year d.month (d.day + k) = some (d.dayNumber + k + marchOfYearZero) := by
  have ⟨lo, hi, pos, _⟩ := d.isDate
  have day_le : d.day ≤ 31 := by
    have le := d.isDate.day_le
    unfold monthLength at le
    split_ifs at le <;> omega
  have month_mem := d.marchMonth_mem
  have day_mem := d.marchDay_nonneg
  have early : (14 - d.month).tdiv 12 = if d.month ≤ 2 then 1 else 0 := by
    rw [Int.tdiv_eq_ediv_of_nonneg (by omega)]
    split <;> omega
  rw [getJulianDayNumber_parts (a := if d.month ≤ 2 then 1 else 0) (by split <;> omega) month_mem
    (y := d.marchYear + 4800) (by have := h.year; omega) (by omega) early
    (by unfold marchYear; split_ifs <;> omega) (by unfold marchMonth; split_ifs <;> omega)]
  rw [yearStart_shift, dayNumber, marchOfYearZero, Option.some.injEq]
  omega

/-- On a date that is counted `getJulianDayNumber` gives its number. -/
lemma getJulianDayNumber_eq {d : CivilDate} (h : Counted d) :
    getJulianDayNumber d.year d.month d.day = some (d.dayNumber + marchOfYearZero) := by
  have eq := getJulianDayNumber_add (k := 0) h (by decide)
  rw [Int.add_zero, Int.add_zero] at eq
  exact eq

end Formulas

/-! ## The day count -/

/-- Every Julian day number in range is that of a date of the calendar, which `getYearMonthDay` gives without
    overflow and `getJulianDayNumber` takes back to the number, and the next number is that of the next day. On
    later numbers `getYearMonthDay` overflows. -/
theorem getYearMonthDay_roundtrip (j : Int) (h : -32044 ≤ j) :
    (j ≤ 536838867 →
      ∃ d : CivilDate, getYearMonthDay j = some (.ofCivil d) ∧ getJulianDayNumber d.year d.month d.day = some j ∧
        (j + 1 ≤ 536838867 → getYearMonthDay (j + 1) = some (.ofCivil d.next))) ∧
    (536838867 < j → getYearMonthDay j = none) := by
  refine ⟨fun le => ?_, getYearMonthDay_none⟩
  have inRange : InRange j := ⟨h, le⟩
  refine ⟨CivilDate.ofDayNumber (j - marchOfYearZero), getYearMonthDay_eq inRange, ?_, fun le' => ?_⟩
  · rw [getJulianDayNumber_eq, CivilDate.dayNumber_ofDayNumber, Int.sub_add_cancel]
    rw [Counted, CivilDate.dayNumber_ofDayNumber, marchOfYearZero]
    omega
  · have succ : j + 1 - marchOfYearZero = j - marchOfYearZero + 1 := by omega
    rw [getYearMonthDay_eq ⟨by omega, le'⟩, succ, CivilDate.ofDayNumber_succ]

/-- The first of January 1970, and the day after the last one in range. -/
theorem getYearMonthDay_roundtrip_epoch :
    (∃ d : CivilDate, getYearMonthDay 2440588 = some (.ofCivil d) ∧
      getJulianDayNumber d.year d.month d.day = some 2440588) ∧
    getYearMonthDay 536838868 = none := by
  obtain ⟨d, e, back, -⟩ := (getYearMonthDay_roundtrip 2440588 (by decide)).1 (by decide)
  exact ⟨⟨d, e, back⟩, (getYearMonthDay_roundtrip 536838868 (by decide)).2 (by decide)⟩

/-- `getJulianDayNumber` counts the days: it does not overflow on the dates from the first of March 4801 BC to the
    year 5 000 000, keeps their order, goes up by one from a day to the next and is undone by `getYearMonthDay`
    where that does not overflow. -/
theorem getJulianDayNumber_counts (d e : CivilDate) (hd : -4800 ≤ d.marchYear ∧ d.year ≤ 5000000)
    (he : -4800 ≤ e.marchYear ∧ e.year ≤ 5000000) :
    ∃ i j, getJulianDayNumber d.year d.month d.day = some i ∧ getJulianDayNumber e.year e.month e.day = some j ∧
      (i < j ↔ d < e) ∧ getJulianDayNumber d.next.year d.next.month d.next.day = some (i + 1) ∧
      (i ≤ 536838867 → getYearMonthDay i = some (.ofCivil d)) := by
  have number {d : CivilDate} (h : -4800 ≤ d.marchYear ∧ d.year ≤ 5000000) :
      -1753164 ≤ d.dayNumber ∧ d.dayNumber < 1826212865 := by
    refine dayNumber_of_year ⟨h.1, ?_⟩
    unfold CivilDate.marchYear
    split <;> omega
  have counted {d : CivilDate} (h : -4800 ≤ d.marchYear ∧ d.year ≤ 5000000) : Counted d := by
    have := number h
    exact ⟨by omega, by omega⟩
  have next : Counted d.next := by
    have := number hd
    rw [Counted, CivilDate.dayNumber_next]
    omega
  refine ⟨_, _, getJulianDayNumber_eq (counted hd), getJulianDayNumber_eq (counted he), ?_, ?_, fun le => ?_⟩
  · rw [← CivilDate.dayNumber_lt]
    omega
  · rw [getJulianDayNumber_eq next, CivilDate.dayNumber_next, Option.some.injEq]
    omega
  · have ge : -32044 ≤ d.dayNumber + marchOfYearZero := by
      have := number hd
      rw [marchOfYearZero]
      omega
    rw [getYearMonthDay_eq ⟨ge, le⟩, Int.add_sub_cancel, CivilDate.ofDayNumber_dayNumber]

/-- The last day of February 1900, which is no leap year, with the day after it, and the leap day of 2000. -/
theorem getJulianDayNumber_counts_february :
    ∃ i j, getJulianDayNumber 1900 2 28 = some i ∧ getJulianDayNumber 2000 2 29 = some j ∧
      (i < j ↔ (⟨1900, 2, 28, by decide⟩ : CivilDate) < ⟨2000, 2, 29, by decide⟩) ∧
      getJulianDayNumber 1900 3 1 = some (i + 1) := by
  obtain ⟨i, j, ei, ej, lt, next, -⟩ := getJulianDayNumber_counts ⟨1900, 2, 28, by decide⟩ ⟨2000, 2, 29, by decide⟩
    (by decide) (by decide)
  exact ⟨i, j, ei, ej, lt, next⟩

end WebServer.Timer
