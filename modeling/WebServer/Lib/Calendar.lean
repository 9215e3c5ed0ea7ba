import Mathlib.Tactic
import Mathlib.Order.SuccPred.Basic

/-!
# The Gregorian calendar

The dates of the Gregorian calendar, extended to all years, as leap years and lengths of months give them: the
only thing said about the order of the days is the day that follows a date (`CivilDate.next`).

A day number counts the days since the first of March of the year 0. The years are taken to begin in March, so
that the leap day is the last day of a year and the lengths of the months before it follow one rule, `marchMonth`.
`dayNumber` and `ofDayNumber` are inverse to each other (`ofDayNumber_dayNumber`, `dayNumber_ofDayNumber`), go up
by one from a day to the next (`dayNumber_next`), and so keep the order (`dayNumber_lt`).
-/

namespace WebServer.Lib

/-- A year with a 29th of February. -/
def isLeap (year : Int) : Bool := year % 4 = 0 ∧ (year % 100 ≠ 0 ∨ year % 400 = 0)

/-- The rule for leap years. -/
lemma isLeap_iff {year : Int} :
    isLeap year = true ↔ year % 4 = 0 ∧ (year % 100 ≠ 0 ∨ year % 400 = 0) :=
  decide_eq_true_iff

def monthLength (year month : Int) : Int :=
  if month = 2 then
    if isLeap year then 29 else 28
  else if month = 4 ∨ month = 6 ∨ month = 9 ∨ month = 11 then
    30
  else
    31

/-- The day is one of the month, and the month one of the year. -/
structure IsDate (year month day : Int) : Prop where
  month_pos : 1 ≤ month
  month_le : month ≤ 12
  day_pos : 1 ≤ day
  day_le : day ≤ monthLength year month

instance (year month day : Int) : Decidable (IsDate year month day) :=
  decidable_of_iff (1 ≤ month ∧ month ≤ 12 ∧ 1 ≤ day ∧ day ≤ monthLength year month)
    ⟨fun ⟨a, b, c, d⟩ => ⟨a, b, c, d⟩, fun h => ⟨h.1, h.2, h.3, h.4⟩⟩

/-- Every month has a day. -/
lemma monthLength_pos {year month : Int} : 1 ≤ monthLength year month := by
  unfold monthLength
  split_ifs <;> omega

/-- February has at most 29 days. -/
lemma february_le {year : Int} : monthLength year 2 ≤ 29 := by
  rw [monthLength, if_pos rfl]
  split <;> omega

/-- A date of the calendar. -/
@[ext]
structure CivilDate where
  year : Int
  month : Int
  day : Int
  isDate : IsDate year month day
deriving DecidableEq

namespace CivilDate

/-- The day after one that is not the last of its month. -/
lemma next_day {year month day : Int} (h : IsDate year month day) (more : day < monthLength year month) :
    IsDate year month (day + 1) :=
  ⟨h.month_pos, h.month_le, by have := h.day_pos; omega, more⟩

/-- The first day of a month after one that is not December. -/
lemma next_month {year month day : Int} (h : IsDate year month day) (more : month < 12) :
    IsDate year (month + 1) 1 :=
  ⟨by have := h.month_pos; omega, more, le_rfl, monthLength_pos⟩

/-- The day after. -/
def next (d : CivilDate) : CivilDate :=
  if h : d.day < monthLength d.year d.month then
    ⟨d.year, d.month, d.day + 1, next_day d.isDate h⟩
  else if h : d.month < 12 then
    ⟨d.year, d.month + 1, 1, next_month d.isDate h⟩
  else
    ⟨d.year + 1, 1, 1, by decide, by decide, le_rfl, monthLength_pos⟩

/-- The first of January of the same year. -/
def newYear (d : CivilDate) : CivilDate := ⟨d.year, 1, 1, by decide, by decide, le_rfl, monthLength_pos⟩

/-- Dates are ordered by year, month and day. -/
instance : LinearOrder CivilDate :=
  LinearOrder.lift' (fun d => toLex (d.year, toLex (d.month, d.day))) fun d e h => by
    cases d
    cases e
    simpa using h

/-- Dates are ordered by year, then by month, then by day. -/
lemma lt_iff {d e : CivilDate} :
    d < e ↔ d.year < e.year ∨ d.year = e.year ∧ (d.month < e.month ∨ d.month = e.month ∧ d.day < e.day) := by
  change toLex (d.year, toLex (d.month, d.day)) < toLex (e.year, toLex (e.month, e.day)) ↔ _
  simp [Prod.Lex.toLex_lt_toLex]

/-- The next date is later. -/
lemma lt_next {d : CivilDate} : d < d.next := by
  rw [lt_iff]
  unfold next
  split_ifs <;> simp

/-! ## Day numbers -/

/-- The days before a year that begins in March. -/
def yearStart (y : Int) : Int := 365 * y + y / 4 - y / 100 + y / 400

/-- The days before a month in such a year; March is the month `0`. -/
def monthStart (m : Int) : Int := (153 * m + 2) / 5

/-- The year a date is in when years begin in March. -/
def marchYear (d : CivilDate) : Int := if d.month ≤ 2 then d.year - 1 else d.year

/-- The month of a date, counted from March. -/
def marchMonth (d : CivilDate) : Int := if d.month ≤ 2 then d.month + 9 else d.month - 3

/-- The days from the first of March of the year 0 to the date. -/
def dayNumber (d : CivilDate) : Int := yearStart d.marchYear + monthStart d.marchMonth + (d.day - 1)

/-- A month that is not the last of a year that begins in March is as long as the rule says. -/
lemma monthStart_succ {year month : Int} (lo : 1 ≤ month) (hi : month ≤ 12) (feb : month ≠ 2) :
    monthStart ((if month ≤ 2 then month + 9 else month - 3) + 1) =
      monthStart (if month ≤ 2 then month + 9 else month - 3) + monthLength year month := by
  simp only [monthStart, monthLength, if_neg feb]
  interval_cases month
  case «2» => exact absurd rfl feb
  all_goals decide

/-- A year that begins in March ends with the February of the next one. -/
lemma yearStart_succ {y : Int} : yearStart (y + 1) = yearStart y + 337 + monthLength (y + 1) 2 := by
  rw [monthLength, if_pos rfl]
  unfold yearStart
  split
  case isTrue leap =>
    rw [isLeap_iff] at leap
    omega
  case isFalse leap =>
    rw [isLeap_iff] at leap
    omega

/-- The number goes up by one from a day to the next. -/
lemma dayNumber_next {d : CivilDate} : d.next.dayNumber = d.dayNumber + 1 := by
  obtain ⟨year, month, day, h⟩ := d
  unfold next
  dsimp only
  split
  case isTrue more =>
    simp only [dayNumber, marchYear, marchMonth]
    omega
  case isFalse last =>
    have last : day = monthLength year month := le_antisymm h.day_le (by omega)
    split
    case isTrue more =>
      by_cases feb : month = 2
      · subst feb last
        have succ := @yearStart_succ (year - 1)
        rw [Int.sub_add_cancel] at succ
        simp only [dayNumber, marchYear, marchMonth, Int.reduceAdd, Int.reduceLE, if_true, if_false]
        simp only [monthStart, Int.reduceMul, Int.reduceAdd, Int.reduceSub, Int.reduceDiv]
        omega
      · have succ := @monthStart_succ year month h.month_pos h.month_le feb
        have year_eq : (if month + 1 ≤ 2 then year - 1 else year) = if month ≤ 2 then year - 1 else year := by
          have := h.month_pos
          split_ifs <;> omega
        have month_eq : (if month + 1 ≤ 2 then month + 1 + 9 else month + 1 - 3) =
            (if month ≤ 2 then month + 9 else month - 3) + 1 := by
          have := h.month_pos
          split_ifs <;> omega
        simp only [dayNumber, marchYear, marchMonth, year_eq, month_eq, succ, last]
        omega
    case isFalse dec =>
      obtain rfl : month = 12 := le_antisymm h.month_le (by omega)
      subst last
      simp only [dayNumber, marchYear, marchMonth, monthStart, monthLength]
      norm_num
      omega

/-! ## Dates of day numbers -/

/-- The century of a day, where centuries begin in March. -/
def century (n : Int) : Int := (4 * n + 3) / 146097

/-- The day in the century. -/
def dayOfCentury (n : Int) : Int := n - 146097 * century n / 4

/-- The year in the century of a day that is given by its number in the century. -/
def yearOfCentury (c : Int) : Int := (4 * c + 3) / 1461

/-- The day in the year. -/
def dayOfYear (c : Int) : Int := c - 1461 * yearOfCentury c / 4

/-- The month, counted from March, of a day that is given by its number in the year. -/
def monthOfYear (e : Int) : Int := (5 * e + 2) / 153

section Split

variable {n c e b d : Int}

/-- The days of `b` centuries before their leap days, and the leap days. -/
lemma centuryStart : 146097 * b / 4 = 36524 * b + b / 4 := by
  omega

/-- The days of `d` years before their leap days, and the leap days. -/
lemma yearOfCenturyStart : 1461 * d / 4 = 365 * d + d / 4 := by
  omega

/-- The days before a year are those before its century and those in the century. -/
lemma yearStart_split (lo : 0 ≤ d) (hi : d ≤ 99) : yearStart (100 * b + d) = 146097 * b / 4 + 1461 * d / 4 := by
  have quarter : (100 * b + d) / 4 = 25 * b + d / 4 := by omega
  have hundredth : (100 * b + d) / 100 = b := by omega
  have cycle : (100 * b + d) / 400 = b / 4 := by omega
  rw [yearStart, quarter, hundredth, cycle, centuryStart, yearOfCenturyStart]
  omega

/-- Every fourth century has a day more. -/
lemma dayOfCentury_mem :
    0 ≤ dayOfCentury n ∧ (dayOfCentury n ≤ 36523 ∨ dayOfCentury n = 36524 ∧ century n % 4 = 3) := by
  have lo : 146097 * century n ≤ 4 * n + 3 := by
    unfold century
    omega
  have hi : 4 * n + 3 < 146097 * century n + 146097 := by
    unfold century
    omega
  rw [dayOfCentury, centuryStart]
  omega

/-- A day of a century is at most the leap day at its end. -/
lemma dayOfCentury_le : dayOfCentury n ≤ 36524 := by
  have := @dayOfCentury_mem n
  omega

/-- A century has the years 0 to 99. -/
lemma yearOfCentury_mem (lo : 0 ≤ c) (hi : c ≤ 36524) : 0 ≤ yearOfCentury c ∧ yearOfCentury c ≤ 99 := by
  unfold yearOfCentury
  omega

/-- Every fourth year has a day more, but not the last of a century of the usual length. -/
lemma dayOfYear_mem (hi : c ≤ 36524) :
    0 ≤ dayOfYear c ∧ (dayOfYear c ≤ 364 ∨
      dayOfYear c = 365 ∧ yearOfCentury c % 4 = 3 ∧ (yearOfCentury c = 99 → c = 36524)) := by
  have start : 1461 * yearOfCentury c ≤ 4 * c + 3 := by
    unfold yearOfCentury
    omega
  have stop : 4 * c + 3 < 1461 * yearOfCentury c + 1461 := by
    unfold yearOfCentury
    omega
  rw [dayOfYear, yearOfCenturyStart]
  refine ⟨by omega, ?_⟩
  by_cases usual : c - (365 * yearOfCentury c + yearOfCentury c / 4) ≤ 364
  · exact .inl usual
  · exact .inr ⟨by omega, by omega, by omega⟩

/-- A year from March on has the months 0 to 11. -/
lemma monthOfYear_mem (lo : 0 ≤ e) (hi : e ≤ 365) : 0 ≤ monthOfYear e ∧ monthOfYear e ≤ 11 := by
  unfold monthOfYear
  omega

/-- A day lies between the starts of its month and the next one. -/
lemma monthStart_monthOfYear : monthStart (monthOfYear e) ≤ e ∧ e < monthStart (monthOfYear e + 1) := by
  unfold monthStart monthOfYear
  omega

/-- The year of a day, where years begin in March. -/
def yearOf (n : Int) : Int := 100 * century n + yearOfCentury (dayOfCentury n)

/-- The day in that year. -/
def dayOf (n : Int) : Int := dayOfYear (dayOfCentury n)

/-- A day number is the start of its year and the day of the year. -/
lemma yearStart_yearOf : yearStart (yearOf n) + dayOf n = n := by
  have year := yearOfCentury_mem dayOfCentury_mem.1 (@dayOfCentury_le n)
  rw [yearOf, yearStart_split year.1 year.2, dayOf, dayOfYear, dayOfCentury]
  omega

/-- A day lies between the starts of its year and the next one. -/
lemma dayOf_mem : 0 ≤ dayOf n ∧ dayOf n < 337 + monthLength (yearOf n + 1) 2 := by
  have ⟨_, long⟩ := @dayOfCentury_mem n
  have year := yearOfCentury_mem dayOfCentury_mem.1 (@dayOfCentury_le n)
  have ⟨lo, hi⟩ := dayOfYear_mem (@dayOfCentury_le n)
  refine ⟨lo, ?_⟩
  rw [monthLength, if_pos rfl]
  split
  case isTrue =>
    rw [dayOf]
    omega
  case isFalse usual =>
    have short : dayOfYear (dayOfCentury n) ≠ 365 := by
      intro last
      apply usual
      rw [isLeap_iff, yearOf]
      omega
    rw [dayOf]
    omega

/-- A day of a year is at most the leap day at its end. -/
lemma dayOf_le : dayOf n ≤ 365 := by
  have hi := (@dayOf_mem n).2
  have := @february_le (yearOf n + 1)
  omega

end Split

/-- The date of a day in a year that begins in March. -/
lemma isDate_of_dayOfYear {y e : Int} (lo : 0 ≤ e) (hi : e < 337 + monthLength (y + 1) 2) :
    IsDate (if monthOfYear e < 10 then y else y + 1)
      (if monthOfYear e < 10 then monthOfYear e + 3 else monthOfYear e - 9)
      (e - monthStart (monthOfYear e) + 1) := by
  have month := monthOfYear_mem lo (by have := @february_le (y + 1); omega)
  have ⟨start, stop⟩ := @monthStart_monthOfYear e
  generalize monthOfYear e = m at month start stop
  refine ⟨by split <;> omega, by split <;> omega, by omega, ?_⟩
  by_cases feb : m = 11
  · subst feb
    simp only [monthStart] at start stop ⊢
    norm_num at start stop ⊢
    omega
  · have succ := @monthStart_succ (if m < 10 then y else y + 1) (if m < 10 then m + 3 else m - 9)
      (by split <;> omega) (by split <;> omega) (by split <;> omega)
    have back : (if (if m < 10 then m + 3 else m - 9) ≤ 2 then (if m < 10 then m + 3 else m - 9) + 9
        else (if m < 10 then m + 3 else m - 9) - 3) = m := by
      split_ifs <;> omega
    rw [back] at succ
    omega

/-- The date with this day number. -/
def ofDayNumber (n : Int) : CivilDate :=
  ⟨_, _, _, isDate_of_dayOfYear (@dayOf_mem n).1 (@dayOf_mem n).2⟩

/-- The date of a day number is in the year of the number. -/
lemma marchYear_ofDayNumber {n : Int} : (ofDayNumber n).marchYear = yearOf n := by
  have month := monthOfYear_mem (@dayOf_mem n).1 dayOf_le
  simp only [ofDayNumber, marchYear]
  split_ifs <;> omega

/-- The date of a day number is in the month of the number. -/
lemma marchMonth_ofDayNumber {n : Int} : (ofDayNumber n).marchMonth = monthOfYear (dayOf n) := by
  have month := monthOfYear_mem (@dayOf_mem n).1 dayOf_le
  simp only [ofDayNumber, marchMonth]
  split_ifs <;> omega

@[simp] lemma dayNumber_ofDayNumber {n : Int} : (ofDayNumber n).dayNumber = n := by
  have whole := @yearStart_yearOf n
  rw [dayNumber, marchYear_ofDayNumber, marchMonth_ofDayNumber]
  simp only [ofDayNumber]
  omega


/-! ## The two are inverse -/

/-- Later years start later. -/
lemma yearStart_strictMono : StrictMono yearStart := by
  apply strictMono_int_of_lt_succ
  intro y
  have := @yearStart_succ y
  have := @monthLength_pos (y + 1) 2
  change yearStart y < yearStart (y + 1)
  omega

/-- The days from the start of a year to that of the next one are in that year. -/
lemma yearOf_eq {y n : Int} (lo : yearStart y ≤ n) (hi : n < yearStart (y + 1)) : yearOf n = y := by
  have whole := @yearStart_yearOf n
  have day := @dayOf_mem n
  have succ := @yearStart_succ (yearOf n)
  have le : yearOf n < y + 1 := yearStart_strictMono.lt_iff_lt.1 (by omega)
  have ge : y < yearOf n + 1 := yearStart_strictMono.lt_iff_lt.1 (by omega)
  omega

/-- A day from the start of a month to that of the next one is in the month. -/
lemma monthOfYear_eq {m e : Int} (lo : monthStart m ≤ e) (hi : e < monthStart (m + 1)) : monthOfYear e = m := by
  have ⟨start, stop⟩ := @monthStart_monthOfYear e
  unfold monthStart at lo hi start stop
  omega

/-- A date is in one of the months 0 to 11. -/
lemma marchMonth_mem (d : CivilDate) : 0 ≤ d.marchMonth ∧ d.marchMonth ≤ 11 := by
  have ⟨lo, hi, _, _⟩ := d.isDate
  unfold marchMonth
  split <;> omega

/-- The days of a year are counted from 0. -/
lemma marchDay_nonneg (d : CivilDate) : 0 ≤ monthStart d.marchMonth + (d.day - 1) := by
  have month := d.marchMonth_mem
  have day := d.isDate.day_pos
  unfold monthStart
  omega

/-- The day of a date in the year that begins in March. -/
lemma marchDay_mem (d : CivilDate) :
    monthStart d.marchMonth + (d.day - 1) < 337 + monthLength (d.marchYear + 1) 2 ∧
      (d.marchMonth ≠ 11 → monthStart d.marchMonth + (d.day - 1) < monthStart (d.marchMonth + 1)) := by
  obtain ⟨year, month, day, h⟩ := d
  have ⟨lo, hi, _, le⟩ := h
  by_cases feb : month = 2
  · subst feb
    simp only [marchMonth, marchYear, if_pos (le_refl (2 : Int)), Int.sub_add_cancel, monthStart]
    norm_num
    omega
  · have succ := @monthStart_succ year month lo hi feb
    have feb' := @monthLength_pos (marchYear ⟨year, month, day, h⟩ + 1) 2
    have last : monthStart (marchMonth ⟨year, month, day, h⟩ + 1) ≤ 337 := by
      simp only [marchMonth, monthStart]
      split_ifs <;> omega
    simp only [marchMonth] at last ⊢
    omega

@[simp] lemma ofDayNumber_dayNumber {d : CivilDate} : ofDayNumber d.dayNumber = d := by
  have ⟨inYear, inMonth⟩ := d.marchDay_mem
  have succ := @yearStart_succ d.marchYear
  have ⟨lo, hi, pos, _⟩ := d.isDate
  have start := d.marchDay_nonneg
  have year : yearOf d.dayNumber = d.marchYear := by
    apply yearOf_eq <;> unfold dayNumber <;> omega
  have day : dayOf d.dayNumber = monthStart d.marchMonth + (d.day - 1) := by
    have whole := @yearStart_yearOf d.dayNumber
    rw [year] at whole
    unfold dayNumber at whole ⊢
    omega
  have monthOf : monthOfYear (dayOf d.dayNumber) = d.marchMonth := by
    rw [day]
    apply monthOfYear_eq
    · omega
    · by_cases feb : d.marchMonth = 11
      · have := @february_le (d.marchYear + 1)
        rw [feb] at inYear ⊢
        simp only [monthStart] at inYear ⊢
        omega
      · exact inMonth feb
  ext <;> simp only [ofDayNumber, monthOf, year]
  · simp only [marchMonth, marchYear]
    split_ifs <;> omega
  · simp only [marchMonth]
    split_ifs <;> omega
  · rw [day]
    omega

/-- The next number is that of the next day. -/
lemma ofDayNumber_succ {n : Int} : ofDayNumber (n + 1) = (ofDayNumber n).next := by
  calc ofDayNumber (n + 1) = ofDayNumber (ofDayNumber n).next.dayNumber := by
        rw [dayNumber_next, dayNumber_ofDayNumber]
    _ = (ofDayNumber n).next := ofDayNumber_dayNumber

/-- Later days have later dates. -/
lemma ofDayNumber_strictMono : StrictMono ofDayNumber := by
  apply strictMono_int_of_lt_succ
  intro n
  rw [ofDayNumber_succ]
  exact lt_next

/-- The year of a date tells its day number up to a year. -/
lemma yearStart_le_dayNumber {d : CivilDate} : yearStart d.marchYear ≤ d.dayNumber := by
  have := d.marchDay_nonneg
  unfold dayNumber
  omega

/-- A date is before the start of the next year. -/
lemma dayNumber_lt_yearStart {d : CivilDate} : d.dayNumber < yearStart (d.marchYear + 1) := by
  have := d.marchDay_mem.1
  rw [yearStart_succ]
  unfold dayNumber
  omega

/-- The first of January is 306 days after the first of March before it. -/
lemma dayNumber_newYear {d : CivilDate} : d.newYear.dayNumber = yearStart (d.year - 1) + 306 := by
  simp [dayNumber, marchYear, marchMonth, newYear, monthStart]

/-- A date is in the year that begins with its new year. -/
lemma newYear_mem (d : CivilDate) :
    d.newYear.dayNumber ≤ d.dayNumber ∧ d.dayNumber < d.newYear.dayNumber + 366 := by
  have ⟨month_pos, month_le, day_pos, day_le⟩ := d.isDate
  have succ := @yearStart_succ (d.year - 1)
  have long := @february_le d.year
  have short := @monthLength_pos d.year 2
  rw [Int.sub_add_cancel] at succ
  rw [dayNumber_newYear]
  by_cases early : d.month ≤ 2
  · have stop := @dayNumber_lt_yearStart d
    have year : d.marchYear = d.year - 1 := if_pos early
    have month : d.marchMonth = d.month + 9 := if_pos early
    rw [year, Int.sub_add_cancel] at stop
    rw [dayNumber, year, month] at stop ⊢
    unfold monthStart at *
    omega
  · have inMonth := d.marchDay_mem.2
    have year : d.marchYear = d.year := if_neg early
    have month : d.marchMonth = d.month - 3 := if_neg early
    rw [dayNumber, year, month]
    rw [month] at inMonth
    unfold monthStart at *
    omega

/-- Later dates have greater numbers. -/
lemma dayNumber_lt {d e : CivilDate} : d.dayNumber < e.dayNumber ↔ d < e := by
  rw [← ofDayNumber_strictMono.lt_iff_lt, ofDayNumber_dayNumber, ofDayNumber_dayNumber]

end CivilDate

end WebServer.Lib
