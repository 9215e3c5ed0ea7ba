import WebServer.Lib.Digits
import WebServer.Log.Logger
import WebServer.Timer.TimeZone

/-!
# Timestamps

Model of `timer/timestamp.{h,cc}`. A timestamp is a number of microseconds, as an `int64_t`. `toFormattedString` gives
`gmtime_r` a variable that has no value yet, which is an argument here; its value is never seen
(`gmtime_r_seconds`).

The text of `toString` gives the timestamp back (`toString_injective`). As texts, the formatted times of the years
with four digits are in order as times (`toFormattedString_lt`).
-/

namespace WebServer.Timer

open Net Log Lib

/-- The text of `%{width}d`. -/
def spacePaddedTo (width : Nat) (z : Int) : Bytes :=
  List.replicate (width - (decimal z).length) (char ' ') ++ decimal z

/-- `class Timestamp` -/
structure Timestamp where
  microSecondsSinceEpoch_ : IntType.long.Value

namespace Timestamp

def kMicroSecondsPerSecond : Int := 1000 * 1000

/-- `Timestamp::microSecondsSinceEpoch` -/
def microSecondsSinceEpoch (t : Timestamp) : Int := t.microSecondsSinceEpoch_.1

/-- `Timestamp::secondsSinceEpoch` -/
def secondsSinceEpoch (t : Timestamp) : Int := t.microSecondsSinceEpoch.tdiv kMicroSecondsPerSecond

/-- The microseconds that are printed after the seconds. -/
def microseconds (t : Timestamp) : Int := t.microSecondsSinceEpoch.tmod kMicroSecondsPerSecond

/-- `operator<` -/
def less (lhs rhs : Timestamp) : Bool := lhs.microSecondsSinceEpoch < rhs.microSecondsSinceEpoch

/-- `Timestamp::toString` -/
def toString (t : Timestamp) : Bytes :=
  snprintf 32 (decimal t.secondsSinceEpoch ++ bytes "." ++ zeroPaddedTo 6 t.microseconds)

/-- The text of `%4d%02d%02d %02d:%02d:%02d`. -/
def formatTm (tm : Tm) : Bytes :=
  spacePaddedTo 4 (tm.tm_year + 1900) ++ (zeroPaddedTo 2 (tm.tm_mon + 1) ++ (zeroPaddedTo 2 tm.tm_mday ++ (bytes " " ++
    (zeroPaddedTo 2 tm.tm_hour ++ (bytes ":" ++ (zeroPaddedTo 2 tm.tm_min ++ (bytes ":" ++
      zeroPaddedTo 2 tm.tm_sec)))))))

/-- `Timestamp::toFormattedString`; `tm_time` is what the variable is before `gmtime_r`. -/
def toFormattedString (t : Timestamp) (showMicroseconds : Bool) (tm_time : Tm) : Bytes :=
  let tm_time := gmtime_r t.secondsSinceEpoch tm_time
  if showMicroseconds then
    snprintf 64 (formatTm tm_time ++ (bytes "." ++ zeroPaddedTo 6 t.microseconds))
  else
    snprintf 64 (formatTm tm_time)

end Timestamp

/-! ## Fields of a fixed width -/

section Fields

variable {width : Nat} {z z' : Int} {s s' : Bytes}

/-- The decimal digits. -/
def Digit : Set UInt8 := {d | 48 ≤ d ∧ d ≤ 57}

/-- Digits are in order as their values. -/
lemma digit_order : ∀ a ∈ Digit, ∀ b ∈ Digit, a < b ↔ a.toNat - 48 < b.toNat - 48 := by
  rintro a ⟨ha, _⟩ b ⟨hb, _⟩
  rw [UInt8.le_iff_toNat_le] at ha hb
  rw [UInt8.lt_iff_toNat_lt]
  change 48 ≤ a.toNat at ha
  change 48 ≤ b.toNat at hb
  omega

/-- A digit is determined by its value. -/
lemma digit_inj : Set.InjOn (fun d : UInt8 => d.toNat - 48) Digit := by
  rintro a ⟨ha, _⟩ b ⟨hb, _⟩ eq
  rw [UInt8.le_iff_toNat_le] at ha hb
  change 48 ≤ a.toNat at ha
  change 48 ≤ b.toNat at hb
  refine UInt8.toNat_inj.1 ?_
  dsimp only at eq
  omega

/-- The value of a digit is less than ten. -/
lemma digit_bound : ∀ d ∈ Digit, d.toNat - 48 < 10 := by
  rintro d ⟨_, hd⟩
  rw [UInt8.le_iff_toNat_le] at hd
  change d.toNat ≤ 57 at hd
  omega

/-- A numeral after zeros consists of digits and has the value of the number. -/
lemma numeral_digits {n zeros : Nat} :
    (∀ d ∈ List.replicate zeros (char '0') ++ numeral n, d ∈ Digit) ∧
      value 10 (fun d => d.toNat - 48) (List.replicate zeros (char '0') ++ numeral n) = n := by
  refine ⟨?_, ?_⟩
  · intro d mem
    rcases List.mem_append.1 mem with zero | digit
    · rw [List.eq_of_mem_replicate zero]
      exact ⟨by decide, by decide⟩
    · exact numeral_digit digit
  · rw [value_append, value_replicate (by decide), Nat.zero_mul, Nat.zero_add, value, numeral_value]

/-- A number that fits is printed with all of the digits. -/
lemma zeroPaddedTo_spec (pos : 0 < width) (lo : 0 ≤ z) (hi : z < 10 ^ width) :
    (zeroPaddedTo width z).length = width ∧ (∀ d ∈ zeroPaddedTo width z, d ∈ Digit) ∧
      value 10 (fun d => d.toNat - 48) (zeroPaddedTo width z) = z.toNat := by
  have sign : ¬z < 0 := by omega
  have text : decimal z = numeral z.natAbs := if_neg sign
  have short : (numeral z.natAbs).length ≤ width := numeral_length pos (by zify; rwa [abs_of_nonneg lo])
  have ⟨digits, val⟩ := @numeral_digits z.natAbs (width - (numeral z.natAbs).length)
  rw [zeroPaddedTo, if_neg sign, List.nil_append, text]
  refine ⟨?_, digits, ?_⟩
  · rw [List.length_append, List.length_replicate]
    omega
  · rw [val]
    omega

/-- `%d` is `%0d` without a width. -/
lemma decimal_eq : decimal z = zeroPaddedTo 0 z := by
  unfold decimal zeroPaddedTo
  split
  case isTrue neg => rw [Nat.zero_sub]; rfl
  case isFalse neg => rw [Nat.zero_sub]; rfl

/-- The sign and the digits give the number back. -/
lemma zeroPaddedTo_injective : Function.Injective (zeroPaddedTo width) := by
  have minus : char '-' ∉ Digit := by
    rintro ⟨le, _⟩
    exact absurd le (by decide)
  intro z z' eq
  have ⟨digits, val⟩ := @numeral_digits z.natAbs (width - (decimal z).length)
  have ⟨digits', val'⟩ := @numeral_digits z'.natAbs (width - (decimal z').length)
  simp only [zeroPaddedTo, List.append_assoc] at eq
  split_ifs at eq with neg neg' neg'
  · rw [List.append_cancel_left eq, val'] at val
    omega
  · rw [List.nil_append] at eq
    exact absurd (digits' _ (eq ▸ List.mem_cons_self)) minus
  · rw [List.nil_append] at eq
    exact absurd (digits _ (eq ▸ List.mem_cons_self)) minus
  · rw [List.append_cancel_left eq, val'] at val
    omega

/-- What is no digit and no sign is not in a number. -/
lemma notMem_zeroPaddedTo {b : UInt8} (sign : b ≠ char '-') (digit : b ∉ Digit) : b ∉ zeroPaddedTo width z := by
  intro mem
  rw [zeroPaddedTo, List.append_assoc] at mem
  rcases List.mem_append.1 mem with mem | mem
  · split_ifs at mem
    · exact sign (List.mem_singleton.1 mem)
    · cases mem
  · exact digit (numeral_digits.1 _ mem)

/-- Fields are compared as numbers. -/
lemma zeroPaddedTo_lt (pos : 0 < width) (h : 0 ≤ z ∧ z < 10 ^ width) (h' : 0 ≤ z' ∧ z' < 10 ^ width) :
    zeroPaddedTo width z < zeroPaddedTo width z' ↔ z < z' := by
  obtain ⟨len, digits, val⟩ := zeroPaddedTo_spec pos h.1 h.2
  obtain ⟨len', digits', val'⟩ := zeroPaddedTo_spec pos h'.1 h'.2
  rw [lt_iff_value digit_order digit_inj digit_bound digits digits' (len.trans len'.symm), val, val']
  omega

/-- Texts that start with fields of one width are compared by the fields first. -/
lemma field_lt (pos : 0 < width) (h : 0 ≤ z ∧ z < 10 ^ width) (h' : 0 ≤ z' ∧ z' < 10 ^ width) :
    zeroPaddedTo width z ++ s < zeroPaddedTo width z' ++ s' ↔ z < z' ∨ z = z' ∧ s < s' := by
  have len := (zeroPaddedTo_spec pos h.1 h.2).1
  have len' := (zeroPaddedTo_spec pos h'.1 h'.2).1
  rw [append_lt_append (len.trans len'.symm), zeroPaddedTo_lt pos h h', zeroPaddedTo_injective.eq_iff]

/-- A common separator does not change the order. -/
lemma sep_lt {sep : Bytes} : sep ++ s < sep ++ s' ↔ s < s' := by
  have irrefl : ¬sep < sep := List.lt_irrefl _
  rw [append_lt_append rfl]
  simp [irrefl]

/-- A year with four digits needs no spaces. -/
lemma spacePaddedTo_year (lo : 1000 ≤ z) (hi : z < 10000) : spacePaddedTo 4 z = zeroPaddedTo 4 z := by
  have sign : ¬z < 0 := by omega
  have text : decimal z = numeral z.natAbs := if_neg sign
  have long : 4 ≤ (numeral z.natAbs).length := by
    by_contra short
    have lt := value_lt (s := numeral z.natAbs) fun d hd => digit_bound d (numeral_digit hd)
    rw [value, numeral_value] at lt
    have : 10 ^ (numeral z.natAbs).length ≤ 10 ^ 3 := Nat.pow_le_pow_right (by decide) (by omega)
    omega
  rw [spacePaddedTo, zeroPaddedTo, text, if_neg sign, Nat.sub_eq_zero_of_le long]
  rfl

end Fields

/-! ## The broken-down time -/

/-- The date of a second since the epoch. -/
def dateOf (seconds : Int) : CivilDate := .ofDayNumber (seconds / 86400 + epochDay)

/-- The first of January. -/
def firstOf (year : Int) : CivilDate := ⟨year, 1, 1, by decide, by decide, le_rfl, monthLength_pos⟩

/-- A time between the starts of two years is in a year between them. -/
lemma dateOf_year {seconds first last lo hi : Int} (start : (firstOf first).dayNumber = lo)
    (stop : (firstOf last).dayNumber = hi) (h : lo ≤ seconds / 86400 + epochDay ∧ seconds / 86400 + epochDay < hi) :
    first ≤ (dateOf seconds).year ∧ (dateOf seconds).year < last := by
  have number : (dateOf seconds).dayNumber = seconds / 86400 + epochDay := CivilDate.dayNumber_ofDayNumber
  rw [← number, ← start, ← stop, CivilDate.dayNumber_lt, ← not_lt, CivilDate.dayNumber_lt, CivilDate.lt_iff,
    CivilDate.lt_iff] at h
  have month := (dateOf seconds).isDate.month_pos
  have day := (dateOf seconds).isDate.day_pos
  dsimp only [firstOf] at h
  omega

namespace Timestamp

variable {t t' : Timestamp} {tm tm' : Tm}

/-- A timestamp is an `int64_t`. -/
lemma range (t : Timestamp) : -9223372036854775808 ≤ t.microSecondsSinceEpoch ∧
    t.microSecondsSinceEpoch ≤ 9223372036854775807 := t.microSecondsSinceEpoch_.2

/-- The seconds of a timestamp. -/
lemma secondsSinceEpoch_range (t : Timestamp) :
    -9223372036854 ≤ t.secondsSinceEpoch ∧ t.secondsSinceEpoch ≤ 9223372036854 := by
  have range := t.range
  have million : kMicroSecondsPerSecond = 1000000 := by decide
  have sign : Int.sign 1000000 = 1 := rfl
  rw [secondsSinceEpoch, million, Int.tdiv_eq_ediv, sign]
  split_ifs <;> omega

/-- `gmtime_r` does not fail on the seconds of a timestamp. -/
lemma gmtime_r_seconds : gmtime_r t.secondsSinceEpoch tm = gmtime t.secondsSinceEpoch := by
  have range := t.secondsSinceEpoch_range
  have year := @dateOf_year t.secondsSinceEpoch (-300000) 300000 _ _ rfl rfl (by
    have start : (firstOf (-300000)).dayNumber = -109572810 := by decide
    have stop : (firstOf 300000).dayNumber = 109572690 := by decide
    rw [start, stop, epochDay]
    omega)
  refine if_pos ⟨?_, ?_⟩
  · change -2147483648 ≤ (dateOf t.secondsSinceEpoch).year - 1900
    omega
  · change (dateOf t.secondsSinceEpoch).year - 1900 ≤ 2147483647
    omega

/-- Neither text of `toString` is cut off. -/
lemma toString_eq : t.toString = decimal t.secondsSinceEpoch ++ char '.' :: zeroPaddedTo 6 t.microseconds := by
  have range := t.secondsSinceEpoch_range
  have len : (decimal t.secondsSinceEpoch).length ≤ 20 :=
    Log.decimal_length (t := .long) ⟨by change -9223372036854775808 ≤ _; omega, by change _ ≤ 9223372036854775807; omega⟩
  have small : t.microseconds.natAbs < 1000000 := by
    rw [microseconds, Int.natAbs_tmod]
    exact Nat.mod_lt _ (by decide)
  have digits : (numeral t.microseconds.natAbs).length ≤ 6 := numeral_length (by decide) small
  have micro : (zeroPaddedTo 6 t.microseconds).length ≤ 7 := by
    unfold zeroPaddedTo decimal
    split_ifs <;>
      simp only [List.length_append, List.length_replicate, List.length_cons, List.length_nil] <;>
      omega
  have dot : bytes "." = [char '.'] := by decide
  rw [toString, dot, List.append_assoc, List.singleton_append]
  refine List.take_of_length_le ?_
  rw [List.length_append, List.length_cons]
  omega

/-- The text of a timestamp is never cut off, and its seconds and its microseconds give the timestamp back. -/
theorem toString_injective :
    (∀ t : Timestamp, t.toString = decimal t.secondsSinceEpoch ++ char '.' :: zeroPaddedTo 6 t.microseconds) ∧
      Function.Injective toString := by
  refine ⟨fun _ => toString_eq, ?_⟩
  have dot : char '.' ∉ Digit := by
    rintro ⟨le, _⟩
    exact absurd le (by decide)
  intro t t' eq
  rw [toString_eq, toString_eq, decimal_eq, decimal_eq,
    List.append_cons_inj_of_notMem (notMem_zeroPaddedTo (by decide) dot) (notMem_zeroPaddedTo (by decide) dot)] at eq
  have seconds := zeroPaddedTo_injective eq.1
  have micro := zeroPaddedTo_injective eq.2.2
  have same : t.microSecondsSinceEpoch = t'.microSecondsSinceEpoch := by
    rw [← Int.mul_tdiv_add_tmod t.microSecondsSinceEpoch kMicroSecondsPerSecond, ← secondsSinceEpoch, ← microseconds,
      seconds, micro, secondsSinceEpoch, microseconds, Int.mul_tdiv_add_tmod]
  obtain ⟨⟨v, fits⟩⟩ := t
  obtain ⟨⟨v', fits'⟩⟩ := t'
  obtain rfl : v = v' := same
  rfl

/-- The timestamp is in a year from 1970 to 9999. -/
def FourDigits (t : Timestamp) : Prop :=
  0 ≤ t.microSecondsSinceEpoch ∧ t.microSecondsSinceEpoch < 253402300800000000

/-- The seconds and the microseconds of such a timestamp. -/
lemma FourDigits.seconds (h : t.FourDigits) : 0 ≤ t.secondsSinceEpoch ∧ t.secondsSinceEpoch < 253402300800 ∧
    0 ≤ t.microseconds ∧ t.microseconds < 1000000 ∧
    t.microSecondsSinceEpoch = t.secondsSinceEpoch * 1000000 + t.microseconds := by
  obtain ⟨lo, hi⟩ := h
  have million : kMicroSecondsPerSecond = 1000000 := by decide
  rw [secondsSinceEpoch, microseconds, million, Int.tdiv_eq_ediv_of_nonneg lo, Int.tmod_eq_emod_of_nonneg lo]
  omega

/-- The year of such a timestamp has four digits. -/
lemma FourDigits.year (h : t.FourDigits) :
    1970 ≤ (dateOf t.secondsSinceEpoch).year ∧ (dateOf t.secondsSinceEpoch).year < 10000 := by
  refine dateOf_year rfl rfl ?_
  have start : (firstOf 1970).dayNumber = 719468 := by decide
  have stop : (firstOf 10000).dayNumber = 3652365 := by decide
  obtain ⟨lo, hi, _⟩ := h.seconds
  rw [start, stop, epochDay]
  omega

/-- The text of a time in a year with four digits has fields of fixed width. -/
lemma formatTm_gmtime {seconds : Int} (h : 1970 ≤ (dateOf seconds).year ∧ (dateOf seconds).year < 10000) :
    formatTm (gmtime seconds) =
      zeroPaddedTo 4 (dateOf seconds).year ++ (zeroPaddedTo 2 (dateOf seconds).month ++
        (zeroPaddedTo 2 (dateOf seconds).day ++ (bytes " " ++ (zeroPaddedTo 2 (seconds / 3600 % 24) ++ (bytes ":" ++
          (zeroPaddedTo 2 (seconds / 60 % 60) ++ (bytes ":" ++ zeroPaddedTo 2 (seconds % 60)))))))) := by
  have year : (gmtime seconds).tm_year + 1900 = (dateOf seconds).year := Int.sub_add_cancel _ _
  have month : (gmtime seconds).tm_mon + 1 = (dateOf seconds).month := Int.sub_add_cancel _ _
  rw [formatTm, year, month, spacePaddedTo_year (by omega) h.2]
  rfl

/-- A day of a month is at most the 31st. -/
lemma day_le (d : CivilDate) : d.day ≤ 31 := by
  have day_le := d.isDate.day_le
  unfold monthLength at day_le
  split_ifs at day_le <;> omega

/-- The formatted seconds are ordered as the seconds. -/
lemma formatTm_lt {seconds seconds' : Int} {u u' : Bytes}
    (h : 1970 ≤ (dateOf seconds).year ∧ (dateOf seconds).year < 10000)
    (h' : 1970 ≤ (dateOf seconds').year ∧ (dateOf seconds').year < 10000) :
    formatTm (gmtime seconds) ++ u < formatTm (gmtime seconds') ++ u' ↔
      seconds < seconds' ∨ seconds = seconds' ∧ u < u' := by
  have ⟨month_pos, month_le, day_pos, _⟩ := (dateOf seconds).isDate
  have ⟨month_pos', month_le', day_pos', _⟩ := (dateOf seconds').isDate
  have long := day_le (dateOf seconds)
  have long' := day_le (dateOf seconds')
  have before := @CivilDate.dayNumber_lt (dateOf seconds) (dateOf seconds')
  have after := @CivilDate.dayNumber_lt (dateOf seconds') (dateOf seconds)
  have number : (dateOf seconds).dayNumber = seconds / 86400 + epochDay := CivilDate.dayNumber_ofDayNumber
  have number' : (dateOf seconds').dayNumber = seconds' / 86400 + epochDay := CivilDate.dayNumber_ofDayNumber
  rw [formatTm_gmtime h, formatTm_gmtime h']
  simp only [List.append_assoc]
  rw [field_lt (by decide) (by omega) (by omega), field_lt (by decide) (by omega) (by omega),
    field_lt (by decide) (by omega) (by omega), sep_lt, field_lt (by decide) (by omega) (by omega), sep_lt,
    field_lt (by decide) (by omega) (by omega), sep_lt, field_lt (by decide) (by omega) (by omega)]
  rw [number, number', CivilDate.lt_iff] at before after
  rcases lt_trichotomy (seconds / 86400) (seconds' / 86400) with lt | eq | gt
  · have date := before.1 (by omega)
    refine iff_of_true ?_ (.inl (by omega))
    omega
  · have same : dateOf seconds = dateOf seconds' := by rw [dateOf, dateOf, eq]
    rw [same]
    by_cases tail : u < u'
    · simp only [tail, and_true, lt_irrefl, false_or, true_and]
      omega
    · simp only [tail, and_false, or_false, lt_irrefl, false_or, true_and]
      omega
  · have date := after.1 (by omega)
    refine iff_of_false ?_ (by omega)
    omega

/-- The text of a time in a year with four digits has 17 bytes. -/
lemma formatTm_length {seconds : Int} (h : 1970 ≤ (dateOf seconds).year ∧ (dateOf seconds).year < 10000) :
    (formatTm (gmtime seconds)).length = 17 := by
  have ⟨month_pos, month_le, day_pos, _⟩ := (dateOf seconds).isDate
  have long := day_le (dateOf seconds)
  have blank : (bytes " ").length = 1 := by decide
  have colon : (bytes ":").length = 1 := by decide
  rw [formatTm_gmtime h]
  simp only [List.length_append, blank, colon]
  rw [(zeroPaddedTo_spec (by decide) _ _).1, (zeroPaddedTo_spec (by decide) _ _).1,
    (zeroPaddedTo_spec (by decide) _ _).1, (zeroPaddedTo_spec (by decide) _ _).1,
    (zeroPaddedTo_spec (by decide) _ _).1, (zeroPaddedTo_spec (by decide) _ _).1]
  all_goals omega

/-- The texts fit into the array. -/
lemma FourDigits.text (h : t.FourDigits) :
    t.toFormattedString true tm =
        formatTm (gmtime t.secondsSinceEpoch) ++ (bytes "." ++ zeroPaddedTo 6 t.microseconds) ∧
      t.toFormattedString false tm = formatTm (gmtime t.secondsSinceEpoch) ∧
      (t.toFormattedString true tm).length = 24 := by
  have ⟨_, _, lo, hi, _⟩ := h.seconds
  have len := formatTm_length h.year
  have dot : (bytes ".").length = 1 := by decide
  have micro : (zeroPaddedTo 6 t.microseconds).length = 6 := (zeroPaddedTo_spec (by decide) lo hi).1
  have total : (formatTm (gmtime t.secondsSinceEpoch) ++ (bytes "." ++ zeroPaddedTo 6 t.microseconds)).length = 24 := by
    rw [List.length_append, List.length_append, len, dot, micro]
  have long : t.toFormattedString true tm =
      formatTm (gmtime t.secondsSinceEpoch) ++ (bytes "." ++ zeroPaddedTo 6 t.microseconds) := by
    rw [toFormattedString, gmtime_r_seconds]
    exact List.take_of_length_le (by rw [total]; decide)
  have short : t.toFormattedString false tm = formatTm (gmtime t.secondsSinceEpoch) := by
    rw [toFormattedString, gmtime_r_seconds]
    exact List.take_of_length_le (by rw [len]; decide)
  exact ⟨long, short, by rw [long, total]⟩

/-- The texts with microseconds are in order as the timestamps. -/
lemma FourDigits.text_lt (h : t.FourDigits) (h' : t'.FourDigits) :
    t.toFormattedString true tm < t'.toFormattedString true tm' ↔ t.less t' := by
  have ⟨_, _, lo, hi, eq⟩ := h.seconds
  have ⟨_, _, lo', hi', eq'⟩ := h'.seconds
  have micro : zeroPaddedTo 6 t.microseconds < zeroPaddedTo 6 t'.microseconds ↔ t.microseconds < t'.microseconds :=
    zeroPaddedTo_lt (by decide) ⟨lo, hi⟩ ⟨lo', hi'⟩
  rw [h.text.1, h'.text.1, formatTm_lt h.year h'.year, sep_lt, micro, less, decide_eq_true_iff, eq, eq']
  omega

/-- Formatted times of the years from 1970 to 9999 are in the order of texts if and only if they are in order as
    times; without the microseconds, if and only if their seconds are. -/
theorem toFormattedString_lt (h : t.FourDigits) (h' : t'.FourDigits) :
    (t.toFormattedString true tm < t'.toFormattedString true tm' ↔ t.less t') ∧
      (t.toFormattedString false tm < t'.toFormattedString false tm' ↔ t.secondsSinceEpoch < t'.secondsSinceEpoch) := by
  refine ⟨h.text_lt h', ?_⟩
  have seconds := @formatTm_lt t.secondsSinceEpoch t'.secondsSinceEpoch [] [] h.year h'.year
  have irrefl : ¬([] : Bytes) < [] := List.lt_irrefl _
  rw [List.append_nil, List.append_nil] at seconds
  rw [h.text.2.1, h'.text.2.1, seconds]
  simp [irrefl]

/-- The last second of a year, and the first of the next. -/
theorem toFormattedString_lt_new_year :
    let t : Timestamp := ⟨1609459199999999, by decide⟩
    let t' : Timestamp := ⟨1609459200000000, by decide⟩
    t.toFormattedString true .zero = bytes "20201231 23:59:59.999999" ∧
      t'.toFormattedString true .zero = bytes "20210101 00:00:00.000000" ∧
      t.toFormattedString true .zero < t'.toFormattedString true .zero := by
  refine ⟨by decide, by decide, ?_⟩
  exact (toFormattedString_lt ⟨by decide, by decide⟩ ⟨by decide, by decide⟩).1.2 (by decide)

end Timestamp

end WebServer.Timer
