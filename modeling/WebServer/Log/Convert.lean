import WebServer.Net.Text

/-!
# Integers into text

Model of `convert` and `convertHex` of `logger/log_stream.cc`. Both write the digits of a number backwards into
memory, least significant first, and then reverse them. `convert` does not negate a negative number: it takes
the digits of the negative remainders from the left half of the mirrored table `digits`.

The values of an integer type are the integers in its range. The result of a signed operation outside the range
is undefined (`none`), as are a store outside the memory and an index outside a table. The loop runs on as much
fuel as its type has bits, which suffices (`digitLoop_eq`).
-/

namespace WebServer.Log

open Net

/-- The types at which `formatInt` is used, with their sizes on 64-bit Linux. -/
inductive IntType where
  | int
  | unsignedInt
  | long
  | unsignedLong
  | longLong
  | unsignedLongLong
deriving DecidableEq, Repr

namespace IntType

def signed : IntType → Bool
  | int | long | longLong => true
  | unsignedInt | unsignedLong | unsignedLongLong => false

def width : IntType → Nat
  | int | unsignedInt => 32
  | long | unsignedLong | longLong | unsignedLongLong => 64

def minValue (t : IntType) : Int := if t.signed then -2 ^ (t.width - 1) else 0

def maxValue (t : IntType) : Int := if t.signed then 2 ^ (t.width - 1) - 1 else 2 ^ t.width - 1

/-- The integer is in the range of the type. -/
def Fits (t : IntType) (z : Int) : Prop := t.minValue ≤ z ∧ z ≤ t.maxValue

instance (t : IntType) (z : Int) : Decidable (t.Fits z) := inferInstanceAs (Decidable (_ ∧ _))

/-- A value of the type. -/
def Value (t : IntType) : Type := { z : Int // t.Fits z }

/-- Conversion to the type. -/
def cast (t : IntType) (z : Int) : Int :=
  if t.signed then z.bmod (2 ^ t.width) else z % 2 ^ t.width

/-- The result of an arithmetic operation of the type: signed overflow is undefined, unsigned numbers wrap. -/
def result (t : IntType) (z : Int) : Option Int :=
  if t.signed = true ∧ ¬t.Fits z then none else some (t.cast z)

end IntType

/-- `const char digits[]` -/
def digits : Bytes := bytes "9876543210123456789" ++ [0]

/-- `zero[lsd]`, where `zero` is `digits + 9`. -/
def zero (lsd : Int) : Option UInt8 := if 0 ≤ 9 + lsd then digits[(9 + lsd).toNat]? else none

/-- `const char digitsHex[]` -/
def digitsHex : Bytes := bytes "0123456789ABCDEF" ++ [0]

/-- `digitsHex[lsd]` -/
def digitHex (lsd : Int) : Option UInt8 := if 0 ≤ lsd then digitsHex[lsd.toNat]? else none

/-- The loop of `convert` and `convertHex`, with the base and the table of digits: the position after the digits
    and the memory. -/
def digitLoop (t : IntType) (base : Nat) (digit : Int → Option UInt8) :
    Nat → Int → Nat → Bytes → Option (Nat × Bytes)
  | 0, _, _, _ => none
  | fuel + 1, i, p, mem => do
    let lsd := IntType.int.cast (← t.result (i.tmod base))
    let i ← t.result (i.tdiv base)
    let mem ← store mem p [← digit lsd]
    if i ≠ 0 then digitLoop t base digit fuel i (p + 1) mem else some (p + 1, mem)

/-- `std::reverse(buf, p)` -/
def reverse (mem : Bytes) (buf p : Nat) : Option Bytes := do
  store mem buf (← load mem buf p).reverse

/-- `convert(buf, value)`: the length returned and the memory. -/
def convert (t : IntType) (mem : Bytes) (buf : Nat) (value : Int) : Option (Nat × Bytes) := do
  let (p, mem) ← digitLoop t 10 zero t.width value buf mem
  let (p, mem) ← if value < 0 then (store mem p [char '-']).map fun mem => (p + 1, mem) else some (p, mem)
  let mem ← store mem p [0]
  let mem ← reverse mem buf p
  some (usub p buf, mem)

/-- `convertHex(buf, value)` -/
def convertHex (mem : Bytes) (buf : Nat) (value : UInt64) : Option (Nat × Bytes) := do
  let (p, mem) ← digitLoop .unsignedLong 16 digitHex 64 value.toNat buf mem
  let mem ← store mem p [0]
  let mem ← reverse mem buf p
  some (usub p buf, mem)

/-! ## The loop -/

section Loop

variable {t : IntType} {i z : Int}

/-- What lies between zero and a value of the type is one. -/
lemma IntType.Fits.toward_zero (h : t.Fits i) (lo : min i 0 ≤ z) (hi : z ≤ max i 0) : t.Fits z := by
  have zero : t.minValue ≤ 0 ∧ 0 ≤ t.maxValue := by
    cases t <;> decide
  exact ⟨Int.le_trans (Int.le_min.2 ⟨h.1, zero.1⟩) lo, Int.le_trans hi (Int.max_le.2 ⟨h.2, zero.2⟩)⟩

/-- A value that fits is unchanged by the cast. -/
lemma IntType.cast_eq (h : t.Fits z) : t.cast z = z := by
  obtain ⟨lo, hi⟩ := h
  cases t <;>
    simp only [cast, signed, width, minValue, maxValue, if_true, Bool.false_eq_true, if_false] at lo hi ⊢
  case int | long | longLong => exact Int.bmod_eq_of_le (by omega) (by omega)
  case unsignedInt | unsignedLong | unsignedLongLong => exact Int.emod_eq_of_lt lo (by omega)

/-- What was cast to `int` fits `int`. -/
lemma IntType.cast_int_fits : IntType.int.Fits (IntType.int.cast z) := by
  constructor <;> simp only [minValue, maxValue, cast, signed, width, if_true] <;> rw [Int.bmod_def] <;> split <;> omega

/-- A natural number does not grow when cast to `int`. -/
lemma IntType.cast_int_le {n : Nat} : IntType.int.cast n ≤ n := by
  simp only [cast, signed, width, if_true]
  rw [Int.bmod_def]
  split <;> omega

/-- The result of an operation is defined when it fits. -/
lemma IntType.result_eq (h : t.Fits z) : t.result z = some z := by
  rw [result, if_neg (fun hn => hn.2 h), cast_eq h]

/-- Division and remainder go towards zero. -/
lemma tdiv_toward_zero {b : Nat} : min i 0 ≤ i.tdiv b ∧ i.tdiv b ≤ max i 0 := by
  obtain ⟨n, rfl | rfl⟩ := i.eq_nat_or_neg
  · have le := Nat.div_le_self n b
    rw [← Int.ofNat_tdiv]
    generalize n / b = q at le ⊢
    omega
  · have le := Nat.div_le_self n b
    rw [Int.neg_tdiv, ← Int.ofNat_tdiv]
    generalize n / b = q at le ⊢
    omega

/-- A remainder lies between zero and the number. -/
lemma tmod_toward_zero {b : Nat} : min i 0 ≤ i.tmod b ∧ i.tmod b ≤ max i 0 := by
  obtain ⟨n, rfl | rfl⟩ := i.eq_nat_or_neg
  · have le := Nat.mod_le n b
    rw [← Int.ofNat_tmod]
    generalize n % b = q at le ⊢
    omega
  · have le := Nat.mod_le n b
    rw [Int.neg_tmod, ← Int.ofNat_tmod]
    generalize n % b = q at le ⊢
    omega

/-- The loop writes the digits of the absolute value, least significant first. -/
lemma digitLoop_eq {b fuel p : Nat} {digit : Int → Option UInt8} {f : Char → UInt8} {neg : Prop} {mem : Bytes}
    (hb : 1 < b) (hb' : b ≤ 16)
    (table : ∀ r : Int, (r < 0 → neg) → r.natAbs < b → digit r = some (f (Nat.digitChar r.natAbs)))
    (fits : t.Fits i) (sign : i < 0 → neg) (enough : (Nat.toDigits b i.natAbs).length ≤ fuel) :
    digitLoop t b digit fuel i p mem =
      (store mem p ((Nat.toDigits b i.natAbs).map f).reverse).map
        fun mem => (p + (Nat.toDigits b i.natAbs).length, mem) := by
  induction fuel generalizing i p mem with
  | zero =>
    have pos := List.length_pos_iff.2 (@Nat.toDigits_ne_nil i.natAbs b)
    omega
  | succ fuel ih =>
    obtain ⟨dlo, dhi⟩ := @tdiv_toward_zero i b
    obtain ⟨mlo, mhi⟩ := @tmod_toward_zero i b
    have mabs : (i.tmod b).natAbs = i.natAbs % b := by rw [Int.natAbs_tmod, Int.natAbs_natCast]
    have dabs : (i.tdiv b).natAbs = i.natAbs / b := by rw [Int.natAbs_tdiv, Int.natAbs_natCast]; rfl
    have mlt : (i.tmod b).natAbs < b := by
      rw [mabs]
      exact Nat.mod_lt _ (by omega)
    have small : IntType.int.Fits (i.tmod b) := by
      constructor <;> simp only [IntType.minValue, IntType.maxValue, IntType.signed, IntType.width, if_true] <;> omega
    have lsd := table (i.tmod b) (fun h => sign (by omega)) mlt
    rw [mabs] at lsd
    simp only [digitLoop, IntType.result_eq (fits.toward_zero mlo mhi), IntType.result_eq (fits.toward_zero dlo dhi),
      IntType.cast_eq small, lsd, Option.bind_eq_bind, Option.bind_some]
    by_cases hlt : i.natAbs < b
    · -- the last digit
      have quot : i.tdiv b = 0 := by
        rw [← Int.natAbs_eq_zero, dabs, Nat.div_eq_of_lt hlt]
      rw [Nat.mod_eq_of_lt hlt, Nat.toDigits_of_lt_base hlt, quot]
      simp [Option.map_eq_bind]
    · have quot : i.tdiv b ≠ 0 := by
        rw [← Int.natAbs_ne_zero, dabs]
        exact Nat.ne_of_gt (Nat.div_pos (by omega) (by omega))
      rw [Nat.toDigits_of_base_le hb (by omega)] at enough ⊢
      rw [List.length_append, ← dabs] at enough
      rw [← dabs]
      simp only [if_pos quot, List.map_append, List.reverse_append, List.map_cons, List.map_nil, List.reverse_singleton,
        ← store_append, List.length_append]
      rw [Option.map_bind]
      refine congrArg _ (funext fun mem => ?_)
      rw [ih (fits.toward_zero dlo dhi) (fun h => sign (by omega)) (by simpa using enough)]
      simp [Nat.add_assoc, Nat.add_comm 1]

end Loop

/-! ## The text -/

/-- The text of an integer. -/
def decimal (v : Int) : Bytes := if v < 0 then char '-' :: numeral v.natAbs else numeral v.natAbs

/-- The text of an address, without the `0x`. -/
def hexadecimal (n : Nat) : Bytes := (Nat.toDigits 16 n).map fun c => char c.toUpper

/-- `zero` is indexed by the digit, whatever its sign. -/
lemma zero_eq {r : Int} (h : r.natAbs < 10) : zero r = some (char (Nat.digitChar r.natAbs)) := by
  have lo : -9 ≤ r := by omega
  have hi : r ≤ 9 := by omega
  interval_cases r <;> rfl

/-- `digitHex` holds the hexadecimal digits in upper case. -/
lemma digitHex_eq {r : Int} (pos : 0 ≤ r) (h : r.natAbs < 16) :
    digitHex r = some (char (Nat.digitChar r.natAbs).toUpper) := by
  have hi : r ≤ 15 := by omega
  interval_cases r <;> rfl

/-- A text stored backwards, with a NUL after it, and then reversed. -/
lemma store_reverse {mem text : Bytes} {buf : Nat} :
    ((store mem buf text.reverse).bind fun mem =>
      (store mem (buf + text.length) [0]).bind fun mem => reverse mem buf (buf + text.length))
      = store mem buf (text ++ [0]) := by
  have both := @store_append mem text.reverse [0] buf
  rw [List.length_reverse] at both
  rw [← Option.bind_assoc, both]
  cases e : store mem buf (text.reverse ++ [0]) with
  | none =>
    have out : ¬buf + (text.reverse ++ [0]).length ≤ mem.length := by
      intro h
      rw [store, if_pos h] at e
      cases e
    rw [Option.bind_none, store, if_neg]
    simpa using out
  | some mem' =>
    have read := load_store e
    have len : text.length = text.reverse.length := List.length_reverse.symm
    rw [← len] at read
    rw [Option.bind_some, reverse, read]
    simp only [Option.bind_eq_bind, Option.bind_some, List.reverse_reverse]
    exact store_over e len

/-- The magnitude of a value that fits. -/
lemma IntType.Fits.natAbs_lt {t : IntType} {v : Int} (h : t.Fits v) : v.natAbs < 2 ^ t.width := by
  obtain ⟨lo, hi⟩ := h
  cases t <;>
    simp only [IntType.signed, IntType.width, IntType.minValue, IntType.maxValue, if_true, Bool.false_eq_true,
      if_false] at lo hi ⊢ <;> omega

/-- What `convert` does: it stores the text and a NUL. -/
lemma convert_eq {t : IntType} {v : Int} (fits : t.Fits v) {mem : Bytes} {buf : Nat} :
    convert t mem buf v = (store mem buf (decimal v ++ [0])).map fun mem => ((decimal v).length, mem) := by
  have enough : (Nat.toDigits 10 v.natAbs).length ≤ t.width := by
    rw [Nat.length_toDigits_le_iff (by decide) (by cases t <;> decide)]
    exact Nat.lt_of_lt_of_le fits.natAbs_lt (Nat.pow_le_pow_left (by decide) _)
  have loop := @digitLoop_eq t v 10 t.width buf zero char True mem (by decide) (by decide)
    (fun r _ h => zero_eq h) fits (fun _ => trivial) enough
  rw [← numeral_eq, ← List.length_map (f := char), ← numeral_eq] at loop
  rw [← store_reverse, convert, loop]
  by_cases neg : v < 0
  · have text : (decimal v).reverse = (numeral v.natAbs).reverse ++ [char '-'] := by
      rw [decimal, if_pos neg, List.reverse_cons]
    have len : (decimal v).length = (numeral v.natAbs).length + 1 := by
      rw [decimal, if_pos neg, List.length_cons]
    have both := @store_append mem (numeral v.natAbs).reverse [char '-'] buf
    rw [List.length_reverse] at both
    rw [text, len, ← both]
    simp only [Option.map_eq_bind, Option.bind_eq_bind, Option.bind_assoc, Option.bind_some, if_pos neg,
      Nat.add_assoc, Function.comp_apply, usub_of_le (Nat.le_add_right _ _), Nat.add_sub_cancel_left]
  · have text : decimal v = numeral v.natAbs := if_neg neg
    rw [text]
    simp only [Option.map_eq_bind, Option.bind_eq_bind, Option.bind_assoc, Option.bind_some, if_neg neg,
      Function.comp_apply, usub_of_le (Nat.le_add_right _ _), Nat.add_sub_cancel_left]

/-- What `convertHex` does. -/
lemma convertHex_eq {value : UInt64} {mem : Bytes} {buf : Nat} :
    convertHex mem buf value = (store mem buf (hexadecimal value.toNat ++ [0])).map
      fun mem => ((hexadecimal value.toNat).length, mem) := by
  have lt : value.toNat < 2 ^ 64 := value.toNat_lt
  have fits : IntType.unsignedLong.Fits value.toNat := by
    constructor <;>
      simp only [IntType.minValue, IntType.maxValue, IntType.signed, IntType.width, Bool.false_eq_true, if_false] <;>
      omega
  have enough : (Nat.toDigits 16 (value.toNat : Int).natAbs).length ≤ 64 := by
    rw [Int.natAbs_natCast, Nat.length_toDigits_le_iff (by decide) (by decide)]
    exact Nat.lt_trans lt (by decide)
  have loop := @digitLoop_eq .unsignedLong value.toNat 16 64 buf digitHex (fun c => char c.toUpper) False mem
    (by decide) (by decide) (fun r pos h => digitHex_eq (Int.not_lt.1 pos) h) fits (by omega) enough
  rw [Int.natAbs_natCast, ← hexadecimal, ← List.length_map (f := fun c => char (Char.toUpper c)), ← hexadecimal]
    at loop
  rw [← store_reverse, convertHex, loop]
  simp only [Option.map_eq_bind, Option.bind_eq_bind, Option.bind_assoc, Option.bind_some, Function.comp_apply,
    usub_of_le (Nat.le_add_right _ _), Nat.add_sub_cancel_left]

/-- A decimal has at most twenty characters. -/
lemma decimal_length {t : IntType} {v : Int} (fits : t.Fits v) : (decimal v).length ≤ 20 := by
  have lt := fits.natAbs_lt
  obtain ⟨lo, hi⟩ := fits
  by_cases neg : v < 0
  · rw [decimal, if_pos neg, List.length_cons]
    refine Nat.succ_le_succ (numeral_length (by decide) ?_)
    cases t <;> simp only [IntType.signed, IntType.width, IntType.minValue, if_true, Bool.false_eq_true, if_false] at lo
      <;> omega
  · rw [decimal, if_neg neg]
    refine numeral_length (by decide) (Nat.lt_trans lt ?_)
    cases t <;> decide

/-- A hexadecimal has at most sixteen characters. -/
lemma hexadecimal_length {value : UInt64} : (hexadecimal value.toNat).length ≤ 16 := by
  rw [hexadecimal, List.length_map, Nat.length_toDigits_le_iff (by decide) (by decide)]
  exact value.toNat_lt

/-! ## Canonical numerals -/

/-- An integer is read as a numeral with perhaps a minus sign before it. -/
def readInteger : Bytes → Option Int
  | [] => none
  | c :: s =>
    if c = char '-' then do
      let n ← readNumeral s
      some (-(n : Int))
    else do
      let n ← readNumeral (c :: s)
      some (n : Int)

/-- The text `s` with the digits `ds` is the canonical decimal numeral of `v`. -/
structure Canonical (v : Int) (s ds : Bytes) : Prop where
  sign : s = if v < 0 then char '-' :: ds else ds
  digits : ds ≠ [] ∧ ∀ d ∈ ds, 48 ≤ d ∧ d ≤ 57
  leading : ds.head? = some (char '0') → v = 0 ∧ ds = [char '0']
  value : readInteger s = some v

/-- A decimal is the canonical numeral of its value. -/
lemma decimal_canonical {v : Int} : Canonical v (decimal v) (numeral v.natAbs) where
  sign := rfl
  digits := ⟨numeral_ne_nil, fun _ => numeral_digit⟩
  leading h := by
    have zero : v = 0 := Int.natAbs_eq_zero.1 (numeral_head h)
    rw [zero]
    exact ⟨rfl, by decide⟩
  value := by
    by_cases neg : v < 0
    · rw [decimal, if_pos neg, readInteger, if_pos rfl, readNumeral_numeral, Option.bind_eq_bind, Option.bind_some,
        Option.some.injEq]
      omega
    · have read := @readNumeral_numeral v.natAbs
      rw [decimal, if_neg neg]
      cases e : numeral v.natAbs with
      | nil => exact absurd e numeral_ne_nil
      | cons c s =>
        have ne : c ≠ char '-' := by
          rintro rfl
          exact notMem_numeral (by decide) (show char '-' ∈ numeral v.natAbs by simp [e])
        rw [e] at read
        rw [readInteger, if_neg ne, read, Option.bind_eq_bind, Option.bind_some, Option.some.injEq]
        omega

/-- For every value of every integer type, `convert` is defined wherever the text and a NUL have room: it writes
    the canonical numeral and the NUL and nothing else, and returns the length of the numeral. -/
theorem convert_decimal (t : IntType) (v : t.Value) :
    ∃ s ds, Canonical v.1 s ds ∧ s.length ≤ 20 ∧
      ∀ (mem : Bytes) (buf : Nat), buf + s.length < mem.length →
        convert t mem buf v.1 = some (s.length, mem.take buf ++ (s ++ [0]) ++ mem.drop (buf + s.length + 1)) := by
  refine ⟨_, _, decimal_canonical, decimal_length v.2, fun mem buf room => ?_⟩
  have inside : buf + (decimal v.1 ++ [0]).length ≤ mem.length := by
    rw [List.length_append]
    exact room
  rw [convert_eq v.2, store, if_pos inside, Option.map_some, List.length_append]
  rfl

example : convert .long (List.replicate 22 7) 0 (-2 ^ 63) = some (20, bytes "-9223372036854775808" ++ [0, 7]) := by
  decide

end WebServer.Log
