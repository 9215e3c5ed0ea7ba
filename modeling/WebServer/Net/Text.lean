import WebServer.Net.Sysw

/-!
# Numbers as text

Decimal numerals as `printf` writes them, and how they are read. A numeral consists of digits, has no leading
zero unless it is that of zero, and tells the number (`readNumeral_numeral`).
-/

namespace WebServer.Net

/-- A nonnegative number printed with `%d` or `%u`. -/
def numeral (n : Nat) : Bytes := bytes (toString n)

/-- `snprintf` into a buffer of this size. -/
def snprintf (size : Nat) (text : Bytes) : Bytes := text.take (size - 1)

/-- A numeral of decimal digits. -/
def readNumeral (ds : Bytes) : Option Nat :=
  if ds ≠ [] ∧ ds.all fun d => 48 ≤ d ∧ d ≤ 57 then
    some (ds.foldl (fun n d => 10 * n + (d.toNat - 48)) 0)
  else
    none

/-! ## Numerals -/

/-- The characters of a numeral are its digits. -/
lemma numeral_eq {n : Nat} : numeral n = (Nat.toDigits 10 n).map char := by
  rw [← Nat.toList_repr]
  rfl

/-- The code of a digit. -/
lemma char_digit {c : Char} (h : c.isDigit = true) :
    48 ≤ char c ∧ char c ≤ 57 ∧ (char c).toNat = c.toNat := by
  simp only [Char.isDigit, Bool.and_eq_true, decide_eq_true_eq, ge_iff_le, UInt32.le_iff_toNat_le] at h
  have hc : (char c).toNat = c.toNat := by
    simp only [char, Nat.toUInt8, UInt8.toNat_ofNat']
    have : c.toNat ≤ 57 := h.2
    omega
  refine ⟨?_, ?_, hc⟩
  · rw [UInt8.le_iff_toNat_le, hc]
    exact h.1
  · rw [UInt8.le_iff_toNat_le, hc]
    exact h.2

/-- A numeral has digits only. -/
lemma numeral_digit {n : Nat} {d : UInt8} (h : d ∈ numeral n) : 48 ≤ d ∧ d ≤ 57 := by
  rw [numeral_eq, List.mem_map] at h
  obtain ⟨c, hc, rfl⟩ := h
  obtain ⟨lo, hi, _⟩ := char_digit (Nat.isDigit_of_mem_toDigits (by decide) (by decide) hc)
  exact ⟨lo, hi⟩

/-- A byte below the digits is not in a numeral. -/
lemma notMem_numeral {n : Nat} {b : UInt8} (h : b < 48) : b ∉ numeral n := by
  intro hm
  have := (numeral_digit hm).1
  rw [UInt8.le_iff_toNat_le] at this
  rw [UInt8.lt_iff_toNat_lt] at h
  omega

/-- A number below a power of ten has no more digits than the exponent. -/
lemma numeral_length {n k : Nat} (pos : 0 < k) (h : n < 10 ^ k) : (numeral n).length ≤ k := by
  rw [numeral_eq, List.length_map, Nat.length_toDigits_le_iff (by decide) pos]
  exact h

/-- The value of a numeral, read from the left. -/
lemma numeral_value {n : Nat} : (numeral n).foldl (fun n d => 10 * n + (d.toNat - 48)) 0 = n := by
  have digits : ∀ c ∈ Nat.toDigits 10 n, (char c).toNat = c.toNat := fun c hc =>
    (char_digit (Nat.isDigit_of_mem_toDigits (by decide) (by decide) hc)).2.2
  rw [numeral_eq, List.foldl_map]
  calc (Nat.toDigits 10 n).foldl (fun n c => 10 * n + ((char c).toNat - 48)) 0
      = (Nat.toDigits 10 n).foldl (fun n c => 10 * n + (c.toNat - 48)) 0 :=
        List.foldl_ext _ _ _ fun n c hc => by rw [digits c hc]
    _ = Nat.ofDigitChars 10 (Nat.toDigits 10 n) 0 := Nat.ofDigitChars_eq_foldl.symm
    _ = n := Nat.ofDigitChars_ten_toDigits

/-- Different numbers have different numerals. -/
lemma numeral_inj {m n : Nat} (h : numeral m = numeral n) : m = n := by
  rw [← @numeral_value m, h, numeral_value]

/-- A numeral is not empty. -/
lemma numeral_ne_nil {n : Nat} : numeral n ≠ [] := by
  rw [numeral_eq]
  simp [Nat.toDigits_ne_nil]

/-- Only the numeral of zero starts with a zero. -/
lemma numeral_head {n : Nat} (h : (numeral n).head? = some (char '0')) : n = 0 := by
  rw [numeral_eq] at h
  induction n using Nat.strong_induction_on with
  | _ n ih =>
    by_cases hlt : n < 10
    · rw [Nat.toDigits_of_lt_base hlt] at h
      interval_cases n <;> first | rfl | exact absurd h (by decide)
    · rw [Nat.toDigits_of_base_le (by decide) (by omega), List.map_append, List.head?_append_of_ne_nil] at h
      · have quot := ih (n / 10) (by omega) h
        omega
      · simp [Nat.toDigits_ne_nil]

/-- A numeral is read back as its number. -/
lemma readNumeral_numeral {n : Nat} : readNumeral (numeral n) = some n := by
  have all : (numeral n).all (fun d => 48 ≤ d ∧ d ≤ 57) = true := by
    rw [List.all_eq_true]
    exact fun d hd => decide_eq_true (numeral_digit hd)
  rw [readNumeral, if_pos ⟨numeral_ne_nil, all⟩, Option.some.injEq]
  exact numeral_value

end WebServer.Net
