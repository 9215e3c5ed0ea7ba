import Mathlib.Tactic

/-!
# Numbers of a fixed width

Strings of digits, most significant first. Strings of one length are in the lexicographic order if and only if their
values are in order (`lt_iff_value`), and strings made of parts of fixed lengths are ordered by their parts
(`append_lt_append`).
-/

namespace WebServer.Lib

variable {α : Type*}

/-- The value of a string of digits. -/
def value (base : Nat) (digit : α → Nat) (s : List α) : Nat := s.foldl (fun n d => base * n + digit d) 0

section Value

variable {base : Nat} {digit : α → Nat} {s t : List α}

/-- Reading from the left goes on from what has been read. -/
lemma foldl_value {n : Nat} :
    s.foldl (fun n d => base * n + digit d) n = n * base ^ s.length + value base digit s := by
  unfold value
  induction s generalizing n with
  | nil => simp
  | cons d s ih =>
    rw [List.foldl_cons, List.foldl_cons, ih, @ih (base * 0 + digit d), List.length_cons, Nat.pow_succ]
    ring

/-- The value of the first digit is that of its place. -/
lemma value_cons {d : α} : value base digit (d :: s) = digit d * base ^ s.length + value base digit s := by
  rw [value, List.foldl_cons, foldl_value]
  ring

/-- The digits before others are as many places higher. -/
lemma value_append : value base digit (s ++ t) = value base digit s * base ^ t.length + value base digit t := by
  rw [value, List.foldl_append, foldl_value]
  rfl

/-- Zeros in front do not count. -/
lemma value_replicate {zero : α} (h : digit zero = 0) {n : Nat} : value base digit (List.replicate n zero) = 0 := by
  induction n with
  | zero => rfl
  | succ n ih => rw [List.replicate_succ, value_cons, ih, h, Nat.zero_mul]

/-- Digits below the base are less than the next place. -/
lemma value_lt (h : ∀ d ∈ s, digit d < base) : value base digit s < base ^ s.length := by
  induction s with
  | nil => exact Nat.one_pos
  | cons d s ih =>
    have ⟨hd, hs⟩ := List.forall_mem_cons.1 h
    have lt := ih hs
    have le : (digit d + 1) * base ^ s.length ≤ base * base ^ s.length := Nat.mul_le_mul_right _ hd
    rw [value_cons, List.length_cons, Nat.pow_succ]
    nlinarith

end Value

section Order

variable [LT α]

/-- Parts of one length are compared first. -/
lemma append_lt_append {a b s t : List α} (len : a.length = b.length) :
    a ++ s < b ++ t ↔ a < b ∨ a = b ∧ s < t := by
  induction a generalizing b with
  | nil =>
    obtain rfl := List.length_eq_zero_iff.1 len.symm
    simp
  | cons x a ih =>
    cases b with
    | nil => cases len
    | cons y b =>
      rw [List.cons_append, List.cons_append, List.cons_lt_cons_iff, List.cons_lt_cons_iff, ih (Nat.succ.inj len),
        List.cons.injEq]
      tauto

variable {base : Nat} {digit : α → Nat} {D : Set α} {s t : List α}

/-- Two digits of a most significant place, and what follows them. -/
lemma place_lt {a b m n size : Nat} (hm : m < size) (hn : n < size) :
    a * size + m < b * size + n ↔ a < b ∨ a = b ∧ m < n := by
  rcases Nat.lt_trichotomy a b with lt | rfl | gt
  · have : (a + 1) * size ≤ b * size := Nat.mul_le_mul_right _ lt
    refine iff_of_true ?_ (.inl lt)
    nlinarith
  · omega
  · have : (b + 1) * size ≤ a * size := Nat.mul_le_mul_right _ gt
    refine iff_of_false ?_ (by omega)
    nlinarith

/-- Strings of one length are ordered as their values. -/
lemma lt_iff_value (order : ∀ a ∈ D, ∀ b ∈ D, a < b ↔ digit a < digit b) (inj : Set.InjOn digit D)
    (bound : ∀ d ∈ D, digit d < base) (hs : ∀ d ∈ s, d ∈ D) (ht : ∀ d ∈ t, d ∈ D) (len : s.length = t.length) :
    s < t ↔ value base digit s < value base digit t := by
  induction s generalizing t with
  | nil =>
    obtain rfl := List.length_eq_zero_iff.1 len.symm
    simp
  | cons a s ih =>
    cases t with
    | nil => cases len
    | cons b t =>
      have ⟨ha, hs⟩ := List.forall_mem_cons.1 hs
      have ⟨hb, ht⟩ := List.forall_mem_cons.1 ht
      have len := Nat.succ.inj len
      have sizes := value_lt fun d hd => bound d (hs d hd)
      have sizet := value_lt fun d hd => bound d (ht d hd)
      rw [← len] at sizet
      rw [List.cons_lt_cons_iff, value_cons, value_cons, ← len, place_lt sizes sizet, order a ha b hb, ih hs ht len,
        inj.eq_iff ha hb]

end Order

end WebServer.Lib
