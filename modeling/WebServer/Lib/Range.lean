import Mathlib.Tactic
import Mathlib.Data.List.Basic

/-!
# Random access ranges

Iterators into a memory, the standard algorithms over them, and what the algorithms compute on the
sequence a range denotes.

* `RandomAccess M I α`: the operations of a random access iterator type `I` into memories `M` with
  elements `α`. Every operation may be undefined (`none`): dereferencing or leaving the memory.
* `find`, `search`, `copyRange`, `skipWhile`: `std::find`, `std::search`, the copy made by a string
  constructor or `assign` from a range, and an unbounded scan `for (; *it == v; ++it)`. As in the
  random access versions of the standard library, `find` and `search` make `last - first` rounds, so a
  range whose start lies after its end is searched in no round and `last` is returned.
* `Represents m s At`: under the position relation `At`, the iterators of `m` are the positions
  `0 … s.length` of the sequence `s`, and the operations are position arithmetic.

* `SameAccess m m'`: two memories, perhaps of different types, whose iterators are the same; the algorithms
  then compute the same.

The specification lemmas `Represents.find_spec`, `Represents.search_spec`, `Represents.copyRange_spec`
and `Represents.skipWhile_spec` state each algorithm on the sequence, by `List.idxOf`, `searchIdx`,
`slice` and `List.takeWhile`.
-/

namespace WebServer.Lib

/-- The operations of a random access iterator type `I` into memories `M`. -/
class RandomAccess (M : Type) (I α : outParam Type) where
  /-- `*it` -/
  deref : M → I → Option α
  /-- `++it` -/
  next : M → I → Option I
  /-- `--it` -/
  prev : M → I → Option I
  /-- `it + n` -/
  plus : M → I → Int → Option I
  /-- `it - jt` -/
  minus : M → I → I → Option Int
  /-- `it == jt` -/
  same : M → I → I → Bool
  /-- More rounds than `++` can make inside the memory. -/
  extent : M → Nat

open RandomAccess

section Algorithms

variable {M I α : Type} [RandomAccess M I α] [DecidableEq α]

def findLoop (m : M) (v : α) : Nat → I → I → Option I
  | 0, _, last => some last
  | n + 1, first, last => do
    if (← deref m first) = v then
      some first
    else
      findLoop m v n (← next m first) last

/-- `std::find(first, last, v)` -/
def find (m : M) (first last : I) (v : α) : Option I := do
  findLoop m v (← minus m last first).toNat first last

/-- How comparing a pattern at one position ends. -/
inductive Match where
  | found
  | mismatch
  | exhausted
deriving DecidableEq

/-- Compare a pattern with the elements from `current` on, up to `last`. -/
def matchAt (m : M) (last : I) : List α → I → Option Match
  | [], _ => some .found
  | c :: cs, current =>
    if same m current last then
      some .exhausted
    else do
      if (← deref m current) = c then
        matchAt m last cs (← next m current)
      else
        some .mismatch

def searchLoop (m : M) (pat : List α) : Nat → I → I → Option I
  | 0, _, last => some last
  | n + 1, first, last => do
    match ← matchAt m last pat first with
    | .found => some first
    | .exhausted => some last
    | .mismatch => searchLoop m pat n (← next m first) last

/-- `std::search(first, last, pat.begin(), pat.end())` -/
def search (m : M) (first last : I) (pat : List α) : Option I := do
  searchLoop m pat (← minus m last first).toNat first last

def copyLoop (m : M) : Nat → I → Option (List α)
  | 0, _ => some []
  | n + 1, it => do
    let c ← deref m it
    let cs ← copyLoop m n (← next m it)
    some (c :: cs)

/-- `std::string(first, last)`; a range of negative length throws. -/
def copyRange (m : M) (first last : I) : Option (List α) := do
  let n ← minus m last first
  if n < 0 then none else copyLoop m n.toNat first

/-- `for (; *it == v; it = step(it));`, undefined when it leaves the memory. -/
def skipLoop (m : M) (v : α) (step : I → Option I) : Nat → I → Option I
  | 0, _ => none
  | n + 1, it => do
    if (← deref m it) = v then
      skipLoop m v step n (← step it)
    else
      some it

/-- `for (; *it == v; ++ it);` -/
def skipWhile (m : M) (v : α) (it : I) : Option I :=
  skipLoop m v (next m) (extent m) it

/-- `for (; *it == v; -- it);` -/
def skipWhileBack (m : M) (v : α) (it : I) : Option I :=
  skipLoop m v (prev m) (extent m) it

end Algorithms

section Congruence

variable {M M' I α : Type} [RandomAccess M I α] [RandomAccess M' I α]

/-- Every operation is the same in the two memories. -/
structure SameAccess (m : M) (m' : M') : Prop where
  deref : RandomAccess.deref m = RandomAccess.deref m'
  next : RandomAccess.next m = RandomAccess.next m'
  prev : RandomAccess.prev m = RandomAccess.prev m'
  plus : RandomAccess.plus m = RandomAccess.plus m'
  minus : RandomAccess.minus m = RandomAccess.minus m'
  same : RandomAccess.same m = RandomAccess.same m'
  extent : RandomAccess.extent m = RandomAccess.extent m'

namespace SameAccess

variable [DecidableEq α] {m : M} {m' : M'} {first last it : I} {v : α} {pat : List α} {n : Nat}

/-- Where the accesses agree, `find` finds the same position. -/
lemma findLoop (h : SameAccess m m') : Lib.findLoop m v n first last = Lib.findLoop m' v n first last := by
  induction n generalizing first with
  | zero => rfl
  | succ n ih => simp only [Lib.findLoop, h.deref, h.next, ih]

/-- `std::find` does the same. -/
lemma find (h : SameAccess m m') : Lib.find m first last v = Lib.find m' first last v := by
  simp only [Lib.find, h.minus, h.findLoop]

/-- A pattern is found at the same positions. -/
lemma matchAt (h : SameAccess m m') : Lib.matchAt m last pat it = Lib.matchAt m' last pat it := by
  induction pat generalizing it with
  | nil => rfl
  | cons c cs ih => simp only [Lib.matchAt, h.same, h.deref, h.next, ih]

/-- Where the accesses agree, `search` finds the same position. -/
lemma searchLoop (h : SameAccess m m') :
    Lib.searchLoop m pat n first last = Lib.searchLoop m' pat n first last := by
  induction n generalizing first with
  | zero => rfl
  | succ n ih => simp only [Lib.searchLoop, h.matchAt, h.next, ih]

/-- `std::search` does the same. -/
lemma search (h : SameAccess m m') : Lib.search m first last pat = Lib.search m' first last pat := by
  simp only [Lib.search, h.minus, h.searchLoop]

omit [DecidableEq α] in
/-- Where the accesses agree, the same bytes are copied. -/
lemma copyLoop (h : SameAccess m m') : Lib.copyLoop m n it = Lib.copyLoop m' n it := by
  induction n generalizing it with
  | zero => rfl
  | succ n ih => simp only [Lib.copyLoop, h.deref, h.next, ih]

omit [DecidableEq α] in
/-- A range has the same elements. -/
lemma copyRange (h : SameAccess m m') : Lib.copyRange m first last = Lib.copyRange m' first last := by
  simp only [Lib.copyRange, h.minus, h.copyLoop]

/-- The loop that skips a value does the same. -/
lemma skipLoop (h : SameAccess m m') {step : I → Option I} :
    Lib.skipLoop m v step n it = Lib.skipLoop m' v step n it := by
  induction n generalizing it with
  | zero => rfl
  | succ n ih => simp only [Lib.skipLoop, h.deref, ih]

/-- Skipping a value forwards does the same. -/
lemma skipWhile (h : SameAccess m m') : Lib.skipWhile m v it = Lib.skipWhile m' v it := by
  simp only [Lib.skipWhile, h.next, h.extent, h.skipLoop]

/-- Skipping a value backwards does the same. -/
lemma skipWhileBack (h : SameAccess m m') : Lib.skipWhileBack m v it = Lib.skipWhileBack m' v it := by
  simp only [Lib.skipWhileBack, h.prev, h.extent, h.skipLoop]

end SameAccess

end Congruence

section Sequences

variable {α : Type}

/-- The elements at the positions `p, …, q - 1`. -/
def slice (s : List α) (p q : Nat) : List α := (s.drop p).take (q - p)

/-- The length of a slice within the list. -/
lemma slice_length {s : List α} {p q} (h : q ≤ s.length) : (slice s p q).length = q - p := by
  simp only [slice, List.length_take, List.length_drop]
  omega

/-- Dropping from a slice moves its start. -/
lemma slice_drop {s : List α} {p q n} : (slice s p q).drop n = slice s (p + n) q := by
  simp only [slice, List.drop_take, List.drop_drop]
  congr 1
  omega

/-- Taking from a slice moves its end. -/
lemma slice_take {s : List α} {p q n} (h : p + n ≤ q) : (slice s p q).take n = slice s p (p + n) := by
  simp only [slice, List.take_take]
  congr 1
  omega

/-- A slice that is not empty starts with the element at its start. -/
lemma slice_cons {s : List α} {p q} (h : p < q) (hq : q ≤ s.length) :
    slice s p q = s[p] :: slice s (p + 1) q := by
  rw [slice, List.drop_eq_getElem_cons (by omega : p < s.length),
    show q - p = (q - (p + 1)) + 1 from by omega, List.take_succ_cons]
  rfl

/-- A slice depends on the list up to its end only. -/
lemma slice_congr {s t : List α} {p q} (h : s.take q = t.take q) : slice s p q = slice t p q := by
  rw [slice, slice, ← List.drop_take, ← List.drop_take, h]

/-- Slices that meet are one slice. -/
lemma slice_append {s : List α} {p q r} (h : p ≤ q) (hr : q ≤ r) :
    slice s p q ++ slice s q r = slice s p r := by
  rw [slice, slice, slice, show r - p = (q - p) + (r - q) from by omega, List.take_add,
    List.drop_drop, show p + (q - p) = q from by omega]

/-- The whole list as a slice. -/
lemma slice_all {s : List α} : slice s 0 s.length = s := by
  simp [slice]

/-- What is left after the elements taken are those that are dropped to. -/
lemma drop_takeWhile {s : List α} {f : α → Bool} :
    s.drop (s.takeWhile f).length = s.dropWhile f := by
  calc s.drop (s.takeWhile f).length
      = (s.takeWhile f ++ s.dropWhile f).drop (s.takeWhile f).length := by
        rw [List.takeWhile_append_dropWhile]
    _ = s.dropWhile f := List.drop_left

variable [DecidableEq α]

/-- The position of the first occurrence of a pattern; the length when there is none. -/
def searchIdx (pat : List α) : List α → Nat
  | [] => 0
  | x :: xs => if pat <+: x :: xs then 0 else searchIdx pat xs + 1

/-- A pattern is found in the list or at its end. -/
lemma searchIdx_le {pat s : List α} : searchIdx pat s ≤ s.length := by
  induction s with
  | nil => exact Nat.le_refl _
  | cons x xs ih =>
    simp only [searchIdx, List.length_cons]
    split <;> omega

/-- A sequence shorter than the pattern has no occurrence of it. -/
lemma searchIdx_short {pat s : List α} (h : s.length < pat.length) :
    searchIdx pat s = s.length := by
  induction s with
  | nil => rfl
  | cons x xs ih =>
    have np : ¬pat <+: x :: xs := fun hp => by
      have := hp.length_le
      omega
    rw [searchIdx, if_neg np, ih (by simp only [List.length_cons] at h; omega), List.length_cons]

/-- There is an occurrence at the position found. -/
lemma searchIdx_occurs {pat s : List α} (h : searchIdx pat s < s.length) :
    pat <+: s.drop (searchIdx pat s) := by
  induction s with
  | nil => cases h
  | cons x xs ih =>
    simp only [searchIdx, List.length_cons] at h ⊢
    split
    case isTrue hp => exact hp
    case isFalse hp =>
      rw [if_neg hp] at h
      exact ih (by omega)

/-- An occurrence lies inside the sequence. -/
lemma searchIdx_found {pat s : List α} (h : searchIdx pat s < s.length) :
    searchIdx pat s + pat.length ≤ s.length := by
  have := (searchIdx_occurs h).length_le
  rw [List.length_drop] at this
  omega

/-- Adding to a sequence with an occurrence does not change the first one. -/
lemma searchIdx_append {pat s t : List α} (h : searchIdx pat s < s.length) :
    searchIdx pat (s ++ t) = searchIdx pat s := by
  induction s with
  | nil => cases h
  | cons x xs ih =>
    simp only [List.cons_append, searchIdx, List.length_cons] at h ⊢
    by_cases hp : pat <+: x :: xs
    · rw [if_pos hp]
      exact if_pos (hp.trans (List.prefix_append (x :: xs) t))
    · rw [if_neg hp] at h
      have fits := searchIdx_found (by omega : searchIdx pat xs < xs.length)
      have np : ¬pat <+: x :: (xs ++ t) := fun hp' =>
        hp (List.prefix_of_prefix_length_le hp' (List.prefix_append (x :: xs) t)
          (by simp only [List.length_cons]; omega))
      rw [if_neg hp, if_neg np, ih (by omega)]

/-- The first occurrence after elements other than the pattern's first. -/
lemma searchIdx_of_notMem {c : α} {cs s t : List α} (h : c ∉ s) :
    searchIdx (c :: cs) (s ++ (c :: cs) ++ t) = s.length := by
  induction s with
  | nil => exact if_pos (List.prefix_append (c :: cs) t)
  | cons x xs ih =>
    have np : ¬c :: cs <+: x :: (xs ++ (c :: cs) ++ t) := fun hp =>
      h (by rw [(List.cons_prefix_cons.1 hp).1]; exact .head _)
    simp only [List.cons_append, searchIdx, List.length_cons]
    rw [if_neg (by simpa using np)]
    exact congrArg (· + 1) (ih fun hm => h (.tail _ hm))

/-- An occurrence found first at the end of `s` is the only one to start in `s`. For a pattern no proper
    suffix of which is a prefix of it, occurrences do not overlap, and it is enough that `s` has none. -/
lemma searchIdx_append_pat {pat s t : List α} (ne : pat ≠ [])
    (border : ∀ n, 0 < n → n < pat.length → pat.drop n ≠ pat.take (pat.length - n)) :
    searchIdx pat (s ++ pat ++ t) = s.length ↔ ¬pat <:+: s := by
  induction s with
  | nil =>
    have first : searchIdx pat ([] ++ pat ++ t) = 0 := by
      cases pat with
      | nil => exact absurd rfl ne
      | cons c cs => exact if_pos (List.prefix_append (c :: cs) t)
    rw [first, List.infix_nil]
    exact iff_of_true rfl ne
  | cons x xs ih =>
    -- an occurrence at the front either fits into `x :: xs` or overlaps the one after it
    have front : pat <+: x :: (xs ++ pat ++ t) ↔ pat <+: x :: xs := by
      refine ⟨fun hp => ?_, fun hp => ?_⟩
      · rw [show x :: (xs ++ pat ++ t) = (x :: xs) ++ (pat ++ t) from by simp] at hp
        rcases Nat.lt_or_ge (x :: xs).length pat.length with lt | ge
        · obtain ⟨u, rfl⟩ := List.prefix_of_prefix_length_le (List.prefix_append _ _) hp lt.le
          rw [List.prefix_append_right_inj] at hp
          have hu : u <+: x :: xs ++ u := List.prefix_of_prefix_length_le hp
            (List.prefix_append _ _) (by rw [List.length_append]; omega)
          refine absurd ?_ (border (x :: xs).length (by simp) lt)
          rw [List.drop_left, List.length_append, Nat.add_sub_cancel_left]
          exact List.prefix_iff_eq_take.1 hu
        · exact List.prefix_of_prefix_length_le hp (List.prefix_append _ _) ge
      · exact hp.trans ⟨pat ++ t, by simp⟩
    rw [List.infix_cons_iff, not_or, ← front, ← ih]
    simp only [List.cons_append, searchIdx, List.length_cons]
    by_cases hp : pat <+: x :: (xs ++ pat ++ t)
    · rw [if_pos hp]
      exact iff_of_false (by omega) (fun h => h.1 hp)
    · rw [if_neg hp, Nat.add_right_cancel_iff]
      exact (and_iff_right hp).symm

/-- What comes before and after the first occurrence of a pattern. -/
def cut (pat s : List α) : Option (List α × List α) :=
  if searchIdx pat s < s.length then
    some (s.take (searchIdx pat s), s.drop (searchIdx pat s + pat.length))
  else
    none

/-- A pattern whose first element is not in `s` is found right behind `s`. -/
lemma cut_of_notMem {c : α} {cs s t : List α} (h : c ∉ s) :
    cut (c :: cs) (s ++ (c :: cs) ++ t) = some (s, t) := by
  rw [cut, searchIdx_of_notMem h, if_pos (by simp only [List.length_append, List.length_cons]; omega),
    List.append_assoc, List.take_left' rfl, ← List.append_assoc, List.drop_left' (by simp)]

end Sequences

section Representation

variable {M I α : Type} [RandomAccess M I α]

/-- Under `At` the iterators of the memory `m` are the positions of the sequence `s`. -/
structure Represents (m : M) (s : List α) (At : I → Nat → Prop) : Prop where
  bound : ∀ {i p}, At i p → p ≤ s.length
  same : ∀ {i j p q}, At i p → At j q → (same m i j = true ↔ p = q)
  deref : ∀ {i p}, At i p → (h : p < s.length) → deref m i = some s[p]
  next : ∀ {i p}, At i p → p < s.length → ∃ j, next m i = some j ∧ At j (p + 1)
  plus : ∀ {i p} {n : Nat}, At i p → p + n ≤ s.length → 0 < n →
    ∃ j, plus m i n = some j ∧ At j (p + n)
  minus : ∀ {i j p q}, At i p → At j q → q ≤ p → minus m i j = some ((p : Int) - q)
  minus_neg : ∀ {i j p q}, At i p → At j q → p < q →
    ∃ z, RandomAccess.minus m i j = some z ∧ z < 0
  extent : s.length < extent m

variable [DecidableEq α] {m : M} {s : List α} {At : I → Nat → Prop}

/-- The loop of `std::find` stops at the first element of the slice that is the value, or at its end. -/
lemma Represents.findLoop_spec (R : Represents m s At) {v n p first last}
    (hi : At first p) (hl : At last (p + n)) :
    ∃ j, findLoop m v n first last = some j ∧ At j (p + (slice s p (p + n)).idxOf v) := by
  induction n generalizing p first with
  | zero =>
    refine ⟨last, rfl, ?_⟩
    simpa [slice] using hl
  | succ n ih =>
    have hp : p < s.length := by have := R.bound hl; omega
    rw [slice_cons (by omega) (R.bound hl)]
    simp only [findLoop, R.deref hi hp, Option.bind_eq_bind, Option.bind_some]
    by_cases e : s[p] = v
    · rw [if_pos e, List.idxOf_cons_eq _ e]
      exact ⟨first, rfl, hi⟩
    · obtain ⟨j, ej, hj⟩ := R.next hi hp
      rw [if_neg e, ej, Option.bind_some, List.idxOf_cons_ne _ e]
      obtain ⟨k, ek, hk⟩ := ih hj (by rwa [show p + 1 + n = p + (n + 1) from by omega])
      refine ⟨k, ek, ?_⟩
      rwa [show p + 1 + n = p + (n + 1) from by omega, Nat.add_assoc, Nat.add_comm 1] at hk

/-- `std::find` returns the first occurrence in the range, or its end. -/
lemma Represents.find_spec (R : Represents m s At) {v p q first last}
    (hi : At first p) (hl : At last q) (h : p ≤ q) :
    ∃ j, find m first last v = some j ∧ At j (p + (slice s p q).idxOf v) := by
  obtain ⟨n, rfl⟩ := Nat.exists_eq_add_of_le h
  simp only [find, R.minus hl hi h, Option.bind_eq_bind, Option.bind_some]
  rw [show (((p + n : Nat) : Int) - p).toNat = n from by omega]
  exact R.findLoop_spec hi hl

/-- Comparing a pattern at a position, on the sequence. -/
lemma Represents.matchAt_spec (R : Represents m s At) (pat : List α) {p q current last}
    (hi : At current p) (hl : At last q) (h : p ≤ q) :
    (pat <+: slice s p q ∧ matchAt m last pat current = some .found) ∨
    ((slice s p q).length < pat.length ∧ matchAt m last pat current = some .exhausted) ∨
    (¬pat <+: slice s p q ∧ p < q ∧ matchAt m last pat current = some .mismatch) := by
  induction pat generalizing p current with
  | nil => exact .inl ⟨List.nil_prefix, rfl⟩
  | cons c cs ih =>
    simp only [matchAt]
    by_cases e : p = q
    · rw [if_pos ((R.same hi hl).2 e)]
      refine .inr (.inl ⟨?_, rfl⟩)
      simp [slice, e]
    · have hpq : p < q := by omega
      have hp : p < s.length := by have := R.bound hl; omega
      rw [if_neg (fun hs => e ((R.same hi hl).1 hs)), slice_cons hpq (R.bound hl), R.deref hi hp]
      simp only [Option.bind_eq_bind, Option.bind_some]
      by_cases ec : s[p] = c
      · obtain ⟨j, ej, hj⟩ := R.next hi hp
        rw [if_pos ec, ej, Option.bind_some, ec]
        rcases ih hj (by omega) with ⟨hp1, e1⟩ | ⟨hl1, e1⟩ | ⟨hn1, h1, e1⟩
        · exact .inl ⟨(List.prefix_cons_inj c).2 hp1, e1⟩
        · refine .inr (.inl ⟨?_, e1⟩)
          simpa using hl1
        · exact .inr (.inr ⟨fun hp1 => hn1 ((List.prefix_cons_inj c).1 hp1), hpq, e1⟩)
      · rw [if_neg ec]
        refine .inr (.inr ⟨fun hp1 => ?_, hpq, rfl⟩)
        exact ec (List.cons_prefix_cons.1 hp1).1.symm

/-- The loop of `std::search` stops at the first occurrence in the slice, or at its end. -/
lemma Represents.searchLoop_spec (R : Represents m s At) {pat n p first last}
    (hi : At first p) (hl : At last (p + n)) :
    ∃ j, searchLoop m pat n first last = some j ∧
      At j (p + searchIdx pat (slice s p (p + n))) := by
  induction n generalizing p first with
  | zero =>
    refine ⟨last, rfl, ?_⟩
    simpa [slice, searchIdx] using hl
  | succ n ih =>
    have hp : p < s.length := by have := R.bound hl; omega
    have hc := slice_cons (by omega : p < p + (n + 1)) (R.bound hl)
    simp only [searchLoop, Option.bind_eq_bind]
    rcases R.matchAt_spec pat hi hl (by omega) with ⟨hm, e⟩ | ⟨hm, e⟩ | ⟨hm, _, e⟩
    · refine ⟨first, by rw [e]; rfl, ?_⟩
      rw [hc] at hm ⊢
      rwa [searchIdx, if_pos hm]
    · refine ⟨last, by rw [e]; rfl, ?_⟩
      rwa [searchIdx_short hm, slice_length (R.bound hl), Nat.add_sub_cancel_left]
    · obtain ⟨j, ej, hj⟩ := R.next hi hp
      obtain ⟨k, ek, hk⟩ := ih hj (by rwa [show p + 1 + n = p + (n + 1) from by omega])
      refine ⟨k, by rw [e]; simpa [ej] using ek, ?_⟩
      rw [hc] at hm ⊢
      rw [searchIdx, if_neg hm]
      rwa [show p + 1 + n = p + (n + 1) from by omega, Nat.add_assoc, Nat.add_comm 1] at hk

/-- `std::search` returns the first occurrence in the range, or its end. -/
lemma Represents.search_spec (R : Represents m s At) {pat p q first last}
    (hi : At first p) (hl : At last q) (h : p ≤ q) :
    ∃ j, search m first last pat = some j ∧ At j (p + searchIdx pat (slice s p q)) := by
  obtain ⟨n, rfl⟩ := Nat.exists_eq_add_of_le h
  simp only [search, R.minus hl hi h, Option.bind_eq_bind, Option.bind_some]
  rw [show (((p + n : Nat) : Int) - p).toNat = n from by omega]
  exact R.searchLoop_spec hi hl

/-- `std::search` over a range whose start lies after its end finds nothing. -/
lemma Represents.search_inverted (R : Represents m s At) {pat p q first last}
    (hi : At first p) (hl : At last q) (h : q < p) : search m first last pat = some last := by
  obtain ⟨z, ez, hz⟩ := R.minus_neg hl hi h
  simp only [search, ez, Option.bind_eq_bind, Option.bind_some]
  rw [show z.toNat = 0 from by omega]
  rfl

omit [DecidableEq α] in
/-- The loop that copies a range gives the slice. -/
lemma Represents.copyLoop_spec (R : Represents m s At) {n p it} (hi : At it p)
    (h : p + n ≤ s.length) : copyLoop m n it = some (slice s p (p + n)) := by
  induction n generalizing p it with
  | zero => simp [copyLoop, slice]
  | succ n ih =>
    have hp : p < s.length := by omega
    obtain ⟨j, ej, hj⟩ := R.next hi hp
    rw [slice_cons (by omega) h]
    simp only [copyLoop, R.deref hi hp, ej, ih hj (by omega), Option.bind_eq_bind, Option.bind_some]
    rw [show p + 1 + n = p + (n + 1) from by omega]

omit [DecidableEq α] in
/-- The copy of a range is its slice. -/
lemma Represents.copyRange_spec (R : Represents m s At) {p q first last}
    (hi : At first p) (hl : At last q) (h : p ≤ q) :
    copyRange m first last = some (slice s p q) := by
  obtain ⟨n, rfl⟩ := Nat.exists_eq_add_of_le h
  simp only [copyRange, R.minus hl hi h, Option.bind_eq_bind, Option.bind_some]
  rw [if_neg (by omega), show (((p + n : Nat) : Int) - p).toNat = n from by omega]
  exact R.copyLoop_spec hi (R.bound hl)

/-- A forward scan over a run of `v` stops at the first other element before position `q`. -/
lemma Represents.skipLoop_spec (R : Represents m s At) {v n p q it} (hi : At it p)
    (hq : q < s.length) (hv : s[q] ≠ v) (h : p ≤ q) (hn : q - p < n) :
    ∃ j, skipLoop m v (RandomAccess.next m) n it = some j ∧
      At j (p + ((slice s p q).takeWhile (· = v)).length) := by
  induction n generalizing p it with
  | zero => omega
  | succ n ih =>
    have hp : p < s.length := by omega
    simp only [skipLoop, R.deref hi hp, Option.bind_eq_bind, Option.bind_some]
    by_cases e : s[p] = v
    · -- the element at `q` is another one, so the scan has not reached it
      have hpq : p < q := by
        rcases Nat.lt_or_eq_of_le h with h1 | h1
        · exact h1
        · subst h1; exact absurd e hv
      obtain ⟨j, ej, hj⟩ := R.next hi hp
      obtain ⟨k, ek, hk⟩ := ih hj (by omega) (by omega)
      refine ⟨k, by rw [if_pos e, ej]; exact ek, ?_⟩
      rw [slice_cons hpq (by omega), List.takeWhile_cons_of_pos (by simpa using e),
        List.length_cons]
      rwa [Nat.add_assoc, Nat.add_comm 1] at hk
    · refine ⟨it, by rw [if_neg e], ?_⟩
      rcases Nat.lt_or_eq_of_le h with h1 | h1
      · rw [slice_cons h1 (by omega), List.takeWhile_cons_of_neg (by simpa using e)]
        exact hi
      · subst h1
        simpa [slice] using hi

/-- Skipping a value stops at the first other element, if there is one. -/
lemma Represents.skipWhile_spec (R : Represents m s At) {v p q it} (hi : At it p)
    (hq : q < s.length) (hv : s[q] ≠ v) (h : p ≤ q) :
    ∃ j, skipWhile m v it = some j ∧ At j (p + ((slice s p q).takeWhile (· = v)).length) :=
  R.skipLoop_spec hi hq hv h (by have := R.extent; omega)

/-- A backward scan that starts at an element other than `v` does not move. -/
lemma Represents.skipWhileBack_spec (R : Represents m s At) {v q it} (hi : At it q)
    (hq : q < s.length) (hv : s[q] ≠ v) : skipWhileBack m v it = some it := by
  obtain ⟨n, en⟩ : ∃ n, RandomAccess.extent m = n + 1 :=
    Nat.exists_eq_succ_of_ne_zero (by have := R.extent; omega)
  simp only [skipWhileBack, en, skipLoop, R.deref hi hq, Option.bind_eq_bind, Option.bind_some,
    if_neg hv]

end Representation

end WebServer.Lib
