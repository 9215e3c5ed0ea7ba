import Mathlib.Data.List.Dedup
import Mathlib.Tactic

/-!
# Least recently used

The reference for a cache of the most recently used keys: `recent history` has the distinct keys of a
history of uses, the last used first. What a cache of capacity `cap` should hold is
`(recent history).take cap`. The two lemmas `take_recent_hit` and `take_recent_miss` say how one more use
changes this list, in terms of the list alone: a key in it moves to the front, another one is put at the
front and the last one goes if the list is full.
-/

namespace WebServer.Lib

variable {κ : Type*} [DecidableEq κ] {history l : List κ} {k : κ} {cap : Nat}

/-- The distinct keys of a history, the last used first. -/
def recent (history : List κ) : List κ := history.dedup.reverse

/-- A key is among the recent ones once. -/
lemma recent_nodup : (recent history).Nodup :=
  List.nodup_reverse.2 (List.nodup_dedup history)

/-- The recent keys are those of the history. -/
lemma mem_recent : k ∈ recent history ↔ k ∈ history := by
  rw [recent, List.mem_reverse, List.mem_dedup]

/-- The last key of a history comes last. -/
lemma dedup_append_singleton : (history ++ [k]).dedup = history.dedup.erase k ++ [k] := by
  induction history with
  | nil => rfl
  | cons x xs ih =>
    by_cases mem : x ∈ xs
    · rw [List.cons_append, List.dedup_cons_of_mem (List.mem_append_left _ mem), ih,
        List.dedup_cons_of_mem mem]
    · by_cases e : x = k
      · subst e
        rw [List.cons_append, List.dedup_cons_of_mem (by simp), ih, List.dedup_cons_of_notMem mem,
          List.erase_cons_head, List.erase_of_not_mem (mt List.mem_dedup.1 mem)]
      · rw [List.cons_append, List.dedup_cons_of_notMem (by simp [mem, e]), ih,
          List.dedup_cons_of_notMem mem, List.erase_cons_tail (by simpa using e), List.cons_append]

/-- One more use of a key brings it to the front. -/
lemma recent_append : recent (history ++ [k]) = k :: (recent history).erase k := by
  have nd := List.nodup_dedup history
  rw [recent, dedup_append_singleton, List.reverse_concat, nd.erase_eq_filter, ← List.filter_reverse]
  exact congrArg (k :: ·) (recent_nodup.erase_eq_filter k).symm

/-- Of a list without a key, its front part needs one element more of the list with the key. -/
lemma take_erase {n : Nat} : (l.erase k).take n = ((l.take (n + 1)).erase k).take n := by
  induction l generalizing n with
  | nil => rfl
  | cons x xs ih =>
    by_cases e : x = k
    · subst e
      rw [List.erase_cons_head, List.take_succ_cons, List.erase_cons_head, List.take_take,
        Nat.min_self]
    · cases n with
      | zero => rfl
      | succ n =>
        rw [List.erase_cons_tail (by simpa using e), List.take_succ_cons, List.take_succ_cons,
          List.erase_cons_tail (by simpa using e), List.take_succ_cons, ih]

/-- A key among the most recent ones moves to the front. -/
lemma take_recent_hit (hit : k ∈ (recent history).take cap) :
    (recent (history ++ [k])).take cap = k :: ((recent history).take cap).erase k := by
  cases cap with
  | zero => simp at hit
  | succ n =>
    have len := List.length_take_le (n + 1) (recent history)
    rw [recent_append, List.take_succ_cons, take_erase, List.take_of_length_le]
    rw [List.length_erase_of_mem hit]
    omega

/-- Another key is put at the front, and the last one goes if there is no room. -/
lemma take_recent_miss (pos : 0 < cap) (miss : k ∉ (recent history).take cap) :
    (recent (history ++ [k])).take cap
      = k :: if cap ≤ ((recent history).take cap).length then ((recent history).take cap).dropLast
        else (recent history).take cap := by
  cases cap with
  | zero => omega
  | succ n =>
    have len := List.length_take_le (n + 1) (recent history)
    rw [recent_append, List.take_succ_cons, take_erase, List.erase_of_not_mem miss]
    split
    case isTrue full =>
      rw [List.dropLast_eq_take, show ((recent history).take (n + 1)).length - 1 = n from by omega]
    case isFalse space => rw [List.take_of_length_le (by omega)]

end WebServer.Lib
