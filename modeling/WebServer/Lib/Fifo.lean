import Mathlib.Tactic

/-!
# Byte queues by history

A queue is described by what went in and how much came out: `Holds put taken held` says that the held
elements are the elements put in, in order, less a prefix of `taken` of them. The rules `Holds.put` and
`Holds.take` say how the two operations of a queue keep it.
-/

namespace WebServer.Lib

variable {α : Type*}

/-- The elements `held` are those `put` in, less the first `taken`. -/
structure Holds (put : List α) (taken : Nat) (held : List α) : Prop where
  le : taken ≤ put.length
  eq : held = put.drop taken

/-- A fresh queue. -/
lemma Holds.nil : Holds ([] : List α) 0 [] := ⟨Nat.le_refl _, rfl⟩

/-- Putting elements in at the end. -/
lemma Holds.put {put held xs : List α} {taken} (h : Holds put taken held) :
    Holds (put ++ xs) taken (held ++ xs) := by
  refine ⟨?_, ?_⟩
  · rw [List.length_append]
    exact Nat.le_trans h.le (Nat.le_add_right _ _)
  · rw [List.drop_append_of_le_length h.le, h.eq]

/-- Taking elements out at the front. -/
lemma Holds.take {put held : List α} {taken n} (h : Holds put taken held) (hn : n ≤ held.length) :
    Holds put (taken + n) (held.drop n) := by
  refine ⟨?_, ?_⟩
  · have := h.le
    rw [h.eq, List.length_drop] at hn
    omega
  · rw [h.eq, List.drop_drop]

end WebServer.Lib
