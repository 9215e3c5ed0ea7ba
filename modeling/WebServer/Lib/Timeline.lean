import Mathlib.Tactic

/-!
# Values that change at given times

A timeline is a first value and a list of changes, each a time and the value in force from then on. The changes
are in order.

Where the values set a clock, an `offset` of each, the changes also happen at times of that clock. The clock shows
times twice when it is set back. `inForce_shown` says which value is found for the time that the clock shows: the
one in force, or the one after the next change if the clock will show the time again.
-/

namespace WebServer.Lib

variable {α : Type*}

/-- The value of the last change that is not after `x`. -/
def inForce (first : α) : List (Int × α) → Int → α
  | [], _ => first
  | (time, a) :: changes, x => if time ≤ x then inForce a changes x else first

/-- The first change after `t`. -/
def upcoming (changes : List (Int × α)) (t : Int) : Option (Int × α) := changes.find? (t < ·.1)

/-- The changes are at later and later times. -/
def Chronological (changes : List (Int × α)) : Prop := changes.Pairwise (·.1 < ·.1)

/-- The value in force is the first one or that of a change. -/
lemma inForce_mem {first : α} {changes : List (Int × α)} {x : Int} :
    inForce first changes x = first ∨ inForce first changes x ∈ changes.map Prod.snd := by
  induction changes generalizing first with
  | nil => exact .inl rfl
  | cons c changes ih =>
    unfold inForce
    split
    · obtain e | mem := @ih c.2
      · rw [e]
        exact .inr (by simp)
      · exact .inr (List.mem_cons_of_mem _ mem)
    · exact .inl rfl

section Clock

variable (offset : α → Int)

/-- The changes at the times that the clock shows after each. -/
def shown (changes : List (Int × α)) : List (Int × α) := changes.map fun c => (c.1 + offset c.2, c.2)

/-- The times that the clock shows twice because of a change are over before the next change, whether that is seen
    on the clock or not. -/
def Spaced : α → List (Int × α) → Prop
  | first, (time, a) :: (time', a') :: changes =>
    time + offset first ≤ time' + offset a ∧ time + offset first ≤ time' + offset a' ∧
      Spaced a ((time', a') :: changes)
  | _, _ => True

variable {offset} {first a : α} {time t : Int} {changes : List (Int × α)}

/-- What comes after the first change is spaced too. -/
lemma Spaced.tail (spaced : Spaced offset first ((time, a) :: changes)) : Spaced offset a changes := by
  cases changes with
  | nil => trivial
  | cons => exact spaced.2.2

/-- The clock does not go back behind the time it showed at a change. -/
lemma shown_le (ordered : Chronological (shown offset ((time, a) :: changes))) (h : time ≤ t) :
    time + offset a ≤ t + offset (inForce a changes t) := by
  induction changes generalizing time a with
  | nil => exact Int.add_le_add_right h _
  | cons c changes ih =>
    obtain ⟨time', a'⟩ := c
    have ⟨before, rest⟩ := List.pairwise_cons.1 ordered
    unfold inForce
    split
    case isTrue past =>
      have later : time + offset a < time' + offset a' := before (time' + offset a', a') (by simp)
      exact later.le.trans (ih rest past)
    case isFalse => exact Int.add_le_add_right h _

/-- What is found for the time that the clock shows at `t`. -/
lemma inForce_shown (ordered : Chronological (shown offset changes)) (spaced : Spaced offset first changes) :
    inForce first (shown offset changes) (t + offset (inForce first changes t)) =
      match upcoming changes t with
      | some (time, a) => if time + offset a ≤ t + offset (inForce first changes t) then a
          else inForce first changes t
      | none => inForce first changes t := by
  induction changes generalizing first with
  | nil => rfl
  | cons c changes ih =>
    obtain ⟨time, a⟩ := c
    have ⟨_, rest⟩ := List.pairwise_cons.1 ordered
    by_cases past : time ≤ t
    · have found : inForce first ((time, a) :: changes) t = inForce a changes t := if_pos past
      have next : upcoming ((time, a) :: changes) t = upcoming changes t :=
        List.find?_cons_of_neg (by simpa using past)
      rw [found, next, ← ih rest spaced.tail]
      exact if_pos (shown_le ordered past)
    · have found : inForce first ((time, a) :: changes) t = first := if_neg past
      have next : upcoming ((time, a) :: changes) t = some (time, a) :=
        List.find?_cons_of_pos (by simpa using past)
      rw [found, next]
      simp only [shown, List.map_cons, inForce]
      split
      case isTrue =>
        cases changes with
        | nil => rfl
        | cons c changes =>
          obtain ⟨time', a'⟩ := c
          have := spaced.2.1
          exact if_neg (by dsimp only; omega)
      case isFalse => rfl

/-- When the clock shows the time of `t` again, the value after the next change is in force. -/
lemma inForce_again (spaced : Spaced offset first changes) (next : upcoming changes t = some (time, a))
    (again : time + offset a ≤ t + offset (inForce first changes t)) :
    inForce first changes (t + offset (inForce first changes t) - offset a) = a := by
  induction changes generalizing first with
  | nil => cases next
  | cons c changes ih =>
    obtain ⟨time', a'⟩ := c
    by_cases past : time' ≤ t
    · have found : inForce first ((time', a') :: changes) t = inForce a' changes t := if_pos past
      have next' : upcoming changes t = some (time, a) := by
        rw [← next]
        exact (List.find?_cons_of_neg (by simpa using past)).symm
      have later : t < time := by simpa using List.find?_some next'
      rw [found] at again ⊢
      rw [inForce, if_pos (by omega)]
      exact ih spaced.tail next' again
    · have found : inForce first ((time', a') :: changes) t = first := if_neg past
      have here : some (time', a') = some (time, a) := by
        rw [← next]
        exact (List.find?_cons_of_pos (by simpa using past)).symm
      cases here
      rw [found] at again ⊢
      rw [inForce, if_pos (by omega)]
      cases changes with
      | nil => rfl
      | cons c changes =>
        obtain ⟨time', a'⟩ := c
        have := spaced.1
        exact if_neg (by omega)

end Clock

end WebServer.Lib
