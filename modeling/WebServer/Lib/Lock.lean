import Mathlib.Tactic

/-!
# A lock

`Exclusive taken inside`: the lock is taken exactly while someone is inside, and then one only. Taking a free lock
and giving it back keep this, and so does everything else that moves nobody in or out.
-/

namespace WebServer.Lib

variable {ι : Type*} [DecidableEq ι]

structure Exclusive (taken : Bool) (inside : ι → Bool) : Prop where
  held : taken = true ↔ ∃ i, inside i = true
  one : ∀ i j, inside i = true → inside j = true → i = j

namespace Exclusive

variable {taken : Bool} {inside : ι → Bool} {i : ι}

omit [DecidableEq ι] in
/-- Nobody is inside yet. -/
lemma free : Exclusive false (fun _ : ι => false) := ⟨by simp, by simp⟩

omit [DecidableEq ι] in
/-- While the lock is free nobody is inside. -/
lemma none_inside (h : Exclusive false inside) (j : ι) : inside j = false := by
  by_contra inj
  exact Bool.false_ne_true (h.held.2 ⟨j, by simpa using inj⟩)

/-- One enters and the lock is taken. -/
lemma take (h : Exclusive false inside) : Exclusive true (Function.update inside i true) := by
  have only {j} (hj : Function.update inside i true j = true) : j = i := by
    by_contra ne
    rw [Function.update_of_ne ne, h.none_inside] at hj
    cases hj
  refine ⟨⟨fun _ => ⟨i, Function.update_self ..⟩, fun _ => rfl⟩, fun j k hj hk => ?_⟩
  rw [only hj, only hk]

/-- The one inside leaves and the lock is free. -/
lemma leave (h : Exclusive taken inside) (hi : inside i = true) :
    Exclusive false (Function.update inside i false) := by
  have nobody (j) : Function.update inside i false j = false := by
    by_cases ne : j = i
    · rw [ne, Function.update_self]
    · rw [Function.update_of_ne ne]
      by_contra inj
      exact ne (h.one j i (by simpa using inj) hi)
  exact ⟨by simp [nobody], fun j k hj _ => by rw [nobody] at hj; cases hj⟩

/-- A move that does not enter or leave. -/
lemma stay (h : Exclusive taken inside) {b : Bool} (hb : b = inside i) :
    Exclusive taken (Function.update inside i b) := by
  rw [hb, Function.update_eq_self]
  exact h

end Exclusive

end WebServer.Lib
