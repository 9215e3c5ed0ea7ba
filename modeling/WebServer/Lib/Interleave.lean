import Mathlib.Tactic

/-!
# Machines side by side

A family of machines, one for each index, all with the step function `step : σ → ε → Option σ`. An event `e` is for
the machine `of e`. A run of the family is an interleaving of runs of its members (`interleave_iff`).
-/

namespace WebServer.Lib

variable {ι σ ε : Type*} [DecidableEq ι]

/-- One event of a family: the machine it is for takes a step, the others do not. -/
def interleave (of : ε → ι) (step : σ → ε → Option σ) (f : ι → σ) (e : ε) : Option (ι → σ) :=
  (step (f (of e)) e).map (Function.update f (of e))

/-- A run of the family ends in `f'` exactly if each machine ends in its part of `f'` on its own events. -/
lemma interleave_iff {of : ε → ι} {step : σ → ε → Option σ} {f f' : ι → σ} {es : List ε} :
    es.foldlM (interleave of step) f = some f' ↔
      ∀ i, (es.filter (of · = i)).foldlM step (f i) = some (f' i) := by
  induction es generalizing f with
  | nil =>
    simp only [List.filter_nil, List.foldlM_nil]
    constructor
    · rintro ⟨⟩ i
      rfl
    · intro h
      exact congrArg some (funext fun i => Option.some.inj (h i))
  | cons e es ih =>
    have own (i) : ((e :: es).filter (of · = i)).foldlM step (f i) =
        if of e = i then (step (f i) e).bind fun s => (es.filter (of · = i)).foldlM step s
        else (es.filter (of · = i)).foldlM step (f i) := by
      by_cases h : of e = i
      · rw [List.filter_cons_of_pos (by simpa using h), if_pos h, List.foldlM_cons]
        rfl
      · rw [List.filter_cons_of_neg (by simpa using h), if_neg h]
    simp only [own]
    rw [List.foldlM_cons, interleave]
    cases st : step (f (of e)) e with
    | none =>
      refine iff_of_false nofun fun h => ?_
      have := h (of e)
      rw [if_pos rfl, st] at this
      cases this
    | some s =>
      rw [Option.map_some, Option.bind_eq_bind, Option.bind_some, ih]
      refine forall_congr' fun i => ?_
      by_cases h : of e = i
      · subst h
        rw [if_pos rfl, st, Option.bind_some, Function.update_self]
      · rw [if_neg h, Function.update_of_ne (Ne.symm h)]

end WebServer.Lib
