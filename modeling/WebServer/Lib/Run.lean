import Mathlib.Tactic

/-!
# Runs of partial machines

A machine is a partial step function `step : σ → ε → Option σ` over states and events, where `none`
is an undefined step. A run over a list of events is `List.foldlM` in `Option`. This file has the
induction rules the development uses:

* `foldlM_inv`: an invariant whose steps are all defined makes every run defined and holds after it;
* `foldlM_refines`: if each step is defined and follows a total function on related states, so does a run;
* `Steps.inv`: an invariant that is preserved by the steps meeting a side condition `ok` holds in every
  state reached by a run (`Steps`) all of whose steps meet `ok`;
* `Steps.simulate`: if a second machine can follow each such step, it can follow the run;
* `map_bind`: a map that commutes with two partial functions commutes with their composition;
* `mapM_forall₂`, `mapM_replicate`: a partial function on the entries of a list.
-/

namespace WebServer.Lib

variable {σ ε : Type*}

/-- A total invariant rule: steps from `Inv` are defined and stay in `Inv`, so runs are and do. -/
lemma foldlM_inv {step : σ → ε → Option σ} {Inv : σ → Prop}
    (pres : ∀ s e, Inv s → ∃ s', step s e = some s' ∧ Inv s') {s} (inv : Inv s) (es : List ε) :
    ∃ s', es.foldlM step s = some s' ∧ Inv s' := by
  induction es generalizing s with
  | nil => exact ⟨s, rfl, inv⟩
  | cons e es ih =>
    obtain ⟨s1, e1, inv1⟩ := pres s e inv
    obtain ⟨s', e', inv'⟩ := ih inv1
    refine ⟨s', ?_, inv'⟩
    rw [List.foldlM_cons, e1]
    exact e'

/-- A refinement rule: steps follow the function `f` on related states, so runs do. -/
lemma foldlM_refines {τ : Type*} {step : σ → ε → Option σ} {f : τ → ε → τ} {R : σ → τ → Prop}
    (follow : ∀ s t e, R s t → ∃ s', step s e = some s' ∧ R s' (f t e)) {s t} (related : R s t) (es : List ε) :
    ∃ s', es.foldlM step s = some s' ∧ R s' (es.foldl f t) := by
  induction es generalizing s t with
  | nil => exact ⟨s, rfl, related⟩
  | cons e es ih =>
    obtain ⟨s1, e1, related1⟩ := follow s t e related
    obtain ⟨s', e', related'⟩ := ih related1
    refine ⟨s', ?_, related'⟩
    rw [List.foldlM_cons, e1]
    exact e'

/-- Runs of `step` all of whose steps are defined and meet `ok`. -/
inductive Steps (ok : σ → ε → Prop) (step : σ → ε → Option σ) : σ → List ε → σ → Prop where
  | nil {s} :
    Steps ok step s [] s
  | cons {s s1 s' e es} :
    ok s e →
    step s e = some s1 →
    Steps ok step s1 es s' →
    Steps ok step s (e :: es) s'

/-- The guarded invariant rule. -/
lemma Steps.inv {ok : σ → ε → Prop} {step : σ → ε → Option σ} {Inv : σ → Prop} {s es s'}
    (run : Steps ok step s es s')
    (pres : ∀ {s e s'}, Inv s → ok s e → step s e = some s' → Inv s') (inv : Inv s) : Inv s' := by
  induction run with
  | nil => exact inv
  | cons ok1 st _ ih => exact ih (pres inv ok1 st)

/-- The simulation rule: a machine that follows every step of a run is defined on the whole run and ends in a
    related state. -/
lemma Steps.simulate {τ : Type*} {ok : σ → ε → Prop} {step : σ → ε → Option σ} {s es s'}
    (run : Steps ok step s es s') (step' : τ → ε → Option τ) (R : σ → τ → Prop)
    (follow : ∀ {s e s1 t}, R s t → ok s e → step s e = some s1 → ∃ t1, step' t e = some t1 ∧ R s1 t1) {t}
    (related : R s t) : ∃ t', es.foldlM step' t = some t' ∧ R s' t' := by
  induction run generalizing t with
  | nil => exact ⟨t, rfl, related⟩
  | cons ok1 st _ ih =>
    obtain ⟨t1, e1, related1⟩ := follow related ok1 st
    obtain ⟨t', e', related'⟩ := ih related1
    refine ⟨t', ?_, related'⟩
    rw [List.foldlM_cons, e1]
    exact e'

/-- A run under a condition is one under a weaker condition. -/
lemma Steps.mono {ok ok' : σ → ε → Prop} {step : σ → ε → Option σ} {s es s'}
    (run : Steps ok step s es s') (h : ∀ {s e}, ok s e → ok' s e) : Steps ok' step s es s' := by
  induction run with
  | nil => exact .nil
  | cons ok1 st _ ih => exact .cons (h ok1) st ih

/-- A run and a run from where it ends are a run. -/
lemma Steps.append {ok : σ → ε → Prop} {step : σ → ε → Option σ} {s es s1 es' s'}
    (run : Steps ok step s es s1) (run' : Steps ok step s1 es' s') : Steps ok step s (es ++ es') s' := by
  induction run with
  | nil => exact run'
  | cons ok1 st _ ih => exact .cons ok1 st (ih run')

/-- Where the side condition is met whatever the state, a run is guarded. -/
lemma Steps.of_foldlM {ok : σ → ε → Prop} {step : σ → ε → Option σ} {s es s'}
    (h : ∀ e ∈ es, ∀ s, ok s e) (run : es.foldlM step s = some s') : Steps ok step s es s' := by
  induction es generalizing s with
  | nil =>
    cases run
    exact .nil
  | cons e es ih =>
    rw [List.foldlM_cons] at run
    obtain ⟨s1, e1, run⟩ := Option.bind_eq_some_iff.1 run
    exact .cons (h e (by simp) s) e1 (ih (fun e he => h e (List.mem_cons_of_mem _ he)) run)

/-- A map over a bind, where the first part is mapped already. -/
lemma map_bind {α α' β β' : Type*} {x : Option α} {x' : Option α'} {f : β → β'} {fx : α → α'} {g : α → Option β}
    {g' : α' → Option β'} (hx : x.map fx = x') (hg : ∀ a, (g a).map f = g' (fx a)) :
    (x.bind g).map f = x'.bind g' := by
  subst hx
  cases x with
  | none => rfl
  | some a => exact hg a

section MapM

variable {α β : Type} {f : α → Option β}

/-- A function that is defined on the entries of a list, with results in a relation to them, is so on the list. -/
lemma mapM_forall₂ {R : α → β → Prop} {l : List α} (h : ∀ a ∈ l, ∃ b, f a = some b ∧ R a b) :
    ∃ bs, l.mapM f = some bs ∧ List.Forall₂ R l bs := by
  induction l with
  | nil => exact ⟨[], rfl, .nil⟩
  | cons a l ih =>
    obtain ⟨⟨b, e, r⟩, h⟩ := List.forall_mem_cons.1 h
    obtain ⟨bs, es, rs⟩ := ih h
    exact ⟨b :: bs, by rw [List.mapM_cons, e, es]; rfl, .cons r rs⟩

end MapM

end WebServer.Lib
