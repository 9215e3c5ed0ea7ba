import Mathlib.Tactic

/-!
# Recorded computations

`Traced ε α`: a partial computation together with the events it has recorded. The events are kept when the
computation is undefined. Projecting `value` forgets the record (`bind_value`, `lift_value`,
`record_value`), so a function written again in `Traced` is compared with the original by erasure. `All P`
says that every recorded event satisfies `P`; `Ensures P Q` says besides that the value satisfies `Q`, with a rule
for each way to make a computation. `checked P` is the computation that is undefined as soon as an event
does not satisfy `P`.
-/

namespace WebServer.Lib

/-- A partial computation with the events it has recorded. -/
structure Traced (ε α : Type) where
  trace : List ε
  value : Option α

namespace Traced

variable {ε α β : Type}

instance : Monad (Traced ε) where
  pure a := ⟨[], some a⟩
  bind x f :=
    match x.value with
    | none => ⟨x.trace, none⟩
    | some a => ⟨x.trace ++ (f a).trace, (f a).value⟩

/-- A computation that records nothing. -/
def lift (x : Option α) : Traced ε α := ⟨[], x⟩

/-- A computation that records one event. -/
def record (e : ε) (x : Option α) : Traced ε α := ⟨[e], x⟩

@[simp] lemma pure_value (a : α) : (pure a : Traced ε α).value = some a := rfl

@[simp] lemma lift_value (x : Option α) : (lift x : Traced ε α).value = x := rfl

@[simp] lemma record_value (e : ε) (x : Option α) : (record e x).value = x := rfl

@[simp] lemma bind_value (x : Traced ε α) (f : α → Traced ε β) :
    (x >>= f).value = x.value.bind fun a => (f a).value := by
  obtain ⟨trace, value⟩ := x
  cases value with
  | none => rfl
  | some a => rfl

@[simp] lemma ite_value {c : Prop} [Decidable c] (x y : Traced ε α) :
    (if c then x else y).value = if c then x.value else y.value :=
  apply_ite _ _ _ _

/-- Every recorded event satisfies `P`. -/
def All (P : ε → Prop) (x : Traced ε α) : Prop := ∀ e ∈ x.trace, P e

variable {P : ε → Prop}

@[simp] lemma all_pure (a : α) : All P (pure a : Traced ε α) := by
  rintro e ⟨⟩

@[simp] lemma all_lift (x : Option α) : All P (lift x : Traced ε α) := by
  rintro e ⟨⟩

@[simp] lemma all_record {e : ε} {x : Option α} : All P (record e x) ↔ P e := by
  simp [All, record]

/-- A computation whose first part has a value records what its two parts record. -/
lemma all_bind {x : Traced ε α} {f : α → Traced ε β} {a : α} (h : x.value = some a) :
    All P (x >>= f) ↔ All P x ∧ All P (f a) := by
  obtain ⟨trace, value⟩ := x
  subst h
  exact List.forall_mem_append

/-- A computation whose first part is undefined records what that records. -/
lemma all_bind_none {x : Traced ε α} {f : α → Traced ε β} (h : x.value = none) (all : All P x) :
    All P (x >>= f) := by
  obtain ⟨trace, value⟩ := x
  subst h
  exact all

/-- What all events of a computation meet, those of its first part meet. -/
lemma All.of_bind {x : Traced ε α} {f : α → Traced ε β} (h : All P (x >>= f)) : All P x := by
  cases e : x.value with
  | none =>
    obtain ⟨trace, value⟩ := x
    subst e
    exact h
  | some a => exact ((all_bind e).1 h).1

/-- Every recorded event satisfies `P` and the value, if there is one, satisfies `Q`. -/
structure Ensures (P : ε → Prop) (Q : α → Prop) (x : Traced ε α) : Prop where
  events : All P x
  value : ∀ {a}, x.value = some a → Q a

namespace Ensures

variable {Q : α → Prop} {R : β → Prop}

/-- A value records nothing. -/
lemma pure {a : α} (h : Q a) : Ensures P Q (pure a : Traced ε α) := by
  refine ⟨all_pure a, fun e => ?_⟩
  cases e
  exact h

/-- A partial value records nothing. -/
lemma lift {x : Option α} (h : ∀ {a}, x = some a → Q a) : Ensures P Q (lift x : Traced ε α) := ⟨all_lift x, h⟩

/-- A recorded event that meets the condition. -/
lemma record {e : ε} {x : Option α} (he : P e) (h : ∀ {a}, x = some a → Q a) : Ensures P Q (record e x) :=
  ⟨all_record.2 he, h⟩

/-- The rule for a sequence. -/
lemma bind {x : Traced ε α} {f : α → Traced ε β} (h : Ensures P Q x) (next : ∀ a, Q a → Ensures P R (f a)) :
    Ensures P R (x >>= f) := by
  cases e : x.value with
  | none =>
    have none_ : (x >>= f).value = none := by rw [bind_value, e, Option.bind_none]
    refine ⟨all_bind_none e h.events, fun e' => ?_⟩
    rw [none_] at e'
    cases e'
  | some a =>
    have after := next a (h.value e)
    refine ⟨(all_bind e).2 ⟨h.events, after.events⟩, fun e' => ?_⟩
    rw [bind_value, e, Option.bind_some] at e'
    exact after.value e'

end Ensures

/-! ## Checked computations -/

section Checked

variable [DecidablePred P]

/-- The computation with every event checked: it is undefined if one does not satisfy `P`. -/
def checked (P : ε → Prop) [DecidablePred P] (x : Traced ε α) : Option α :=
  if ∀ e ∈ x.trace, P e then x.value else none

/-- A computation all of whose events pass keeps its value. -/
lemma checked_of_all {x : Traced ε α} (all : All P x) : x.checked P = x.value := if_pos all

/-- One event that does not pass makes it undefined. -/
lemma checked_of_not {x : Traced ε α} (not_all : ¬All P x) : x.checked P = none := if_neg not_all

/-- A checked computation has the value if all its events meet the condition, and else none. -/
lemma checked_eq_some {x : Traced ε α} {a : α} : x.checked P = some a ↔ All P x ∧ x.value = some a := by
  by_cases all : All P x
  · rw [checked_of_all all, and_iff_right all]
  · rw [checked_of_not all]
    exact iff_of_false (fun e => nomatch e) fun h => all h.1

end Checked

end Traced

end WebServer.Lib
