import Mathlib.Data.List.Forall2

set_option relaxedAutoImplicit false
set_option autoImplicit false

/-!
# Two runs side by side

A system that answers each of its events. Two of its states are told apart only by what it answers,
so a relation that is kept by related events and leaves the answers equal hides its difference from
whoever sees the answers.

## Main definitions

* `TwoRuns.answers` — what a run answers.
* `TwoRuns.Unwinds` — a relation between states is kept, with equal answers.

## Main results

* `TwoRuns.Unwinds.answers_eq` — related states answer related events alike.
-/

namespace TwoRuns

variable {σ ε ω : Type} {step : σ → ε → σ × ω}

/-- The answers of a run, one for each event. -/
def answers (step : σ → ε → σ × ω) : σ → List ε → List ω
  | _, [] => []
  | s, e :: es => (step s e).2 :: answers step (step s e).1 es

/-- Related states answer related events alike and stay related. -/
structure Unwinds (step : σ → ε → σ × ω) (R : σ → σ → Prop) (E : ε → ε → Prop) : Prop where
  next : ∀ {s s' e e'}, R s s' → E e e' → R (step s e).1 (step s' e').1
  answer : ∀ {s s' e e'}, R s s' → E e e' → (step s e).2 = (step s' e').2

/-- **Unwinding.** Runs from related states through related events have equal answers.

**Proof sketch.** By induction on the two runs: the first answers are equal, and the states behind
them are related again. -/
theorem Unwinds.answers_eq {R : σ → σ → Prop} {E : ε → ε → Prop} (h : Unwinds step R E)
    {es es' : List ε} (hes : List.Forall₂ E es es') {s s' : σ} (hs : R s s') :
    answers step s es = answers step s' es' := by
  induction hes generalizing s s' with
  | nil => rfl
  | cons he _ ih => rw [answers, answers, h.answer hs he, ih (h.next hs he)]

end TwoRuns
