import Mathlib.Tactic

set_option relaxedAutoImplicit false
set_option autoImplicit false

/-!
# Transition systems with partial steps

A system is a step function that may refuse an event (or crash on it). Runs are restricted by a
side condition on the state before a step and its event, so that a theorem can be about the runs
that never meet a given situation.

## Main definitions

* `Transition.Reachable step ok init` — the states reached by allowed steps.
* `Transition.run` — the state after a list of events.
* `Transition.Allowed` — every step of a run meets the side condition.

## Main results

* `Transition.Reachable.invariant` — what holds at the start and is kept by every allowed step
  holds of every reachable state.
* `Transition.Reachable.of_run`, `exists_of_run` — a run whose steps are allowed ends in a
  reachable state.
-/

namespace Transition

variable {σ ε : Type}

/-- The states reached from `init` by steps that meet the side condition `ok`. -/
inductive Reachable (step : σ → ε → Option σ) (ok : σ → ε → Prop) (init : σ → Prop) : σ → Prop
  | start {s : σ} : init s → Reachable step ok init s
  | next {s s' : σ} {e : ε} :
      Reachable step ok init s → ok s e → step s e = some s' → Reachable step ok init s'

/-- The invariant rule. -/
theorem Reachable.invariant {step : σ → ε → Option σ} {ok : σ → ε → Prop} {init I : σ → Prop}
    (hinit : ∀ s, init s → I s)
    (hstep : ∀ s e s', I s → ok s e → step s e = some s' → I s') {s : σ}
    (h : Reachable step ok init s) : I s := by
  induction h with
  | start h => exact hinit _ h
  | next _ hok hs ih => exact hstep _ _ _ ih hok hs

/-- What is reachable from a reachable state is reachable. -/
theorem Reachable.trans {step : σ → ε → Option σ} {ok : σ → ε → Prop} {init : σ → Prop} {s s' : σ}
    (h : Reachable step ok init s) (h' : Reachable step ok (· = s) s') :
    Reachable step ok init s' := by
  induction h' with
  | start heq => exact heq ▸ h
  | next _ hok hs ih => exact ih.next hok hs

/-- The state after a list of events. -/
def run (step : σ → ε → Option σ) : σ → List ε → Option σ
  | s, [] => some s
  | s, e :: es => (step s e).bind fun s' => run step s' es

/-- Every step of a run meets the side condition. -/
def Allowed (step : σ → ε → Option σ) (ok : σ → ε → Prop) : σ → List ε → Prop
  | _, [] => True
  | s, e :: es => ok s e ∧ ∀ s' ∈ step s e, Allowed step ok s' es

/-- A side condition that can be decided can be decided along a run. -/
instance decidableAllowed {step : σ → ε → Option σ} {ok : σ → ε → Prop}
    [∀ s e, Decidable (ok s e)] : ∀ s es, Decidable (Allowed step ok s es)
  | _, [] => isTrue trivial
  | s, e :: es =>
    have : ∀ s', Decidable (Allowed step ok s' es) := fun s' => decidableAllowed s' es
    inferInstanceAs (Decidable (ok s e ∧ ∀ s' ∈ step s e, Allowed step ok s' es))

/-- A run whose steps are allowed ends in a reachable state. -/
theorem Reachable.of_run {step : σ → ε → Option σ} {ok : σ → ε → Prop} {init : σ → Prop}
    {es : List ε} {s s' : σ} (h : Reachable step ok init s) (hok : Allowed step ok s es)
    (hrun : run step s es = some s') : Reachable step ok init s' := by
  induction es generalizing s with
  | nil => exact Option.some.inj hrun ▸ h
  | cons e es ih =>
    obtain ⟨s₁, h₁, hrest⟩ := Option.bind_eq_some_iff.mp hrun
    exact ih (h.next hok.1 h₁) (hok.2 s₁ h₁) hrest

/-- A run that can be evaluated shows a reachable state of a given kind. -/
theorem Reachable.exists_of_run (step : σ → ε → Option σ) (ok : σ → ε → Prop) (es : List ε)
    (p : σ → Bool) {init : σ → Prop} {s : σ} (h : init s) (hok : Allowed step ok s es)
    (hrun : (run step s es).any p = true) : ∃ s', Reachable step ok init s' ∧ p s' = true := by
  obtain ⟨s', hs', hp⟩ := (Option.any_eq_true _ _).mp hrun
  exact ⟨s', (Reachable.start h).of_run hok hs', hp⟩

/-- A run that meets a side condition meets a weaker one. -/
theorem Allowed.mono {step : σ → ε → Option σ} {ok ok' : σ → ε → Prop}
    (himp : ∀ s e, ok s e → ok' s e) {es : List ε} {s : σ} (h : Allowed step ok s es) :
    Allowed step ok' s es := by
  induction es generalizing s with
  | nil => trivial
  | cons e es ih => exact ⟨himp s e h.1, fun s' hs => ih (h.2 s' hs)⟩

/-- A side condition on the event alone holds of a run when it holds of its events. -/
theorem Allowed.of_forall {step : σ → ε → Option σ} {ok : ε → Prop} {es : List ε}
    (h : ∀ e ∈ es, ok e) (s : σ) : Allowed step (fun _ e => ok e) s es := by
  induction es generalizing s with
  | nil => trivial
  | cons e es ih =>
    exact ⟨h e List.mem_cons_self, fun s' _ =>
      ih (fun e' he' => h e' (List.mem_cons_of_mem _ he')) s'⟩

end Transition
