import Mathlib.Logic.Function.Basic

set_option relaxedAutoImplicit false
set_option autoImplicit false

/-!
# Families of threads

A program that starts any number of threads keeps a table from names to program counters, in which
`none` is a thread that was not started. What holds of all threads after one of them moved holds of
the one that moved and of the others.

## Main results

* `Threads.update_eq_some` — a thread after the move of one thread.
* `Threads.all_update` — the rule for the move of one thread.
-/

namespace Threads

variable {ι α : Type} [DecidableEq ι] {m : ι → Option α} {i k : ι} {a b : α}

/-- An entry of an updated table is the new one or an old one. -/
theorem update_eq_some (h : Function.update m i (some a) k = some b) :
    k = i ∧ b = a ∨ k ≠ i ∧ m k = some b := by
  by_cases hk : k = i
  · subst hk
    rw [Function.update_self] at h
    exact Or.inl ⟨rfl, (Option.some.inj h).symm⟩
  · rw [Function.update_of_ne hk] at h
    exact Or.inr ⟨hk, h⟩

/-- An old entry of another name is one of the updated table. -/
theorem update_of_ne (hk : k ≠ i) (h : m k = some b) :
    Function.update m i (some a) k = some b := by
  rwa [Function.update_of_ne hk]

/-- An entry of a table from which one was removed is an old one. -/
theorem removed_eq_some (h : Function.update m i none k = some b) : k ≠ i ∧ m k = some b := by
  by_cases hk : k = i
  · subst hk
    rw [Function.update_self] at h
    cases h
  · rw [Function.update_of_ne hk] at h
    exact ⟨hk, h⟩

/-- What holds of the thread that moved and of the others holds of all. -/
theorem all_update {P : ι → α → Prop} (hi : P i a)
    (hothers : ∀ k b, k ≠ i → m k = some b → P k b) :
    ∀ k b, Function.update m i (some a) k = some b → P k b := by
  intro k b h
  rcases update_eq_some h with ⟨rfl, rfl⟩ | ⟨hk, hb⟩
  · exact hi
  · exact hothers k b hk hb

end Threads
