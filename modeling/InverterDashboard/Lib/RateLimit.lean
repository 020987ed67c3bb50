import Mathlib.Data.List.Basic
import Mathlib.Tactic

set_option relaxedAutoImplicit false
set_option autoImplicit false

/-!
# Rate limits over a sliding window

Admitted calls are logged with their times. A limiter keeps a list of times, forgets at each call
the ones that are a whole span old, and admits a call while fewer than `n` are left. As long as the
clock does not go back, the kept list has every logged time that still counts, so that no half-open
interval of the span's length contains more than `n` admitted calls.

## Main definitions

* `RateLimit.recent span now times` — the times that count at `now`.
* `RateLimit.Covers span clock log kept` — the kept list has what counts from `clock` on.
* `RateLimit.Limited span n log` — the law of the window.

## Main results

* `RateLimit.Covers.prune`, `RateLimit.Covers.admitted` — forgetting and admitting.
* `RateLimit.Limited.admitted` — a call that is admitted keeps the law.
-/

namespace RateLimit

variable {span now clock : ℤ} {n : ℕ} {log kept : List ℤ}

/-- The times that are less than a span old. -/
def recent (span now : ℤ) (times : List ℤ) : List ℤ := times.filter fun a => now - a < span

/-- The kept list has, in order, the logged times that count at `clock` or later. -/
def Covers (span clock : ℤ) (log kept : List ℤ) : Prop :=
  ∀ now, clock ≤ now → (recent span now log).Sublist kept

/-- No half-open interval of the span's length contains more than `n` logged times. -/
def Limited (span : ℤ) (n : ℕ) (log : List ℤ) : Prop :=
  ∀ x, (log.filter fun a => x ≤ a ∧ a < x + span).length ≤ n

theorem covers_nil (span clock : ℤ) (kept : List ℤ) : Covers span clock [] kept :=
  fun _ _ => List.nil_sublist kept

theorem limited_nil (span : ℤ) (n : ℕ) : Limited span n [] := fun _ => by simp

/-- What counts later counts now. -/
theorem recent_sublist_recent {now' : ℤ} (h : now ≤ now') (times : List ℤ) :
    (recent span now' times).Sublist (recent span now times) := by
  refine List.monotone_filter_right times fun a ha => ?_
  simp only [decide_eq_true_eq] at ha ⊢
  omega

/-- Everything kept that counts now is left by forgetting. -/
theorem Covers.recent (h : Covers span clock log kept) (hle : clock ≤ now) :
    (RateLimit.recent span now log).Sublist (RateLimit.recent span now kept) := by
  have hsub := (h now hle).filter fun a => decide (now - a < span)
  simpa only [RateLimit.recent, List.filter_filter, Bool.and_self] using hsub

theorem Covers.later {clock' : ℤ} (h : Covers span clock log kept) (hle : clock ≤ clock') :
    Covers span clock' log kept := fun now hnow => h now (hle.trans hnow)

/-- Forgetting what is a whole span old. -/
theorem Covers.prune (h : Covers span clock log kept) (hle : clock ≤ now) :
    Covers span now log (RateLimit.recent span now kept) := fun _ hnow' =>
  (recent_sublist_recent hnow' log).trans (h.recent hle)

/-- Admitting a call. -/
theorem Covers.admitted (h : Covers span clock log kept) (hle : clock ≤ now) :
    Covers span now (log ++ [now]) (RateLimit.recent span now kept ++ [now]) := by
  intro now' hnow'
  rw [RateLimit.recent, List.filter_append]
  exact (h.prune hle now' hnow').append List.filter_sublist

/-- A longer list covers what a shorter one does. -/
theorem Covers.grow {kept' : List ℤ} (h : Covers span clock log kept) (hsub : kept.Sublist kept') :
    Covers span clock log kept' := fun now hnow => (h now hnow).trans hsub

/-- **A call that is admitted keeps the law of the window.**

**Proof sketch.** In an interval that contains `now`, every logged time is less than a span old, so
it is among the times that were counted. -/
theorem Limited.admitted (h : Limited span n log) (hcover : Covers span clock log kept)
    (hle : clock ≤ now) (hcount : (recent span now kept).length < n) :
    Limited span n (log ++ [now]) := by
  intro x
  rw [List.filter_append, List.length_append]
  by_cases hx : x ≤ now ∧ now < x + span
  · have hsub : (log.filter fun a => x ≤ a ∧ a < x + span).Sublist (recent span now log) := by
      refine List.monotone_filter_right log fun a ha => ?_
      simp only [decide_eq_true_eq] at ha ⊢
      omega
    have hlen := (hsub.trans (hcover.recent hle)).length_le
    simp only [List.filter_cons, List.filter_nil, hx, and_self, decide_true, if_true,
      List.length_singleton]
    omega
  · simp only [List.filter_cons, List.filter_nil, hx, decide_false, Bool.false_eq_true, if_false,
      List.length_nil, add_zero]
    exact h x

end RateLimit
