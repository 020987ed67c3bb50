import InverterDashboard.Lib.Transition

set_option relaxedAutoImplicit false
set_option autoImplicit false

/-!
# Coalesced updates

`triggerHandler` runs the update handler in a goroutine of its own, and coalesces the calls that
come in while it runs. The calls and the runner share `broadcastPending`: nothing to do, a runner is
there, or the runner has to go round again. Every load, compare-and-swap and store of it is a step.

## Main definitions

* `Dashboard.TriggerCall`, `Dashboard.RunnerPC` — a call and a runner with their program counters.
* `Dashboard.Coalescer`, `Dashboard.Coalescer.step` — the system.
* `Dashboard.Coalescer.Shape` — the runners that fit a value of `broadcastPending`.
* `Dashboard.Coalescer.MayInvoke` — a launched runner can still invoke the handler.

## Main results

* `Dashboard.Coalescer.inv_step` — what every step keeps.
* `Dashboard.Coalescer.coalesced` — one invocation at a time, and no call is lost.
-/

namespace Dashboard

/-! ## The system -/

/-- Where a call of `triggerHandler` stands. -/
inductive TriggerPC where
  /-- Before the handler is read. -/
  | began
  /-- Before `broadcastPending` is loaded. -/
  | loading
  /-- It was 0. -/
  | sawZero
  /-- It was 1. -/
  | sawOne
  /-- Returned. -/
  | returned
  /-- Returned, no handler was installed. -/
  | skipped
  deriving DecidableEq

/-- A call of `triggerHandler`, with the number of invocations that had started when it began. -/
structure TriggerCall where
  before : ℕ
  pc : TriggerPC := .began

/-- Where a runner stands. -/
inductive RunnerPC where
  /-- Before it invokes the handler. -/
  | launched
  /-- Inside the handler. -/
  | running
  /-- Behind the handler, before the compare-and-swap. -/
  | finished
  /-- The compare-and-swap failed, before the store. -/
  | storing
  /-- Returned. -/
  | exited
  deriving DecidableEq

/-- `broadcastPending`, whether the handler is installed, the calls, the runners in the order of
their launch, and the number of invocations that started. -/
structure Coalescer where
  installed : Bool
  pending : ℤ
  calls : List TriggerCall
  runners : List RunnerPC
  invoked : ℕ

/-- What can happen. -/
inductive CoalescerEvent where
  /-- `SetMessageHandler`, which runs once. -/
  | install
  /-- `triggerHandler` is called. -/
  | trigger
  /-- A call takes its next step. -/
  | call (i : ℕ)
  /-- A runner takes its next step. -/
  | runner (i : ℕ)

namespace Coalescer

/-- The system with the call `i` replaced. -/
def setCall (s : Coalescer) (i : ℕ) (t : TriggerCall) : Coalescer :=
  { s with calls := s.calls.set i t }

/-- The system with the runner `i` replaced. -/
def setRunner (s : Coalescer) (i : ℕ) (pc : RunnerPC) : Coalescer :=
  { s with runners := s.runners.set i pc }

/-- The next step of the call `i`. -/
def stepCall (s : Coalescer) (i : ℕ) (t : TriggerCall) : Option Coalescer :=
  match t.pc with
  | .began => some (s.setCall i { t with pc := if s.installed then .loading else .skipped })
  | .loading => some (s.setCall i
    { t with pc :=
        if s.pending = 0 then .sawZero
        else if s.pending = 1 then .sawOne
        else if s.pending = 2 then .returned
        else .loading })
  | .sawZero =>
    if s.pending = 0 then
      some ({ s with pending := 1, runners := s.runners ++ [RunnerPC.launched] }.setCall i
        { t with pc := .returned })
    else some (s.setCall i { t with pc := .loading })
  | .sawOne =>
    if s.pending = 1 then
      some ({ s with pending := 2 }.setCall i { t with pc := .returned })
    else some (s.setCall i { t with pc := .loading })
  | .returned | .skipped => none

/-- The next step of the runner `i`. -/
def stepRunner (s : Coalescer) (i : ℕ) : RunnerPC → Option Coalescer
  | .launched => some ({ s with invoked := s.invoked + 1 }.setRunner i .running)
  | .running => some (s.setRunner i .finished)
  | .finished =>
    if s.pending = 1 then some ({ s with pending := 0 }.setRunner i .exited)
    else some (s.setRunner i .storing)
  | .storing => some ({ s with pending := 1 }.setRunner i .launched)
  | .exited => none

/-- One step. -/
def step (s : Coalescer) : CoalescerEvent → Option Coalescer
  | .install => if s.installed then none else some { s with installed := true }
  | .trigger => some { s with calls := s.calls ++ [{ before := s.invoked }] }
  | .call i => (s.calls[i]?).bind (s.stepCall i)
  | .runner i => (s.runners[i]?).bind (s.stepRunner i)

/-- Nothing was called yet. -/
def Init (s : Coalescer) : Prop := s.pending = 0 ∧ s.calls = [] ∧ s.runners = [] ∧ s.invoked = 0

/-! ## The runners -/

/-- The runners that fit a value of `broadcastPending`: at most the last one is still there, and a
store waits only while the value is 2. -/
inductive Shape : ℤ → List RunnerPC → Prop
  | idle (n : ℕ) : Shape 0 (List.replicate n .exited)
  | busy (n : ℕ) {pending : ℤ} {pc : RunnerPC} : pc ≠ .exited →
      pending = 1 ∧ pc ≠ .storing ∨ pending = 2 → Shape pending (List.replicate n .exited ++ [pc])

namespace Shape

theorem pending {p : ℤ} {l : List RunnerPC} (h : Shape p l) : p = 0 ∨ p = 1 ∨ p = 2 := by
  cases h with
  | idle n => exact Or.inl rfl
  | busy n hpc hp => exact Or.inr (hp.imp And.left id)

/-- A runner that has not returned is the last one. -/
theorem of_getElem {p : ℤ} {l : List RunnerPC} {i : ℕ} {pc : RunnerPC} (h : Shape p l)
    (hi : l[i]? = some pc) (hpc : pc ≠ .exited) :
    l = List.replicate i .exited ++ [pc] ∧ (p = 1 ∧ pc ≠ .storing ∨ p = 2) := by
  have hrep : ∀ n : ℕ, (List.replicate n RunnerPC.exited)[i]? ≠ some pc := by
    intro n hn
    exact hpc (List.eq_of_mem_replicate (List.mem_of_getElem? hn))
  cases h with
  | idle n => exact absurd hi (hrep n)
  | busy n hlast hp =>
    rcases lt_or_ge i n with hlt | hge
    · rw [List.getElem?_append_left (by simpa using hlt)] at hi
      exact absurd hi (hrep n)
    · rw [List.getElem?_append_right (by simpa using hge), List.length_replicate] at hi
      obtain ⟨hlen, hget⟩ := List.getElem?_eq_some_iff.mp hi
      obtain rfl : i = n := by
        simp only [List.length_singleton] at hlen
        omega
      simp only [Nat.sub_self, List.getElem_cons_zero] at hget
      subst hget
      exact ⟨rfl, hp⟩

/-- The last runner takes a step. -/
theorem set_last (i : ℕ) (pc pc' : RunnerPC) :
    (List.replicate i RunnerPC.exited ++ [pc]).set i pc' =
      List.replicate i .exited ++ [pc'] := by
  rw [List.set_append_right _ _ (by simp)]
  simp

/-- A runner is launched where all have returned. -/
theorem launch {l : List RunnerPC} (h : Shape 0 l) : Shape 1 (l ++ [.launched]) := by
  cases h with
  | idle n => exact Shape.busy n (by simp) (Or.inl ⟨rfl, by simp⟩)
  | busy n hlast hp => simp at hp

/-- The runner is told to go round again. -/
theorem post {l : List RunnerPC} (h : Shape 1 l) : Shape 2 l := by
  cases h with
  | busy n hlast hp => exact Shape.busy n hlast (Or.inr rfl)

/-- Where the value is not 0, the last runner has not returned. -/
theorem exists_last {p : ℤ} {l : List RunnerPC} (h : Shape p l) (hp : p ≠ 0) :
    ∃ i pc, i < l.length ∧ l[i]? = some pc ∧ pc ≠ .exited := by
  cases h with
  | idle n => exact absurd rfl hp
  | @busy n _ pc hlast hp => exact ⟨n, pc, by simp, by simp, hlast⟩

/-- Where the value is 0, no runner is about to invoke the handler. -/
theorem getLast_ne {l : List RunnerPC} (h : Shape 0 l) : l.getLast? ≠ some .launched := by
  intro hlast
  cases h with
  | idle n => cases List.eq_of_mem_replicate (List.mem_of_getLast? hlast)
  | busy n hlast hp => simp at hp

/-- At most one runner is inside the handler. -/
theorem count_running {p : ℤ} {l : List RunnerPC} (h : Shape p l) :
    l.count .running ≤ 1 := by
  have hrep : ∀ n : ℕ, (List.replicate n RunnerPC.exited).count .running = 0 := fun n =>
    List.count_eq_zero.mpr fun hmem => by cases List.eq_of_mem_replicate hmem
  cases h with
  | idle n => rw [hrep n]; exact Nat.zero_le 1
  | busy n hlast hp =>
    rw [List.count_append, hrep n, Nat.zero_add]
    exact List.count_le_length

end Shape

/-! ## The invariant -/

/-- The runners fit the value. A call that passed the handler found it installed, and one that has
returned was followed by an invocation, or the runner has to go round again. -/
structure Inv (s : Coalescer) : Prop where
  shape : Shape s.pending s.runners
  installed : s.pending ≠ 0 → s.installed = true
  found : ∀ t ∈ s.calls, t.pc ≠ .began → t.pc ≠ .skipped → s.installed = true
  before : ∀ t ∈ s.calls, t.before ≤ s.invoked
  followed : ∀ t ∈ s.calls, t.pc = .returned →
    t.before < s.invoked ∨ s.pending = 2 ∨ s.runners.getLast? = some .launched

theorem inv_of_init {s : Coalescer} (h : s.Init) : s.Inv := by
  obtain ⟨hp, hc, hr, -⟩ := h
  refine ⟨?_, fun hne => absurd hp hne, ?_, ?_, ?_⟩
  · rw [hp, hr]
    exact Shape.idle 0
  all_goals
    rw [hc]
    intro t ht
    cases ht

/-- A call moves on, and the rest stays. -/
theorem Inv.setCall {s : Coalescer} (h : s.Inv) {i : ℕ} {t : TriggerCall} {pc : TriggerPC}
    (ht : s.calls[i]? = some t) (hfound : pc ≠ .began → pc ≠ .skipped → s.installed = true)
    (hfollowed : pc = .returned → t.before < s.invoked ∨ s.pending = 2 ∨
      s.runners.getLast? = some .launched) : (s.setCall i { t with pc := pc }).Inv := by
  refine ⟨h.shape, h.installed, fun t' ht' => ?_, fun t' ht' => ?_, fun t' ht' => ?_⟩ <;>
    rcases List.mem_or_eq_of_mem_set ht' with hmem | rfl
  · exact h.found t' hmem
  · exact hfound
  · exact h.before t' hmem
  · exact h.before t (List.mem_of_getElem? ht)
  · exact h.followed t' hmem
  · exact hfollowed

/-- **Step of a call.** -/
theorem inv_stepCall {s s' : Coalescer} {i : ℕ} {t : TriggerCall} (h : s.Inv)
    (ht : s.calls[i]? = some t) (hs : s.stepCall i t = some s') : s'.Inv := by
  obtain ⟨before, pc⟩ := t
  have hmem := List.mem_of_getElem? ht
  cases pc with
  | began =>
    obtain rfl := Option.some.inj hs
    refine h.setCall ht (fun _ hskip => ?_) fun hret => ?_
    · by_contra hins
      exact hskip (if_neg hins)
    · split_ifs at hret
  | loading =>
    have hins : s.installed = true := h.found _ hmem (by simp) (by simp)
    obtain rfl := Option.some.inj hs
    refine h.setCall ht (fun _ _ => hins) fun hret => ?_
    split_ifs at hret with h₀ h₁ h₂
    exact Or.inr (Or.inl h₂)
  | sawZero =>
    have hins : s.installed = true := h.found _ hmem (by simp) (by simp)
    simp only [stepCall] at hs
    split_ifs at hs with hp
    · obtain rfl := Option.some.inj hs
      have hshape := h.shape
      rw [hp] at hshape
      have hlaunched : Inv { s with
          pending := 1
          runners := s.runners ++ [RunnerPC.launched] } := by
        exact ⟨hshape.launch, fun _ => hins, h.found, h.before,
          fun _ _ _ => Or.inr (Or.inr (by simp))⟩
      exact hlaunched.setCall ht (fun _ _ => hins) fun _ => Or.inr (Or.inr (by simp))
    · obtain rfl := Option.some.inj hs
      exact h.setCall ht (fun _ _ => hins) fun hret => by cases hret
  | sawOne =>
    have hins : s.installed = true := h.found _ hmem (by simp) (by simp)
    simp only [stepCall] at hs
    split_ifs at hs with hp
    · obtain rfl := Option.some.inj hs
      have hshape := h.shape
      rw [hp] at hshape
      have hposted : Inv { s with pending := 2 } :=
        ⟨hshape.post, fun _ => hins, h.found, h.before, fun _ _ _ => Or.inr (Or.inl rfl)⟩
      exact hposted.setCall ht (fun _ _ => hins) fun _ => Or.inr (Or.inl rfl)
    · obtain rfl := Option.some.inj hs
      exact h.setCall ht (fun _ _ => hins) fun hret => by cases hret
  | returned => cases hs
  | skipped => cases hs

/-- **Step of a runner.** The store cannot overwrite a wakeup: behind the failed compare-and-swap
the value is 2 until it is stored, and the handler follows. -/
theorem inv_stepRunner {s s' : Coalescer} {i : ℕ} {pc : RunnerPC} (h : s.Inv)
    (hpc : s.runners[i]? = some pc) (hs : s.stepRunner i pc = some s') : s'.Inv := by
  have hlive : pc ≠ .exited := by
    rintro rfl
    cases hs
  obtain ⟨hr, hp⟩ := h.shape.of_getElem hpc hlive
  have hlast : s.runners.getLast? = some pc := by rw [hr]; simp
  have hset : ∀ pc', s.runners.set i pc' = List.replicate i .exited ++ [pc'] := fun pc' => by
    rw [hr]
    exact Shape.set_last i pc pc'
  have hins : s.installed = true := h.installed (by omega)
  cases pc with
  | launched =>
    obtain rfl := Option.some.inj hs
    refine ⟨?_, fun _ => hins, h.found, fun t ht => (h.before t ht).trans (Nat.le_succ _),
      fun t ht _ => Or.inl (Nat.lt_succ_of_le (h.before t ht))⟩
    show Shape s.pending (s.runners.set i .running)
    rw [hset]
    exact Shape.busy i (by simp) (hp.imp (fun hp => ⟨hp.1, by simp⟩) id)
  | running =>
    obtain rfl := Option.some.inj hs
    refine ⟨?_, fun _ => hins, h.found, h.before, fun t ht hret => ?_⟩
    · show Shape s.pending (s.runners.set i .finished)
      rw [hset]
      exact Shape.busy i (by simp) (hp.imp (fun hp => ⟨hp.1, by simp⟩) id)
    · rcases h.followed t ht hret with hlt | htwo | hl
      · exact Or.inl hlt
      · exact Or.inr (Or.inl htwo)
      · rw [hlast] at hl
        cases hl
  | finished =>
    -- A call that has returned was followed already, or the value is 2.
    have hfollowed : ∀ t ∈ s.calls, t.pc = .returned → t.before < s.invoked ∨ s.pending = 2 := by
      intro t ht hret
      rcases h.followed t ht hret with hlt | htwo | hl
      · exact Or.inl hlt
      · exact Or.inr htwo
      · rw [hlast] at hl
        cases hl
    simp only [stepRunner] at hs
    split_ifs at hs with hone
    · obtain rfl := Option.some.inj hs
      refine ⟨?_, fun _ => hins, h.found, h.before, fun t ht hret => ?_⟩
      · show Shape 0 (s.runners.set i .exited)
        rw [hset, ← List.replicate_succ']
        exact Shape.idle (i + 1)
      · refine Or.inl ((hfollowed t ht hret).resolve_right ?_)
        omega
    · obtain rfl := Option.some.inj hs
      have htwo : s.pending = 2 := by omega
      refine ⟨?_, fun _ => hins, h.found, h.before, fun _ _ _ => Or.inr (Or.inl htwo)⟩
      show Shape s.pending (s.runners.set i .storing)
      rw [hset]
      exact Shape.busy i (by simp) (Or.inr htwo)
  | storing =>
    obtain rfl := Option.some.inj hs
    refine ⟨?_, fun _ => hins, h.found, h.before, fun _ _ _ => Or.inr (Or.inr ?_)⟩
    · show Shape 1 (s.runners.set i .launched)
      rw [hset]
      exact Shape.busy i (by simp) (Or.inl ⟨rfl, by simp⟩)
    · show (s.runners.set i .launched).getLast? = some .launched
      rw [hset]
      simp
  | exited => exact absurd rfl hlive

/-- **Step.** What every step keeps. -/
theorem inv_step {s s' : Coalescer} {e : CoalescerEvent} (h : s.Inv) (hs : s.step e = some s') :
    s'.Inv := by
  cases e with
  | install =>
    simp only [step] at hs
    split_ifs at hs
    obtain rfl := Option.some.inj hs
    exact ⟨h.shape, fun _ => rfl, fun _ _ _ _ => rfl, h.before, h.followed⟩
  | trigger =>
    obtain rfl := Option.some.inj hs
    refine ⟨h.shape, h.installed, fun t ht => ?_, fun t ht => ?_, fun t ht => ?_⟩ <;>
      rcases List.mem_append.mp ht with hmem | hmem
    · exact h.found t hmem
    · intro hpc
      rw [List.mem_singleton.mp hmem] at hpc
      exact absurd rfl hpc
    · exact h.before t hmem
    · rw [List.mem_singleton.mp hmem]
    · exact h.followed t hmem
    · intro hret
      rw [List.mem_singleton.mp hmem] at hret
      cases hret
  | call i =>
    obtain ⟨t, ht, hs⟩ := Option.bind_eq_some_iff.mp hs
    exact inv_stepCall h ht hs
  | runner i =>
    obtain ⟨pc, hpc, hs⟩ := Option.bind_eq_some_iff.mp hs
    exact inv_stepRunner h hpc hs

/-- **Run.** The invariant of every reachable state. -/
theorem inv_of_reachable {s : Coalescer}
    (h : Transition.Reachable Coalescer.step (fun _ _ => True) Coalescer.Init s) : s.Inv :=
  h.invariant (fun _ hs => inv_of_init hs) fun _ _ _ hi _ hs => inv_step hi hs

/-! ## Runners that still invoke the handler -/

/-- The runner `i` can still invoke the handler: some run goes on to a state in which it is about
to. -/
def MayInvokeAt (s : Coalescer) (i : ℕ) : Prop :=
  ∃ s', Transition.Reachable Coalescer.step (fun _ _ => True) (· = s) s' ∧
    s'.runners[i]? = some .launched

/-- A launched runner can still invoke the handler. -/
def MayInvoke (s : Coalescer) : Prop := ∃ i < s.runners.length, s.MayInvokeAt i

/-- What a runner can do later it can do now. -/
theorem MayInvokeAt.of_run {s s' : Coalescer} {i : ℕ} {es : List CoalescerEvent}
    (hs : Transition.run Coalescer.step s es = some s') (h : s'.MayInvokeAt i) :
    s.MayInvokeAt i := by
  obtain ⟨s'', hs'', hi⟩ := h
  have hstart : Transition.Reachable Coalescer.step (fun _ _ => True) (· = s) s :=
    Transition.Reachable.start rfl
  have hall : Transition.Allowed Coalescer.step (fun _ _ => True) s es :=
    Transition.Allowed.of_forall (fun _ _ => trivial) s
  exact ⟨s'', (hstart.of_run hall hs).trans hs'', hi⟩

/-- A runner that has returned stays so. -/
theorem exited_step {s s' : Coalescer} {e : CoalescerEvent} {i : ℕ}
    (hi : s.runners[i]? = some .exited) (hs : s.step e = some s') :
    s'.runners[i]? = some .exited := by
  cases e with
  | install =>
    simp only [step] at hs
    split_ifs at hs
    exact Option.some.inj hs ▸ hi
  | trigger => exact Option.some.inj hs ▸ hi
  | call k =>
    obtain ⟨⟨before, pc⟩, ht, hs⟩ := Option.bind_eq_some_iff.mp hs
    cases pc with
    | began => exact Option.some.inj hs ▸ hi
    | loading => exact Option.some.inj hs ▸ hi
    | sawZero =>
      simp only [stepCall] at hs
      split_ifs at hs
      · obtain rfl := Option.some.inj hs
        obtain ⟨hlt, -⟩ := List.getElem?_eq_some_iff.mp hi
        exact (List.getElem?_append_left hlt).trans hi
      · exact Option.some.inj hs ▸ hi
    | sawOne =>
      simp only [stepCall] at hs
      split_ifs at hs <;> exact Option.some.inj hs ▸ hi
    | returned => cases hs
    | skipped => cases hs
  | runner k =>
    obtain ⟨pc, hpc, hs⟩ := Option.bind_eq_some_iff.mp hs
    have hk : k ≠ i := by
      rintro rfl
      rw [hi] at hpc
      obtain rfl := Option.some.inj hpc
      cases hs
    have hset : ∀ pc', (s.runners.set k pc')[i]? = some .exited := fun pc' =>
      (List.getElem?_set_ne hk).trans hi
    cases pc with
    | launched => exact Option.some.inj hs ▸ hset _
    | running => exact Option.some.inj hs ▸ hset _
    | finished =>
      simp only [stepRunner] at hs
      split_ifs at hs <;> exact Option.some.inj hs ▸ hset _
    | storing => exact Option.some.inj hs ▸ hset _
    | exited => cases hs

/-- Where the value is 0, every runner has returned for good. -/
theorem not_mayInvoke {s : Coalescer} (h : s.Inv) (hp : s.pending = 0) : ¬ s.MayInvoke := by
  rintro ⟨i, hi, s', hs', hlaunched⟩
  have hshape := h.shape
  rw [hp] at hshape
  have hexited : s.runners[i]? = some .exited := by
    obtain ⟨pc, hpc⟩ : ∃ pc, s.runners[i]? = some pc := ⟨_, List.getElem?_eq_getElem hi⟩
    by_cases hlive : pc = .exited
    · exact hlive ▸ hpc
    · have := (hshape.of_getElem hpc hlive).2
      omega
  have hlast := hs'.invariant (I := fun s' => s'.runners[i]? = some .exited)
    (fun _ heq => heq ▸ hexited) fun _ _ _ hi _ hs => exited_step hi hs
  rw [hlaunched] at hlast
  cases hlast

namespace MayInvokeAt

theorem of_launched {s : Coalescer} {i : ℕ} (h : s.runners[i]? = some .launched) :
    s.MayInvokeAt i := ⟨s, Transition.Reachable.start rfl, h⟩

theorem of_storing {s : Coalescer} {i : ℕ} (h : s.runners[i]? = some .storing) :
    s.MayInvokeAt i := by
  have hrun : Transition.run Coalescer.step s [.runner i] =
      some ({ s with pending := 1 }.setRunner i .launched) := by
    simp [Transition.run, step, h, stepRunner]
  refine MayInvokeAt.of_run hrun (of_launched ?_)
  exact List.getElem?_set_self (List.getElem?_eq_some_iff.mp h).1

/-- The compare-and-swap fails on 2. -/
theorem of_finished {s : Coalescer} {i : ℕ} (h : s.runners[i]? = some .finished)
    (hp : s.pending = 2) : s.MayInvokeAt i := by
  have hrun : Transition.run Coalescer.step s [.runner i] = some (s.setRunner i .storing) := by
    simp [Transition.run, step, h, stepRunner, hp]
  refine MayInvokeAt.of_run hrun (of_storing ?_)
  exact List.getElem?_set_self (List.getElem?_eq_some_iff.mp h).1

/-- A call may come in before the compare-and-swap. -/
theorem of_finished_of_installed {s : Coalescer} {i : ℕ} (h : s.runners[i]? = some .finished)
    (hins : s.installed = true) (hp : s.pending = 1 ∨ s.pending = 2) : s.MayInvokeAt i := by
  rcases hp with hp | hp
  · let k := s.calls.length
    have hrun : Transition.run Coalescer.step s [.trigger, .call k, .call k, .call k] =
        some { s with pending := 2, calls := s.calls ++ [⟨s.invoked, .returned⟩] } := by
      simp [k, Transition.run, step, stepCall, setCall, hins, hp]
    exact MayInvokeAt.of_run hrun (of_finished h rfl)
  · exact of_finished h hp

theorem of_running {s : Coalescer} {i : ℕ} (h : s.runners[i]? = some .running)
    (hins : s.installed = true) (hp : s.pending = 1 ∨ s.pending = 2) : s.MayInvokeAt i := by
  have hrun : Transition.run Coalescer.step s [.runner i] = some (s.setRunner i .finished) := by
    simp [Transition.run, step, h, stepRunner]
  refine MayInvokeAt.of_run hrun (of_finished_of_installed ?_ hins hp)
  exact List.getElem?_set_self (List.getElem?_eq_some_iff.mp h).1

end MayInvokeAt

/-- Where the value is not 0, the last runner can still invoke the handler: behind the handler it
returns only when the value is 1, and a new call makes it 2. -/
theorem mayInvoke_of_pending {s : Coalescer} (h : s.Inv) (hp : s.pending ≠ 0) : s.MayInvoke := by
  have hins := h.installed hp
  have hval : s.pending = 1 ∨ s.pending = 2 := h.shape.pending.resolve_left hp
  obtain ⟨i, pc, hlt, hpc, hlive⟩ := h.shape.exists_last hp
  refine ⟨i, hlt, ?_⟩
  cases pc with
  | launched => exact MayInvokeAt.of_launched hpc
  | running => exact MayInvokeAt.of_running hpc hins hval
  | finished => exact MayInvokeAt.of_finished_of_installed hpc hins hval
  | storing => exact MayInvokeAt.of_storing hpc
  | exited => exact absurd rfl hlive

/-- Nothing was called yet, and no handler is installed. -/
def fresh : Coalescer := ⟨false, 0, [], [], 0⟩

theorem init_fresh : fresh.Init := ⟨rfl, rfl, rfl, rfl⟩

/-- Two calls come in while a first one's invocation is running, and the runner goes round again. -/
def burst : List CoalescerEvent :=
  [.install, .trigger, .call 0, .call 0, .call 0, .runner 0, .trigger, .trigger, .call 1, .call 2,
    .call 1, .call 2, .call 1, .runner 0, .runner 0, .call 2, .runner 0, .call 2, .runner 0,
    .runner 0, .runner 0]

end Coalescer

end Dashboard
