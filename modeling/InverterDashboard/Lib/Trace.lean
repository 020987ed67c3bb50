import Mathlib.Data.List.Infix
import Mathlib.Data.List.Count

set_option relaxedAutoImplicit false
set_option autoImplicit false

/-!
# Logs of what has happened

A log lists what has happened, the latest first. What an entry relies on is a statement about the
entries before it. A log in which every entry finds what it relies on is founded, and it stays so
when entries are added that do.

## Main definitions

* `Trace.Founded R log` — every entry finds before it what `R` asks for.
* `Trace.Once P log` — there was a moment at which `P` held of the log.
* `Trace.Added e P log` — `e` was added to a log of which `P` held.
* `Trace.AddedSince Q e P log` — and every entry since then meets `Q`.

## Main results

* `Trace.founded_iff` — foundedness, entry by entry.
* `Trace.Once.cons`, `Trace.Added.imp`, `Trace.AddedSince.cons` — what was once the case stays so.
* `Trace.Founded.countP_le_one` — what asks that it did not happen before happens at most once.
-/

namespace Trace

variable {α : Type} {R S : α → List α → Prop} {P Q : List α → Prop} {e : α} {log : List α}

/-! ## Moments -/

/-- There was a moment at which `P` held of the log. -/
def Once (P : List α → Prop) (log : List α) : Prop := ∃ earlier, earlier <:+ log ∧ P earlier

/-- The present moment is one. -/
theorem Once.now (h : P log) : Once P log := ⟨log, List.suffix_refl log, h⟩

/-- What was once the case stays so. -/
theorem Once.cons (h : Once P log) (e : α) : Once P (e :: log) := by
  obtain ⟨earlier, hsuf, hP⟩ := h
  exact ⟨earlier, hsuf.trans (List.suffix_cons e log), hP⟩

theorem Once.append (h : Once P log) (es : List α) : Once P (es ++ log) := by
  obtain ⟨earlier, hsuf, hP⟩ := h
  exact ⟨earlier, hsuf.trans (List.suffix_append es log), hP⟩

/-- What follows at every moment so far. -/
theorem Once.imp (h : Once P log) (himp : ∀ l, l <:+ log → P l → Q l) : Once Q log := by
  obtain ⟨earlier, hsuf, hP⟩ := h
  exact ⟨earlier, hsuf, himp earlier hsuf hP⟩

/-- An entry was once added to a log of a given kind. -/
def Added (e : α) (P : List α → Prop) : List α → Prop :=
  Once fun l => ∃ earlier, l = e :: earlier ∧ P earlier

theorem Added.now (e : α) (h : P log) : Added e P (e :: log) := Once.now ⟨log, rfl, h⟩

theorem Added.cons (h : Added e P log) (e' : α) : Added e P (e' :: log) := Once.cons h e'

theorem Added.append (h : Added e P log) (es : List α) : Added e P (es ++ log) := Once.append h es

theorem Added.imp (h : Added e P log) (himp : ∀ l, l <:+ log → P l → Q l) : Added e Q log := by
  refine Once.imp h ?_
  rintro _ hsuf ⟨earlier, rfl, hP⟩
  exact ⟨earlier, rfl, himp earlier ((List.suffix_cons e earlier).trans hsuf) hP⟩

/-- What was added, written out. -/
theorem added_iff :
    Added e P log ↔ ∃ later earlier, log = later ++ e :: earlier ∧ P earlier := by
  constructor
  · rintro ⟨_, ⟨later, hlog⟩, earlier, rfl, hP⟩
    exact ⟨later, earlier, hlog.symm, hP⟩
  · rintro ⟨later, earlier, rfl, hP⟩
    exact ⟨e :: earlier, List.suffix_append _ _, earlier, rfl, hP⟩

/-- An entry was once added to a log of a given kind, and the entries since then meet `Q`. -/
def AddedSince (Q : α → Prop) (e : α) (P : List α → Prop) (log : List α) : Prop :=
  ∃ later earlier, log = later ++ e :: earlier ∧ (∀ a ∈ later, Q a) ∧ P earlier

theorem AddedSince.now (Q : α → Prop) (e : α) (h : P log) : AddedSince Q e P (e :: log) :=
  ⟨[], log, rfl, fun _ ha => absurd ha List.not_mem_nil, h⟩

theorem AddedSince.cons {Q : α → Prop} (h : AddedSince Q e P log) {e' : α} (he' : Q e') :
    AddedSince Q e P (e' :: log) := by
  obtain ⟨later, earlier, rfl, hlater, hP⟩ := h
  refine ⟨e' :: later, earlier, rfl, fun a ha => ?_, hP⟩
  rcases List.mem_cons.mp ha with rfl | ha
  · exact he'
  · exact hlater a ha

/-- Nothing of a kind was added since a moment when the log had as many entries of that kind. -/
theorem Added.since_of_countP {Q : α → Prop} {p : α → Bool}
    (h : Added e (fun l => P l ∧ log.countP p = l.countP p) log) (hQ : ∀ a, p a = false → Q a) :
    AddedSince Q e P log := by
  obtain ⟨later, earlier, rfl, hP, hcount⟩ := added_iff.mp h
  refine ⟨later, earlier, rfl, fun a ha => hQ a ?_, hP⟩
  have hzero : later.countP p = 0 := by
    rw [List.countP_append, List.countP_cons] at hcount
    omega
  exact Bool.not_eq_true _ ▸ List.countP_eq_zero.mp hzero a ha

/-! ## Foundations -/

/-- Every entry finds in the log before it what `R` asks for. -/
def Founded (R : α → List α → Prop) : List α → Prop
  | [] => True
  | e :: log => R e log ∧ Founded R log

@[simp] theorem founded_nil : Founded R [] := trivial

@[simp] theorem founded_cons : Founded R (e :: log) ↔ R e log ∧ Founded R log := Iff.rfl

/-- Foundedness, entry by entry. -/
theorem founded_iff :
    Founded R log ↔ ∀ later e earlier, log = later ++ e :: earlier → R e earlier := by
  induction log with
  | nil => simp
  | cons a log ih =>
    rw [founded_cons, ih]
    constructor
    · rintro ⟨ha, hlog⟩ later e earlier heq
      cases later with
      | nil =>
        obtain ⟨rfl, rfl⟩ := List.cons.inj heq
        exact ha
      | cons b later => exact hlog later e earlier (List.cons.inj heq).2
    · intro h
      refine ⟨h [] a log rfl, fun later e earlier heq => h (a :: later) e earlier ?_⟩
      rw [heq, List.cons_append]

theorem Founded.mono (h : Founded R log) (himp : ∀ e l, R e l → S e l) : Founded S log := by
  induction log with
  | nil => trivial
  | cons a log ih => exact ⟨himp a log h.1, ih h.2⟩

/-- Entries that rely on nothing are added. -/
theorem Founded.append (h : Founded R log) {es : List α} (hes : ∀ e ∈ es, ∀ l, R e l) :
    Founded R (es ++ log) := by
  induction es with
  | nil => exact h
  | cons a es ih =>
    exact ⟨hes a List.mem_cons_self _, ih fun e he => hes e (List.mem_cons_of_mem a he)⟩

/-- What asks that it happened so many times at most before happens once more at most. -/
theorem Founded.countP_le {p : α → Bool} {n : ℕ}
    (h : Founded (fun e l => p e = true → l.countP p ≤ n) log) : log.countP p ≤ n + 1 := by
  induction log with
  | nil => simp
  | cons a log ih =>
    obtain ⟨ha, hlog⟩ := h
    rw [List.countP_cons]
    split_ifs with hp
    · exact Nat.succ_le_succ (ha hp)
    · exact ih hlog

/-- What asks that it did not happen before happens at most once. -/
theorem Founded.countP_le_one {p : α → Bool}
    (h : Founded (fun e l => p e = true → ∀ e' ∈ l, p e' = false) log) : log.countP p ≤ 1 := by
  refine (h.mono fun e l he hp => ?_).countP_le
  exact (List.countP_eq_zero.mpr fun e' he' => by simp [he hp e' he']).le

end Trace
