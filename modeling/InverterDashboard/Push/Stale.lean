import InverterDashboard.Push.Baselines

set_option relaxedAutoImplicit false
set_option autoImplicit false

/-!
# Baselines after a failed call

`Observe` returns at the first call of `Enqueue` that fails, from either of its loops. What the
samples behind that call would have cleared stays, and so do the baselines that a complete
observation would have swept.

## Main definitions

* `Push.Processor.call` — the processor over resets and observations, whether or not calls fail.
* `Push.Observation.Cleared` — no baseline is left that the observation takes away.
* `Push.Observation.Keeps` — the baselines the whole observation keeps.
* `Push.Processor.Held`, `Push.Processor.stopped` — the baselines at the failed call, and where it
  is.

## Main results

* `Push.Processor.Holds.baseline_foldl` — the baselines after some of the samples.
* `Push.Observation.cleared_iff` — nothing is left to clear if every baseline is one to keep.
* `Push.Processor.cleared_observe_iff` — when a failed call leaves no stale baseline.
-/

namespace Push

open Go (F64)

/-! ## The last sample of a kind -/

section LastOf

variable {kind : String} {l r : List Sample}

theorem lastOf_append_some {σ : Sample} (h : lastOf kind r = some σ) :
    lastOf kind (l ++ r) = some σ := by
  unfold lastOf at h ⊢
  rw [List.filter_append, List.getLast?_append, h, Option.some_or]

/-- Nothing behind the last sample of a kind is of the kind. -/
theorem lastOf_split {σ : Sample} (h : lastOf kind l = some σ) :
    ∃ a b, l = a ++ σ :: b ∧ σ.kind = kind ∧ ∀ τ ∈ b, τ.kind ≠ kind := by
  induction l using List.reverseRecOn with
  | nil => cases h
  | append_singleton l τ ih =>
    by_cases hkind : kind = τ.kind
    · subst hkind
      rw [lastOf_append_self] at h
      obtain rfl := Option.some.inj h
      exact ⟨l, [], rfl, rfl, List.forall_mem_nil _⟩
    · rw [lastOf_append_ne l hkind] at h
      obtain ⟨a, b, rfl, hσ, hb⟩ := ih h
      refine ⟨a, b ++ [τ], by simp, hσ, fun υ hυ => ?_⟩
      rcases List.mem_append.mp hυ with hυ | hυ
      · exact hb υ hυ
      · rw [List.mem_singleton.mp hυ]
        exact Ne.symm hkind

/-- With a sample of the kind in the list, the last one is not before it. -/
theorem lastOf_append_cons {a b : List Sample} {σ : Sample} :
    ∃ τ ∈ σ :: b, lastOf σ.kind (a ++ σ :: b) = some τ := by
  cases h : lastOf σ.kind (σ :: b) with
  | none => exact absurd rfl (lastOf_eq_none h σ List.mem_cons_self)
  | some τ => exact ⟨τ, (lastOf_mem h).1, lastOf_append_some h⟩

end LastOf

/-! ## What an observation clears -/

/-- The key that is selected for a kind behind some of the samples. -/
def Processor.selectedAfter (p : Processor) (l : List Sample) (kind : String) : Option String :=
  ((lastOf kind l).map Sample.key).or (p.selected kind)

namespace Observation

/-- No baseline is left in the processor `p'` behind an observation of `p` that the observation
takes away: none for a sample without a live value that no later sample of the device follows, none
for a device that was selected before a sample of another one of its kind and is not sampled again,
and none that a complete observation does not contain. -/
structure Cleared (ob : Observation) (p p' : Processor) : Prop where
  dead : ∀ l σ rest, ob.samples = l ++ σ :: rest → Processor.liveValue ob.retained σ = none →
    (∀ τ ∈ rest, τ.key ≠ σ.key) → p'.baseline σ.key = none
  replaced : ∀ l σ rest key, ob.samples = l ++ σ :: rest → p.selectedAfter l σ.kind = some key →
    key ≠ σ.key → (∀ τ ∈ rest, τ.key ≠ key) → p'.baseline key = none
  complete : ob.complete = true → ∀ key, (∀ σ ∈ ob.samples, σ.key ≠ key) → p'.baseline key = none

/-- The observation keeps a baseline of this device: the last sample of its kind is a live one of
the device, or no sample is of its kind and the observation is not complete. -/
def Keeps (ob : Observation) (τ : Sample) : Prop :=
  match lastOf τ.kind ob.samples with
  | some σ => σ.key = τ.key ∧ (Processor.liveValue ob.retained σ).isSome = true
  | none => ob.complete = false

end Observation

namespace Processor

/-- Behind these samples the processor holds a baseline of the device. -/
def Held (p : Processor) (retained : Bool) (cut : List Sample) (τ : Sample) : Prop :=
  match lastOf τ.kind cut with
  | some σ => σ.key = τ.key ∧ (liveValue retained σ).isSome = true
  | none => p.baseline τ.key ≠ none

/-- Every baseline is one of a sample. -/
def Proper (p : Processor) : Prop :=
  ∀ key, p.baseline key ≠ none → ∃ σ : Sample, σ.kind ∈ sampleKinds ∧ σ.key = key

/-- A baseline is held for the selected device. -/
theorem Holds.selectedAfter_of_held {p : Processor} (h : p.Holds) {retained : Bool}
    {cut : List Sample} {τ : Sample} (hτ : τ.kind ∈ sampleKinds) (hheld : p.Held retained cut τ) :
    p.selectedAfter cut τ.kind = some τ.key := by
  unfold Held at hheld
  unfold selectedAfter
  cases hl : lastOf τ.kind cut with
  | none =>
    rw [hl] at hheld
    exact h.selected τ hτ hheld
  | some σ =>
    rw [hl] at hheld
    exact congrArg some hheld.1

/-- **A change of the selection.** If a device is selected behind some samples and not behind more
of them, a sample of another device of its kind followed it, and none of the device came later.

**Proof sketch.** By induction from the last sample: either it made the change, or it is not of the
device, which would be selected again. -/
theorem exists_replaced (p : Processor) {kind : String} {τ : Sample} (hτ : τ.kind = kind)
    (hkind : kind ∈ sampleKinds) {cut rest : List Sample}
    (hrest : ∀ σ ∈ rest, σ.kind ∈ sampleKinds) (hcut : p.selectedAfter cut kind = some τ.key)
    (hend : p.selectedAfter (cut ++ rest) kind ≠ some τ.key) :
    ∃ l σ r, cut ++ rest = l ++ σ :: r ∧ σ.kind = kind ∧ p.selectedAfter l kind = some τ.key ∧
      τ.key ≠ σ.key ∧ ∀ υ ∈ r, υ.key ≠ τ.key := by
  induction rest using List.reverseRecOn with
  | nil =>
    rw [List.append_nil] at hend
    exact absurd hcut hend
  | append_singleton rest σ ih =>
    rw [← List.append_assoc] at hend ⊢
    have hlast : ∀ l : List Sample, σ.key = τ.key →
        p.selectedAfter (l ++ [σ]) kind = some τ.key := by
      intro l hkey
      have hsame : σ.kind = kind := by
        have hinj := (key_inj (hrest σ (by simp)) (hτ ▸ hkind : τ.kind ∈ sampleKinds) hkey).1
        exact hinj.trans hτ
      unfold selectedAfter
      rw [← hsame, lastOf_append_self]
      exact congrArg some hkey
    have hne : σ.key ≠ τ.key := fun hkey => hend (hlast _ hkey)
    by_cases hsel : p.selectedAfter (cut ++ rest) kind = some τ.key
    · refine ⟨cut ++ rest, σ, [], rfl, ?_, hsel, hne.symm, List.forall_mem_nil _⟩
      by_contra hkind'
      apply hend
      rw [selectedAfter, lastOf_append_ne _ (Ne.symm hkind')]
      exact hsel
    · obtain ⟨l, υ, r, heq, hυ, hl, hneq, hr⟩ :=
        ih (fun υ hυ => hrest υ (List.mem_append_left _ hυ)) hsel
      refine ⟨l, υ, r ++ [σ], by rw [heq]; simp, hυ, hl, hneq, fun ω hω => ?_⟩
      rcases List.mem_append.mp hω with hω | hω
      · exact hr ω hω
      · rw [List.mem_singleton.mp hω]
        exact hne

end Processor

/-- **Nothing is left to clear** if every baseline is one that the observation keeps, and only then.

**Proof sketch.** A baseline is held for the device that is selected behind the samples that were
reached. If the last sample of its kind is of another device, it was replaced on the way; if it is
one of the device, it must be live; and without one the observation must not be complete. -/
theorem Observation.cleared_iff {p p' : Processor} (hp : p.Holds) (hp' : p'.Proper)
    {ob : Observation} (hob : ∀ σ ∈ ob.samples, σ.kind ∈ sampleKinds) {cut rest : List Sample}
    (hsplit : ob.samples = cut ++ rest)
    (hheld : ∀ τ : Sample, τ.kind ∈ sampleKinds → p'.baseline τ.key ≠ none →
      p.Held ob.retained cut τ) :
    ob.Cleared p p' ↔
      ∀ τ : Sample, τ.kind ∈ sampleKinds → p'.baseline τ.key ≠ none → ob.Keeps τ := by
  constructor
  · intro h τ hτ hb
    have hcut := hp.selectedAfter_of_held hτ (hheld τ hτ hb)
    unfold Keeps
    cases hl : lastOf τ.kind ob.samples with
    | none =>
      dsimp only
      by_contra hcomplete
      refine hb (h.complete (by simpa using hcomplete) τ.key fun σ hσ hkey => ?_)
      exact lastOf_eq_none hl σ hσ (key_inj (hob σ hσ) hτ hkey).1
    | some υ =>
      obtain ⟨a, b, hab, hυ, hbehind⟩ := lastOf_split hl
      have hkey : υ.key = τ.key := by
        by_contra hne
        have hend : p.selectedAfter (cut ++ rest) τ.kind ≠ some τ.key := by
          rw [← hsplit, Processor.selectedAfter, hl]
          exact fun hsome => hne (Option.some.inj hsome)
        obtain ⟨l, σ, r, heq, hσ, hsel, hneq, hr⟩ := p.exists_replaced rfl hτ
          (fun σ hσ => hob σ (hsplit ▸ List.mem_append_right _ hσ)) hcut hend
        exact hb (h.replaced l σ r τ.key (hsplit.trans heq) (hσ.symm ▸ hsel) hneq hr)
      refine ⟨hkey, ?_⟩
      by_contra hlive
      have hdead : Processor.liveValue ob.retained υ = none :=
        Option.not_isSome_iff_eq_none.mp hlive
      refine hb (hkey ▸ h.dead a υ b hab hdead fun σ hσ hsame => hbehind σ hσ ?_)
      have hmem : σ ∈ ob.samples := hab ▸ List.mem_append_right _ (List.mem_cons_of_mem _ hσ)
      exact (key_inj (hob σ hmem) hτ (hsame.trans hkey)).1
  · intro h
    refine ⟨fun l σ r hl hdead hr => ?_, fun l σ r key hl hsel hne hr => ?_, fun hc key hkey => ?_⟩
    · by_contra hb
      have hσ : σ ∈ ob.samples := hl ▸ List.mem_append_right _ List.mem_cons_self
      have hkeeps := h σ (hob σ hσ) hb
      obtain ⟨τ, hτ, hlast⟩ := lastOf_append_cons (a := l) (b := r) (σ := σ)
      rw [Keeps, hl, hlast] at hkeeps
      dsimp only at hkeeps
      rcases List.mem_cons.mp hτ with rfl | hτ
      · rw [hdead] at hkeeps
        exact absurd hkeeps.2 (by simp)
      · exact hr τ hτ hkeeps.1
    · by_contra hb
      have hσ : σ ∈ ob.samples := hl ▸ List.mem_append_right _ List.mem_cons_self
      obtain ⟨υ, hυ, rfl⟩ := hp' key hb
      have hkind : υ.kind = σ.kind := by
        unfold Processor.selectedAfter at hsel
        cases hlast : lastOf σ.kind l with
        | none =>
          rw [hlast] at hsel
          obtain ⟨id, hid⟩ := hp.named σ.kind (hob σ hσ) υ.key hsel
          exact (key_inj hυ (hob σ hσ) hid).1
        | some ω =>
          rw [hlast] at hsel
          have hω := (lastOf_mem hlast).2
          have hkey : ω.key = υ.key := Option.some.inj hsel
          exact (key_inj hυ (hω.symm ▸ hob σ hσ) hkey.symm).1.trans hω
      have hkeeps := h υ hυ hb
      obtain ⟨τ, hτ, hlast⟩ := lastOf_append_cons (a := l) (b := r) (σ := σ)
      rw [Keeps, hl, hkind, hlast] at hkeeps
      rcases List.mem_cons.mp hτ with rfl | hτ
      · exact hne hkeeps.1.symm
      · exact hr τ hτ hkeeps.1
    · by_contra hb
      obtain ⟨υ, hυ, rfl⟩ := hp' key hb
      have hkeeps := h υ hυ hb
      unfold Keeps at hkeeps
      cases hlast : lastOf υ.kind ob.samples with
      | none =>
        rw [hlast] at hkeeps
        rw [hc] at hkeeps
        cases hkeeps
      | some τ =>
        rw [hlast] at hkeeps
        exact hkey τ (lastOf_mem hlast).1 hkeeps.1

/-! ## The samples that are reached -/

namespace Processor

/-- The processor after some samples. -/
def afterAll (p : Processor) (retained : Bool) (now : Instant) (l : List Sample) : Processor :=
  l.foldl (fun p σ => p.after retained now σ) p

theorem Holds.afterAll {p : Processor} (h : p.Holds) (hconn : p.connected = true) (retained : Bool)
    (now : Instant) {l : List Sample} (hl : ∀ σ ∈ l, σ.kind ∈ sampleKinds) :
    (p.afterAll retained now l).Holds := by
  induction l generalizing p with
  | nil => exact h
  | cons σ l ih =>
    exact ih (h.after hconn retained now (hl σ List.mem_cons_self)) hconn
      fun τ hτ => hl τ (List.mem_cons_of_mem _ hτ)

/-- **Baselines.** Behind some samples a device has a baseline if the last sample of its kind was a
live one of the device, or if it had one and no sample was of its kind. -/
theorem Holds.baseline_afterAll_iff {p : Processor} (h : p.Holds) (hconn : p.connected = true)
    (retained : Bool) (now : Instant) {l : List Sample} (hl : ∀ σ ∈ l, σ.kind ∈ sampleKinds)
    {τ : Sample} (hτ : τ.kind ∈ sampleKinds) :
    (p.afterAll retained now l).baseline τ.key ≠ none ↔ p.Held retained l τ := by
  induction l using List.reverseRecOn with
  | nil => exact Iff.rfl
  | append_singleton l σ ih =>
    have hinit : ∀ υ ∈ l, υ.kind ∈ sampleKinds := fun υ hυ => hl υ (List.mem_append_left _ hυ)
    have hσ : σ.kind ∈ sampleKinds := hl σ (List.mem_append_right _ List.mem_cons_self)
    have hstep : p.afterAll retained now (l ++ [σ]) =
        (p.afterAll retained now l).after retained now σ := by
      unfold Processor.afterAll
      rw [List.foldl_append, List.foldl_cons, List.foldl_nil]
    rw [hstep, (h.afterAll hconn retained now hinit).baseline_after retained now hσ hτ]
    unfold Held
    by_cases hkind : τ.kind = σ.kind
    · rw [if_pos hkind, hkind, lastOf_append_self]
      dsimp only
      by_cases hkey : τ.key = σ.key
      · rw [if_pos hkey, hkey]
        cases liveValue retained σ <;> simp
      · rw [if_neg hkey]
        exact iff_of_false (fun hne => hne rfl) fun hand => hkey hand.1.symm
    · rw [if_neg hkind, lastOf_append_ne l hkind]
      exact ih hinit

/-- A sample adds no baseline but its own. -/
theorem Proper.after {p : Processor} (h : p.Proper) (retained : Bool) (now : Instant) {σ : Sample}
    (hσ : σ.kind ∈ sampleKinds) : (p.after retained now σ).Proper := by
  intro key hb
  by_cases hkey : key = σ.key
  · exact ⟨σ, hσ, hkey.symm⟩
  · have hbase : (p.after retained now σ).baseline key = (p.select σ).baseline key :=
      Function.update_of_ne hkey _ _
    rw [hbase] at hb
    exact h key fun hnil => hb (select_baseline_eq_none hnil)

theorem Proper.afterAll {p : Processor} (h : p.Proper) (retained : Bool) (now : Instant)
    {l : List Sample} (hl : ∀ σ ∈ l, σ.kind ∈ sampleKinds) :
    (p.afterAll retained now l).Proper := by
  induction l generalizing p with
  | nil => exact h
  | cons σ l ih =>
    exact ih (h.after retained now (hl σ List.mem_cons_self))
      fun τ hτ => hl τ (List.mem_cons_of_mem _ hτ)

/-- The number of samples up to the first whose event cannot be handed over; `c` calls were made
before them. -/
def failedAt (fails : ℕ → Bool) (retained : Bool) (now : Instant) :
    ℕ → List Sample → Processor → Option ℕ
  | _, [], _ => none
  | c, σ :: rest, p =>
    if p.eventOf retained now σ = none then
      (failedAt fails retained now c rest (p.after retained now σ)).map (· + 1)
    else if fails c then some 1
    else (failedAt fails retained now (c + 1) rest (p.after retained now σ)).map (· + 1)

/-- The number of calls that the notifications ask for. -/
def timed (ns : List Native) : ℕ := (ns.filter fun n => n.timestamp ≠ zeroTime).length

/-- The number of samples that are reached if a call fails: none if it is a call for a notification,
and else those up to the one of the call. -/
def stopped (fails : ℕ → Bool) (p : Processor) (ob : Observation) (now : Instant) : Option ℕ :=
  if ∃ c < timed (ob.notifications.getD []), fails c = true then some 0
  else failedAt fails ob.retained now (timed (ob.notifications.getD [])) ob.samples p

/-- The events do not depend on the other members. -/
theorem failedAt_same (fails : ℕ → Bool) (retained : Bool) (now : Instant) (c : ℕ)
    (l : List Sample) {p p' : Processor} (h : SameSamples p p') :
    failedAt fails retained now c l p' = failedAt fails retained now c l p := by
  induction l generalizing c p p' with
  | nil => rfl
  | cons σ l ih =>
    have hevent : p'.eventOf retained now σ = p.eventOf retained now σ := by
      unfold eventOf select
      rw [h.baseline, h.selected]
    have hafter : SameSamples (p.after retained now σ) (p'.after retained now σ) := by
      refine ⟨h.epoch, h.connected, ?_, ?_⟩
      · unfold Processor.after Processor.record select
        simp only [h.baseline, h.selected]
      · unfold Processor.after Processor.record select
        simp only [h.selected]
    unfold failedAt
    rw [hevent, ih c hafter, ih (c + 1) hafter]

/-- The loop goes through all samples, or to the first whose call fails. -/
theorem samples_afterAll (L : Libs) (fails : ℕ → Bool) (retained : Bool) (now : Instant) (i : ℕ)
    (l : List Sample) (p : Processor) (calls : List Request) :
    (samples L fails retained now i l p calls).ok =
        (failedAt fails retained now calls.length l p).isNone ∧
      (samples L fails retained now i l p calls).processor =
        p.afterAll retained now
          (l.take ((failedAt fails retained now calls.length l p).getD l.length)) := by
  induction l generalizing i p calls with
  | nil => exact ⟨rfl, rfl⟩
  | cons σ l ih =>
    have hnext : ∀ {o : Option ℕ} {r : Progress}, r.ok = o.isNone ∧
        r.processor = (p.after retained now σ).afterAll retained now (l.take (o.getD l.length)) →
        r.ok = (o.map (· + 1)).isNone ∧
          r.processor = p.afterAll retained now
            ((σ :: l).take ((o.map (· + 1)).getD (σ :: l).length)) := by
      intro o r hr
      cases o <;> exact hr
    rw [samples_cons]
    unfold failedAt
    cases p.eventOf retained now σ with
    | none =>
      rw [if_pos rfl]
      exact hnext (ih (i + 1) (p.after retained now σ) calls)
    | some note =>
      rw [if_neg (by simp)]
      dsimp only
      by_cases hfail : fails calls.length = true
      · rw [if_pos hfail, if_pos hfail]
        exact ⟨rfl, rfl⟩
      · rw [if_neg hfail, if_neg hfail]
        have hr := hnext (ih (i + 1) (p.after retained now σ) (calls ++ [request L p now i σ note]))
        rwa [List.length_append] at hr

/-- The loop over the notifications goes on while its calls succeed. -/
theorem natives_ok (L : Libs) (fails : ℕ → Bool) (prime : Bool) (now : Instant) (ns : List Native)
    (p : Processor) (calls : List Request) :
    ((natives L fails prime now ns p calls).ok = true ↔
        ∀ c, calls.length ≤ c → c < calls.length + timed ns → fails c = false) ∧
      ((natives L fails prime now ns p calls).ok = true →
        (natives L fails prime now ns p calls).calls.length = calls.length + timed ns) := by
  induction ns generalizing p calls with
  | nil => exact ⟨iff_of_true rfl fun c h₁ h₂ => absurd h₂ (Nat.not_lt.mpr h₁), fun _ => rfl⟩
  | cons n ns ih =>
    rw [natives]
    dsimp only
    generalize (if (p.unknown n.id).any (fun old => old ≠ identity n) = true then
      { p with unknown := Function.update p.unknown n.id none } else p) = p₁
    by_cases hzero : n.timestamp = zeroTime
    · have htimed : timed (n :: ns) = timed ns := by simp [timed, hzero]
      rw [if_pos hzero, htimed]
      exact ih _ calls
    · have htimed : timed (n :: ns) = timed ns + 1 := by simp [timed, hzero]
      rw [if_neg hzero, htimed]
      unfold enqueue
      dsimp only
      cases hfail : fails calls.length with
      | true =>
        refine ⟨iff_of_false (by simp) fun h => ?_, fun h => absurd h (by simp)⟩
        have hnot := h calls.length (le_refl _) (by omega)
        rw [hfail] at hnot
        cases hnot
      | false =>
        rw [if_pos (by rfl)]
        obtain ⟨hok, hlen⟩ := ih { p₁ with unknown := Function.update p₁.unknown n.id none }
          (calls ++ [nativeRequest L p₁ prime now n])
        rw [List.length_append, List.length_singleton] at hok hlen
        refine ⟨hok.trans ⟨fun h c h₁ h₂ => ?_, fun h c h₁ h₂ => h c (by omega) (by omega)⟩,
          fun h => (hlen h).trans (by omega)⟩
        rcases Nat.eq_or_lt_of_le h₁ with heq | hlt
        · exact heq ▸ hfail
        · exact h c hlt (by omega)

/-- The notifications of an observation. -/
theorem observeNatives_ok (L : Libs) (fails : ℕ → Bool) (p : Processor) (ob : Observation)
    (now : Instant) :
    ((observeNatives L fails p ob now).ok = true ↔
        ¬ ∃ c < timed (ob.notifications.getD []), fails c = true) ∧
      ((observeNatives L fails p ob now).ok = true →
        (observeNatives L fails p ob now).calls.length = timed (ob.notifications.getD [])) := by
  unfold observeNatives
  cases ob.notifications with
  | none => exact ⟨iff_of_true rfl fun h => by simp [timed] at h, fun _ => rfl⟩
  | some ns =>
    dsimp only [Option.getD_some]
    obtain ⟨hok, hlen⟩ := natives_ok L fails
      (decide (p.source ≠ "mqtt" ∧ p.primed = false) ||
        decide (p.source = "mqtt" ∧ now - p.start < seconds 10) || ob.retained) now ns p []
    have hiff : (∀ c, ([] : List Request).length ≤ c → c < ([] : List Request).length + timed ns →
        fails c = false) ↔ ¬ ∃ c < timed ns, fails c = true := by
      simp
    rw [List.length_nil, Nat.zero_add] at hlen
    rw [hiff] at hok
    split_ifs with h
    · exact ⟨iff_of_true h (hok.mp h), fun _ => hlen h⟩
    · exact ⟨hok, hlen⟩

/-- **The baselines after an observation** are those behind the samples that were reached, without
the ones that a complete observation in which no call failed sweeps away. -/
theorem observe_baseline (L : Libs) (fails : ℕ → Bool) {p : Processor} (ob : Observation)
    (now : Instant) (hconn : p.connected = true) :
    ∃ p₁, SameSamples p p₁ ∧ (observe L fails p ob now).processor =
      match stopped fails p ob now with
      | none => (p₁.afterAll ob.retained now ob.samples).sweep ob
      | some n => p₁.afterAll ob.retained now (ob.samples.take n) := by
  obtain ⟨hsame, -⟩ := observeNatives_frame L fails p ob now
  obtain ⟨hok, hlen⟩ := observeNatives_ok L fails p ob now
  refine ⟨(observeNatives L fails p ob now).processor, hsame, ?_⟩
  unfold observe stopped
  simp only [hconn, Bool.not_true, Bool.false_eq_true, if_false]
  by_cases h₁ : (observeNatives L fails p ob now).ok = true
  · obtain ⟨hok₂, hproc⟩ := samples_afterAll L fails ob.retained now 0 ob.samples
      (observeNatives L fails p ob now).processor (observeNatives L fails p ob now).calls
    rw [hlen h₁, failedAt_same fails ob.retained now _ _ hsame] at hok₂ hproc
    rw [if_pos h₁, if_neg (hok.mp h₁)]
    cases hfailed : failedAt fails ob.retained now (timed (ob.notifications.getD [])) ob.samples
      p with
    | none =>
      rw [hfailed, Option.isNone_none] at hok₂
      rw [hfailed, Option.getD_none, List.take_length] at hproc
      rw [if_pos hok₂, hproc]
    | some n =>
      rw [hfailed, Option.isNone_some] at hok₂
      rw [hfailed, Option.getD_some] at hproc
      rw [if_neg (by rw [hok₂]; exact Bool.false_ne_true)]
      exact hproc
  · rw [if_neg h₁, if_pos (not_not.mp fun h => h₁ (hok.mpr h))]
    rfl

/-! ## Runs -/

/-- A reset or an observation, whether or not its calls of `Enqueue` succeed. -/
def call (L : Libs) (p : Processor) : Processing.Event → Option Processor
  | .reset none _ _ _ => some p
  | .reset (some epoch) source connected now => some (reset epoch source connected now)
  | .observe fails ob now => some (observe L fails p ob now).processor

/-- The samples of an observation are of the four kinds. -/
def Sampled (_ : Processor) : Processing.Event → Prop
  | .observe _ ob _ => ∀ σ ∈ ob.samples, σ.kind ∈ sampleKinds
  | .reset _ _ _ _ => True

/-- A new processor. -/
def Init (p : Processor) : Prop := p = {}

/-- A sweep takes baselines away. -/
theorem sweep_baseline (p : Processor) (ob : Observation) (key : String) :
    (p.sweep ob).baseline key =
      if ob.complete = true ∧ key ∉ ob.samples.map Sample.key then none else p.baseline key := by
  unfold sweep
  split_ifs with hc hout hout
  · exact if_neg hout.2
  · exact if_pos (by simpa [hc] using hout)
  · exact absurd hout.1 hc
  · rfl

theorem Proper.of_baseline {p p' : Processor} (h : p.Proper)
    (hle : ∀ key, p'.baseline key ≠ none → p.baseline key ≠ none) : p'.Proper :=
  fun key hb => h key (hle key hb)

theorem Proper.observe {p : Processor} (h : p.Proper) (L : Libs) (fails : ℕ → Bool)
    {ob : Observation} (hob : ∀ σ ∈ ob.samples, σ.kind ∈ sampleKinds) (now : Instant) :
    (observe L fails p ob now).processor.Proper := by
  cases hconn : p.connected with
  | false =>
    unfold Processor.observe
    rw [hconn]
    exact h
  | true =>
    obtain ⟨p₁, hsame, heq⟩ := observe_baseline L fails ob now hconn
    have h₁ : p₁.Proper := h.of_baseline fun key hb => hsame.baseline ▸ hb
    rw [heq]
    cases stopped fails p ob now with
    | none =>
      refine (h₁.afterAll ob.retained now hob).of_baseline fun key hb => ?_
      rw [sweep_baseline] at hb
      split_ifs at hb
      · exact absurd rfl hb
      · exact hb
    | some n => exact h₁.afterAll ob.retained now fun σ hσ => hob σ (List.mem_of_mem_take hσ)

/-- Every reachable processor has its baselines in order. -/
theorem holds_of_reachable {L : Libs} {p : Processor}
    (h : Transition.Reachable (call L) Sampled Init p) : p.Holds ∧ p.Proper := by
  refine h.invariant (I := fun q => q.Holds ∧ q.Proper) ?_ ?_
  · rintro q rfl
    exact ⟨holds_new, fun key hb => absurd rfl hb⟩
  · intro q e q' ⟨hholds, hproper⟩ hok hs
    cases e with
    | reset epoch source connected now =>
      cases epoch with
      | none =>
        obtain rfl := Option.some.inj hs
        exact ⟨hholds, hproper⟩
      | some epoch =>
        obtain rfl := Option.some.inj hs
        exact ⟨holds_reset epoch source connected now, fun key hb => absurd rfl hb⟩
    | observe fails ob now =>
      obtain rfl := Option.some.inj hs
      exact ⟨hholds.observe L fails hok now, hproper.observe L fails hok now⟩

/-- **Failed admissions.** An observation leaves no stale baseline if no call of `Enqueue` fails, or
if every baseline that is held at the failed call is one that the whole observation keeps, and only
then. -/
theorem cleared_observe_iff {L : Libs} {p : Processor}
    (h : Transition.Reachable (call L) Sampled Init p) (fails : ℕ → Bool) {ob : Observation}
    (hob : ∀ σ ∈ ob.samples, σ.kind ∈ sampleKinds) (now : Instant) :
    ob.Cleared p (observe L fails p ob now).processor ↔
      (p.connected = true → ∀ n, stopped fails p ob now = some n →
        ∀ τ : Sample, τ.kind ∈ sampleKinds → p.Held ob.retained (ob.samples.take n) τ →
          ob.Keeps τ) := by
  obtain ⟨hholds, hproper⟩ := holds_of_reachable h
  have hproper' := hproper.observe L fails hob now
  cases hconn : p.connected with
  | false =>
    have hsame : observe L fails p ob now = { processor := p } := by
      unfold observe
      rw [hconn]
      rfl
    rw [hsame]
    have hnone := hholds.connected hconn
    exact iff_of_true ⟨fun _ _ _ _ _ _ => hnone _, fun _ _ _ _ _ _ _ _ => hnone _,
      fun _ _ _ => hnone _⟩ fun hc => absurd hc Bool.false_ne_true
  | true =>
    obtain ⟨p₁, hsame, heq⟩ := observe_baseline L fails ob now hconn
    have hafter : ∀ (l : List Sample), (∀ σ ∈ l, σ.kind ∈ sampleKinds) → ∀ τ : Sample,
        τ.kind ∈ sampleKinds →
        ((p₁.afterAll ob.retained now l).baseline τ.key ≠ none ↔ p.Held ob.retained l τ) := by
      intro l hl τ hτ
      have hiff := (hholds.of_same hsame).baseline_afterAll_iff (hsame.connected.trans hconn)
        ob.retained now hl hτ
      unfold Held at hiff ⊢
      rwa [hsame.baseline] at hiff
    cases hstop : stopped fails p ob now with
    | none =>
      rw [hstop] at heq
      refine iff_of_true ?_ fun _ n hn => by cases hn
      have hall : ∀ τ : Sample, τ.kind ∈ sampleKinds →
          (observe L fails p ob now).processor.baseline τ.key ≠ none →
          p.Held ob.retained ob.samples τ ∧
            ¬ (ob.complete = true ∧ τ.key ∉ ob.samples.map Sample.key) := by
        intro τ hτ hb
        rw [heq, sweep_baseline] at hb
        split_ifs at hb with hswept
        · exact absurd rfl hb
        · exact ⟨(hafter ob.samples hob τ hτ).mp hb, hswept⟩
      refine (Observation.cleared_iff hholds hproper' hob (List.append_nil _).symm
        fun τ hτ hb => (hall τ hτ hb).1).mpr fun τ hτ hb => ?_
      obtain ⟨hheld, hswept⟩ := hall τ hτ hb
      unfold Held at hheld
      unfold Observation.Keeps
      cases hl : lastOf τ.kind ob.samples with
      | some σ =>
        rw [hl] at hheld
        exact hheld
      | none =>
        dsimp only
        by_contra hc
        refine hswept ⟨by simpa using hc, fun hmem => ?_⟩
        obtain ⟨σ, hσ, hkey⟩ := List.mem_map.mp hmem
        exact lastOf_eq_none hl σ hσ (key_inj (hob σ hσ) hτ hkey).1
    | some n =>
      rw [hstop] at heq
      have hheld : ∀ τ : Sample, τ.kind ∈ sampleKinds →
          ((observe L fails p ob now).processor.baseline τ.key ≠ none ↔
            p.Held ob.retained (ob.samples.take n) τ) := by
        intro τ hτ
        rw [heq]
        exact hafter _ (fun σ hσ => hob σ (List.mem_of_mem_take hσ)) τ hτ
      rw [Observation.cleared_iff hholds hproper' hob (List.take_append_drop n _).symm
        fun τ hτ hb => (hheld τ hτ).mp hb]
      constructor
      · intro hkeeps _ m hm τ hτ hτheld
        obtain rfl := Option.some.inj hm
        exact hkeeps τ hτ ((hheld τ hτ).mpr hτheld)
      · intro hkeeps τ hτ hb
        exact hkeeps rfl n rfl τ hτ ((hheld τ hτ).mp hb)

/-! ## A full queue -/

/-- An observation of the state of charge of one battery, next to some notifications. -/
def charge (notifications : Option (List Native)) (value : Option F64) : Observation where
  notifications := notifications
  samples := [⟨"soc", "battery/1", value⟩]
  retained := false
  complete := true

/-- A processor that knows the state of charge. -/
def charged : Processor :=
  (observe Service.sampleLibs (fun _ => false)
    (reset "e1" "mqtt" true Service.sampleNow) (charge none (some (.fin 50)))
      Service.sampleNow).processor

/-- A warning that the full queue rejects. -/
def rejected : Native where
  id := "alarm-1"
  source := "victron"
  level := "warning"
  title := "Low battery"
  body := ""
  timestamp := Service.sampleNow

theorem reachable_charged :
    Transition.Reachable (call Service.sampleLibs) Sampled Init charged := by
  refine .next (e := .observe (fun _ => false) (charge none (some (.fin 50))) Service.sampleNow)
    (.next (e := .reset (some "e1") "mqtt" true Service.sampleNow) (.start rfl) trivial rfl)
    (fun σ hσ => ?_) rfl
  rw [List.mem_singleton.mp hσ]
  decide

theorem cleared_observe_iff_rejected :
    (charge (some [rejected]) (some (.fin 40))).Cleared charged
      (observe Service.sampleLibs (fun _ => true) charged
        (charge (some [rejected]) (some (.fin 40))) Service.sampleNow).processor := by
  refine (cleared_observe_iff reachable_charged (fun _ => true)
    (fun σ hσ => by rw [List.mem_singleton.mp hσ]; decide) Service.sampleNow).mpr
    fun _ n hn τ hτ hheld => ?_
  have hzero : stopped (fun _ => true) charged (charge (some [rejected]) (some (.fin 40)))
      Service.sampleNow = some 0 := by decide
  obtain rfl := Option.some.inj (hzero.symm.trans hn)
  have hkey : τ.key = (⟨"soc", "battery/1", some (.fin 40)⟩ : Sample).key := by
    by_contra hne
    exact hheld (if_neg fun hmem => hne (List.mem_singleton.mp hmem))
  have hkind : τ.kind = "soc" := (key_inj hτ (by decide) hkey).1
  unfold Observation.Keeps
  rw [hkind]
  exact ⟨hkey.symm, rfl⟩

/-- The warning before a sample without a value cannot be queued, and the old baseline stays. -/
theorem not_cleared_rejected :
    ¬ ∀ p : Processor, Transition.Reachable (call Service.sampleLibs) Sampled Init p →
      ∀ (fails : ℕ → Bool) (ob : Observation), (∀ σ ∈ ob.samples, σ.kind ∈ sampleKinds) →
        ∀ now : Instant,
          ob.Cleared p (observe Service.sampleLibs fails p ob now).processor := by
  intro h
  have hcleared := h charged reachable_charged (fun _ => true) (charge (some [rejected]) none)
    (fun σ hσ => by rw [List.mem_singleton.mp hσ]; decide) Service.sampleNow
  have hgone := hcleared.dead [] ⟨"soc", "battery/1", none⟩ [] rfl rfl (List.forall_mem_nil _)
  have hstays : ((observe Service.sampleLibs (fun _ => true) charged (charge (some [rejected]) none)
      Service.sampleNow).processor.baseline "soc:battery/1").isSome = true := by decide
  have hkey : Sample.key ⟨"soc", "battery/1", none⟩ = "soc:battery/1" := by decide
  rw [hkey] at hgone
  rw [hgone] at hstays
  cases hstays

end Processor

end Push
