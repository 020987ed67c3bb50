import InverterDashboard.Push.Synthetic

set_option relaxedAutoImplicit false
set_option autoImplicit false

/-!
# Baselines

What the processor's maps hold between observations: only the device of the last sample of a kind
has a baseline. Samples without a live value take baselines away.

## Main definitions

* `Push.sampleKinds` — the kinds of samples.
* `Push.Processor.Holds` — only the device of the last sample of a kind has a baseline.

## Main results

* `Push.Processor.Holds.observe` — an observation keeps the baselines in order.
* `Push.Processor.Holds.baseline_observe_iff` — what invalidations leave of a baseline.
-/

namespace Push

/-! ## Baselines -/

/-- The kinds of samples. -/
def sampleKinds : List String := ["pump", "valve", "ev", "soc"]

theorem colon_notMem_of_mem_sampleKinds {kind : String} (h : kind ∈ sampleKinds) :
    ':' ∉ kind.toList := by
  simp only [sampleKinds, List.mem_cons, List.not_mem_nil, or_false] at h
  rcases h with rfl | rfl | rfl | rfl <;> decide

/-- The key of a baseline names its kind and its device. -/
theorem key_inj {kind kind' id id' : String} (hkind : kind ∈ sampleKinds)
    (hkind' : kind' ∈ sampleKinds) (h : kind ++ ":" ++ id = kind' ++ ":" ++ id') :
    kind = kind' ∧ id = id' := by
  have htext : ∀ a b : String, (a ++ ":" ++ b).toList = a.toList ++ ':' :: b.toList := by
    intro a b
    have hcolon : ":".toList = [':'] := by decide
    rw [String.toList_append, String.toList_append, hcolon, List.append_assoc,
      List.singleton_append]
  have htake : ∀ a b : String, ':' ∉ a.toList →
      (a ++ ":" ++ b).toList.takeWhile (· != ':') = a.toList := by
    intro a b ha
    have hall : ∀ x ∈ a.toList, (x != ':') = true := by
      intro x hx
      exact bne_iff_ne.mpr fun hc => ha (hc ▸ hx)
    rw [htext, List.takeWhile_append_of_pos hall]
    simp
  have hsame : kind = kind' := by
    rw [← String.toList_inj, ← htake kind id (colon_notMem_of_mem_sampleKinds hkind), h,
      htake kind' id' (colon_notMem_of_mem_sampleKinds hkind')]
  subst hsame
  have hl := congrArg String.toList h
  rw [htext, htext, List.append_cancel_left_eq] at hl
  exact ⟨rfl, String.toList_inj.mp (List.cons.inj hl).2⟩

namespace Processor

/-- Only the device of the last sample of a kind has a baseline, a selected key is one of its kind,
and a disconnected processor has no baseline. -/
structure Holds (p : Processor) : Prop where
  named : ∀ kind ∈ sampleKinds, ∀ key, p.selected kind = some key → ∃ id, key = kind ++ ":" ++ id
  selected : ∀ σ : Sample, σ.kind ∈ sampleKinds → p.baseline σ.key ≠ none →
    p.selected σ.kind = some σ.key
  connected : p.connected = false → ∀ key, p.baseline key = none

theorem holds_new : Holds {} :=
  ⟨fun _ _ _ h => (by cases h), fun _ _ h => absurd rfl h, fun _ _ => rfl⟩

theorem holds_reset (epoch source : String) (connected : Bool) (now : Instant) :
    Holds (reset epoch source connected now) :=
  ⟨fun _ _ _ h => (by cases h), fun _ _ h => absurd rfl h, fun _ _ => rfl⟩

/-- What the baselines know does not depend on the other members. -/
theorem Holds.of_same {p p' : Processor} (h : p.Holds) (hs : SameSamples p p') : p'.Holds := by
  refine ⟨fun kind hkind key hsel => ?_, fun σ hσ hb => ?_, fun hc key => ?_⟩
  · exact h.named kind hkind key (by rwa [hs.selected] at hsel)
  · rw [hs.selected]
    exact h.selected σ hσ (by rwa [hs.baseline] at hb)
  · rw [hs.baseline]
    exact h.connected (hs.connected.symm.trans hc) key

/-- A sample leaves its own baseline, and drops that of another device of its kind. -/
theorem Holds.after {p : Processor} (h : p.Holds) (hconn : p.connected = true) (retained : Bool)
    (now : Instant) {σ : Sample} (hσ : σ.kind ∈ sampleKinds) : (p.after retained now σ).Holds := by
  refine ⟨fun kind hkind key hsel => ?_, fun τ hτ hb => ?_, fun hc => ?_⟩
  · by_cases hsame : kind = σ.kind
    · subst hsame
      have hself : (p.after retained now σ).selected σ.kind = some σ.key := Function.update_self ..
      rw [hself] at hsel
      exact ⟨σ.id, (Option.some.inj hsel).symm⟩
    · have hother : (p.after retained now σ).selected kind = p.selected kind :=
        Function.update_of_ne hsame _ _
      exact h.named kind hkind key (hother ▸ hsel)
  · by_cases hkind : τ.kind = σ.kind
    · have hsel : (p.after retained now σ).selected τ.kind = some σ.key := by
        rw [hkind]
        exact Function.update_self ..
      rw [hsel]
      by_cases hkey : τ.key = σ.key
      · rw [hkey]
      · exfalso
        have hbase : (p.after retained now σ).baseline τ.key = (p.select σ).baseline τ.key :=
          Function.update_of_ne hkey _ _
        rw [hbase] at hb
        have hold : p.baseline τ.key ≠ none := fun hnil => hb (select_baseline_eq_none hnil)
        have hsel' := h.selected τ hτ hold
        rw [hkind] at hsel'
        apply hb
        unfold select
        rw [hsel']
        dsimp only
        rw [if_pos hkey, Function.update_self]
    · have hkey : τ.key ≠ σ.key := fun hk => hkind (key_inj hτ hσ hk).1
      have hsel : (p.after retained now σ).selected τ.kind = p.selected τ.kind :=
        Function.update_of_ne hkind _ _
      have hbase : (p.after retained now σ).baseline τ.key = (p.select σ).baseline τ.key :=
        Function.update_of_ne hkey _ _
      rw [hbase] at hb
      rw [hsel]
      exact h.selected τ hτ fun hnil => hb (select_baseline_eq_none hnil)
  · have hconn' : (p.after retained now σ).connected = p.connected := rfl
    rw [hconn', hconn] at hc
    cases hc

/-- Samples keep the baselines in order, whether or not a call fails. -/
theorem Holds.samples {p : Processor} (h : p.Holds) (hconn : p.connected = true) (L : Libs)
    (fails : ℕ → Bool) (retained : Bool) (now : Instant) (i : ℕ) {σs : List Sample}
    (hσs : ∀ σ ∈ σs, σ.kind ∈ sampleKinds) (calls : List Request) :
    (samples L fails retained now i σs p calls).processor.Holds ∧
      (samples L fails retained now i σs p calls).processor.connected = true := by
  induction σs generalizing p i calls with
  | nil => exact ⟨h, hconn⟩
  | cons σ σs ih =>
    have hafter := h.after hconn retained now (hσs σ List.mem_cons_self)
    have hrest : ∀ τ ∈ σs, τ.kind ∈ sampleKinds := fun τ hτ => hσs τ (List.mem_cons_of_mem _ hτ)
    rw [samples_cons]
    cases p.eventOf retained now σ with
    | none => exact ih hafter hconn (i + 1) hrest calls
    | some note =>
      dsimp only
      split_ifs
      · exact ⟨hafter, hconn⟩
      · exact ih hafter hconn (i + 1) hrest _

/-- **An observation** keeps the baselines in order. -/
theorem Holds.observe {p : Processor} (h : p.Holds) (L : Libs) (fails : ℕ → Bool) {ob : Observation}
    (hob : ∀ σ ∈ ob.samples, σ.kind ∈ sampleKinds) (now : Instant) :
    (observe L fails p ob now).processor.Holds := by
  unfold Processor.observe
  cases hconn : p.connected with
  | false => exact h
  | true =>
    obtain ⟨hsame, -⟩ := observeNatives_frame L fails p ob now
    have hfirst := h.of_same hsame
    have hconn' := hsame.connected.trans hconn
    simp only [Bool.not_true, Bool.false_eq_true, if_false]
    split_ifs with h₁ h₂
    · obtain ⟨hs, hc⟩ := hfirst.samples hconn' L fails ob.retained now 0 hob
        (observeNatives L fails p ob now).calls
      unfold sweep
      split_ifs
      · refine ⟨hs.named, fun σ hσ hb => hs.selected σ hσ fun hnil => hb ?_, fun hc' => ?_⟩
        · show (if σ.key ∈ ob.samples.map Sample.key then _ else none) = none
          rw [hnil]
          split_ifs <;> rfl
        · exact absurd (hc.symm.trans hc') (by decide)
      · exact hs
    · exact (hfirst.samples hconn' L fails ob.retained now 0 hob _).1
    · exact hfirst

/-! ## Invalidations -/

/-- A sample leaves its own baseline, takes away those of other devices of its kind, and leaves
those of other kinds. -/
theorem Holds.baseline_after {p : Processor} (h : p.Holds) (retained : Bool) (now : Instant)
    {σ τ : Sample} (hσ : σ.kind ∈ sampleKinds) (hτ : τ.kind ∈ sampleKinds) :
    (p.after retained now σ).baseline τ.key =
      if τ.kind = σ.kind then
        if τ.key = σ.key then (liveValue retained σ).map fun v => ⟨v, now⟩ else none
      else p.baseline τ.key := by
  by_cases hkey : τ.key = σ.key
  · have hkind := (key_inj hτ hσ hkey).1
    rw [if_pos hkind, if_pos hkey, hkey]
    exact Function.update_self ..
  · have hbase : (p.after retained now σ).baseline τ.key = (p.select σ).baseline τ.key :=
      Function.update_of_ne hkey _ _
    rw [hbase]
    by_cases hkind : τ.kind = σ.kind
    · rw [if_pos hkind, if_neg hkey]
      by_contra hb
      have hold : p.baseline τ.key ≠ none := fun hnil => hb (select_baseline_eq_none hnil)
      have hsel := h.selected τ hτ hold
      rw [hkind] at hsel
      apply hb
      unfold select
      rw [hsel]
      dsimp only
      rw [if_pos hkey, Function.update_self]
    · rw [if_neg hkind, select_baseline_of_ne]
      intro old hold hne hsame
      obtain ⟨id, hid⟩ := h.named σ.kind hσ old hold
      exact hkind (key_inj hσ hτ (hid.symm.trans hsame)).1.symm

/-- A sample without a live value leaves a baseline of another kind, and none of its own. -/
theorem Holds.baseline_after_iff {p : Processor} (h : p.Holds) {retained : Bool} {now : Instant}
    {σ τ : Sample} (hσ : σ.kind ∈ sampleKinds) (hτ : τ.kind ∈ sampleKinds)
    (hdead : liveValue retained σ = none) :
    (p.after retained now σ).baseline τ.key = none ↔ p.baseline τ.key = none ∨ σ.kind = τ.kind := by
  rw [h.baseline_after retained now hσ hτ, hdead]
  by_cases hkind : τ.kind = σ.kind
  · simp [hkind]
  · simp [hkind, Ne.symm hkind]

/-- Samples without live values make no calls, and each takes the baseline of its kind away. -/
theorem Holds.baseline_samples_iff {p : Processor} (h : p.Holds) (hconn : p.connected = true)
    (L : Libs) (fails : ℕ → Bool) {retained : Bool} (now : Instant) (i : ℕ) {σs : List Sample}
    (hσs : ∀ σ ∈ σs, σ.kind ∈ sampleKinds ∧ liveValue retained σ = none) (calls : List Request)
    {τ : Sample} (hτ : τ.kind ∈ sampleKinds) :
    (Processor.samples L fails retained now i σs p calls).ok = true ∧
      ((Processor.samples L fails retained now i σs p calls).processor.baseline τ.key = none ↔
        p.baseline τ.key = none ∨ ∃ σ ∈ σs, σ.kind = τ.kind) := by
  induction σs generalizing p i with
  | nil => simp [Processor.samples]
  | cons σ σs ih =>
    obtain ⟨hkind, hdead⟩ := hσs σ List.mem_cons_self
    have hevent : p.eventOf retained now σ = none := by
      unfold eventOf
      rw [hdead]
      rfl
    obtain ⟨hok, hiff⟩ := ih (h.after hconn retained now hkind) hconn (i + 1)
      fun τ hτ => hσs τ (List.mem_cons_of_mem _ hτ)
    rw [samples_cons, hevent]
    refine ⟨hok, hiff.trans ?_⟩
    rw [h.baseline_after_iff hkind hτ hdead, or_assoc, List.exists_mem_cons_iff]

/-- **Invalidations.** An observation of samples without live values takes a baseline away exactly
if one of them is of its kind. -/
theorem Holds.baseline_observe_iff {p : Processor} (h : p.Holds) (L : Libs) (fails : ℕ → Bool)
    {ob : Observation} (hnotifications : ob.notifications = none) (hcomplete : ob.complete = false)
    (hob : ∀ σ ∈ ob.samples, σ.kind ∈ sampleKinds ∧ liveValue ob.retained σ = none) (now : Instant)
    {τ : Sample} (hτ : τ.kind ∈ sampleKinds) :
    (Processor.observe L fails p ob now).processor.baseline τ.key = none ↔
      p.baseline τ.key = none ∨ ∃ σ ∈ ob.samples, σ.kind = τ.kind := by
  have hnatives : observeNatives L fails p ob now = { processor := p } := by
    unfold observeNatives
    rw [hnotifications]
  unfold Processor.observe
  cases hconn : p.connected with
  | false => exact iff_of_true (h.connected hconn τ.key) (Or.inl (h.connected hconn τ.key))
  | true =>
    obtain ⟨hok, hiff⟩ := h.baseline_samples_iff hconn L fails now 0 hob [] hτ
    simp only [Bool.not_true, Bool.false_eq_true, if_false, hnatives, if_true]
    rw [if_pos hok]
    unfold sweep
    rw [hcomplete]
    exact hiff

/-- A device without a live sample gets no baseline. -/
theorem baseline_samples_eq_none (L : Libs) (fails : ℕ → Bool) (retained : Bool) (now : Instant)
    (i : ℕ) {σs : List Sample} {p : Processor} (calls : List Request) {key : String}
    (hdead : ∀ σ ∈ σs, σ.key = key → liveValue retained σ = none) (h : p.baseline key = none) :
    (samples L fails retained now i σs p calls).processor.baseline key = none := by
  induction σs generalizing p i calls with
  | nil => exact h
  | cons σ σs ih =>
    have hafter : (p.after retained now σ).baseline key = none := by
      unfold after record
      by_cases hkey : key = σ.key
      · rw [hkey, hdead σ List.mem_cons_self hkey.symm]
        exact Function.update_self ..
      · have hne := Function.update_of_ne hkey
          ((liveValue retained σ).map fun v => (⟨v, now⟩ : Baseline)) (p.select σ).baseline
        exact hne.trans (select_baseline_eq_none h)
    have hrest : ∀ τ ∈ σs, τ.key = key → liveValue retained τ = none :=
      fun τ hτ => hdead τ (List.mem_cons_of_mem _ hτ)
    rw [samples_cons]
    cases p.eventOf retained now σ with
    | none => exact ih (i + 1) calls hrest hafter
    | some note =>
      dsimp only
      split_ifs
      · exact hafter
      · exact ih (i + 1) _ hrest hafter

/-- An observation without a live sample of a device gives it no baseline. -/
theorem baseline_observe_eq_none (L : Libs) (fails : ℕ → Bool) {p : Processor} {ob : Observation}
    (now : Instant) {key : String}
    (hdead : ∀ σ ∈ ob.samples, σ.key = key → liveValue ob.retained σ = none)
    (h : p.baseline key = none) : (observe L fails p ob now).processor.baseline key = none := by
  unfold Processor.observe
  obtain ⟨hsame, -⟩ := observeNatives_frame L fails p ob now
  have hfirst : (observeNatives L fails p ob now).processor.baseline key = none := by
    rw [hsame.baseline]
    exact h
  have hsamples := baseline_samples_eq_none L fails ob.retained now 0
    (observeNatives L fails p ob now).calls hdead hfirst
  cases p.connected with
  | false => exact h
  | true =>
    simp only [Bool.not_true, Bool.false_eq_true, if_false]
    split_ifs
    · unfold sweep
      split_ifs
      · show (if key ∈ ob.samples.map Sample.key then _ else none) = none
        rw [hsamples]
        split_ifs <;> rfl
      · exact hsamples
    · exact hsamples
    · exact hfirst

end Processor

end Push
