import InverterDashboard.Lib.Transition
import InverterDashboard.Push.Durable
import InverterDashboard.Push.Processor

set_option relaxedAutoImplicit false
set_option autoImplicit false

/-!
# Synthetic events

When two samples in a row of one kind make an event, said in terms of the observations since the
last reset and without the processor's maps. The baseline of a sample is found again from the
history: the last sample of its kind, if it was one of the same device, live and finite, and no
complete observation since then has omitted it.

The maps are keyed by the kind and the identifier joined with a colon. Two kinds of which one
contains a colon may share a key, and then the later sample of one kind is taken for the previous
sample of the other.

## Main definitions

* `Push.prior`, `Push.priorAt` — the previous sample of a kind.
* `Push.Crosses` — the sample at a position makes an event.
* `Push.Processing` — a processor and the observations since its last reset.

## Main results

* `Push.Tracks`, `Push.tracks_step` — what the maps know of the history.
* `Push.Processing.synthetic_iff` — an event is handed over exactly when the history says so.
-/

namespace Push

open Go (F64)

/-! ## The history's view -/

/-- The last sample of a kind. -/
def lastOf (kind : String) (l : List Sample) : Option Sample :=
  (l.filter fun σ => σ.kind = kind).getLast?

/-- A sample of the past, how and when it was observed, and the observations since then. -/
structure Prior where
  sample : Sample
  retained : Bool
  at_ : Instant
  between : List Observation

/-- The previous sample of a kind in the observations of the past, latest first. -/
def prior (kind : String) : List (Observation × Instant) → Option Prior
  | [] => none
  | (o, t) :: past =>
    match lastOf kind o.samples with
    | some σ => some ⟨σ, o.retained, t, []⟩
    | none => (prior kind past).map fun q => { q with between := o :: q.between }

/-- The previous sample of a kind, seen from position `i` of an observation. -/
def priorAt (past : List (Observation × Instant)) (ob : Observation) (now : Instant) (i : ℕ)
    (kind : String) : Option Prior :=
  match lastOf kind (ob.samples.take i) with
  | some σ => some ⟨σ, ob.retained, now, []⟩
  | none => prior kind past

/-- A complete observation without a sample of this kind and device. -/
def Observation.omits (o : Observation) (kind id : String) : Bool :=
  o.complete && !(o.samples.any fun τ => decide (τ.kind = kind ∧ τ.id = id))

/-- The sample at position `i` makes an event: the observation is live and its value finite; the
previous sample of its kind was one of the same device, live and finite, at most 30 s old and not in
the future, no complete observation in between has omitted it, and the two values cross the kind's
threshold. -/
def Crosses (past : List (Observation × Instant)) (ob : Observation) (now : Instant) (i : ℕ) :
    Prop :=
  ∃ (σ : Sample) (after before : ℚ) (q : Prior), ob.samples[i]? = some σ ∧ ob.retained = false ∧
    σ.value = some (.fin after) ∧ priorAt past ob now i σ.kind = some q ∧ q.sample.id = σ.id ∧
    q.retained = false ∧ q.sample.value = some (.fin before) ∧
    0 ≤ now - q.at_ ∧ now - q.at_ ≤ seconds 30 ∧
    (∀ o ∈ q.between, o.omits σ.kind σ.id = false) ∧ Threshold σ.kind before after

/-- No sample of another kind in these observations has the key of this one. -/
def Unambiguous (past : List (Observation × Instant)) (σ : Sample) : Prop :=
  ∀ e ∈ past, ∀ τ ∈ e.1.samples, τ.key = σ.key → τ.kind = σ.kind

/-! ## The baseline the history determines -/

/-- The baseline of a device, from the previous sample of its kind. -/
def baselineOf (q : Option Prior) (kind id : String) : Option Baseline :=
  q.bind fun q =>
    if q.sample.id = id ∧ ∀ o ∈ q.between, o.omits kind id = false then
      (Processor.liveValue q.retained q.sample).map fun v => ⟨v, q.at_⟩
    else none

section Prior

variable {kind id : String} {o : Observation} {t : Instant} {past : List (Observation × Instant)}

theorem lastOf_mem {l : List Sample} {σ : Sample} (h : lastOf kind l = some σ) :
    σ ∈ l ∧ σ.kind = kind := by
  have hmem := List.mem_of_getLast? h
  simpa using List.mem_filter.mp hmem

theorem lastOf_eq_none {l : List Sample} (h : lastOf kind l = none) : ∀ τ ∈ l, τ.kind ≠ kind := by
  intro τ hτ hkind
  have hnil := List.getLast?_eq_none_iff.mp h
  have hmem : τ ∈ l.filter fun σ => σ.kind = kind := List.mem_filter.mpr ⟨hτ, by simpa using hkind⟩
  rw [hnil] at hmem
  exact absurd hmem (by simp)

theorem lastOf_append_self (l : List Sample) (σ : Sample) : lastOf σ.kind (l ++ [σ]) = some σ := by
  simp [lastOf, List.filter_append]

theorem lastOf_append_ne (l : List Sample) {σ : Sample} (h : kind ≠ σ.kind) :
    lastOf kind (l ++ [σ]) = lastOf kind l := by
  simp [lastOf, List.filter_append, h.symm]

theorem prior_cons_some {σ : Sample} (h : lastOf kind o.samples = some σ) :
    prior kind ((o, t) :: past) = some ⟨σ, o.retained, t, []⟩ := by
  rw [prior, h]

theorem prior_cons_none (h : lastOf kind o.samples = none) :
    prior kind ((o, t) :: past) =
      (prior kind past).map fun q => { q with between := o :: q.between } := by
  rw [prior, h]

/-- The key of the previous sample does not depend on the observations in between. -/
theorem priorKey_cons_none (h : lastOf kind o.samples = none) :
    (prior kind ((o, t) :: past)).map (fun q => q.sample.key) =
      (prior kind past).map fun q => q.sample.key := by
  rw [prior_cons_none h, Option.map_map]
  rfl

theorem baselineOf_cons_some {σ : Sample} (h : lastOf kind o.samples = some σ) :
    baselineOf (prior kind ((o, t) :: past)) kind id =
      if σ.id = id then (Processor.liveValue o.retained σ).map fun v => ⟨v, t⟩ else none := by
  rw [prior_cons_some h]
  simp [baselineOf]

/-- An observation without a sample of the kind only matters when it omits the device. -/
theorem baselineOf_cons_none (h : lastOf kind o.samples = none) :
    baselineOf (prior kind ((o, t) :: past)) kind id =
      if o.omits kind id then none else baselineOf (prior kind past) kind id := by
  rw [prior_cons_none h]
  cases prior kind past with
  | none => simp [baselineOf]
  | some q =>
    by_cases homit : o.omits kind id = true
    · simp [baselineOf, homit]
    · have homit : o.omits kind id = false := by simpa using homit
      simp [baselineOf, homit]

/-- The previous sample of a kind is of that kind, and one of the history. -/
theorem prior_spec {q : Prior} (h : prior kind past = some q) :
    q.sample.kind = kind ∧ ∃ e ∈ past, q.sample ∈ e.1.samples := by
  induction past generalizing q with
  | nil => simp [prior] at h
  | cons e past ih =>
    obtain ⟨o, t⟩ := e
    cases hlast : lastOf kind o.samples with
    | some σ =>
      rw [prior_cons_some hlast] at h
      obtain rfl := Option.some.inj h
      obtain ⟨hmem, hkind⟩ := lastOf_mem hlast
      exact ⟨hkind, (o, t), List.mem_cons_self, hmem⟩
    | none =>
      rw [prior_cons_none hlast] at h
      obtain ⟨q', hq', rfl⟩ := Option.map_eq_some_iff.mp h
      obtain ⟨hkind, e, he, hmem⟩ := ih hq'
      exact ⟨hkind, e, List.mem_cons_of_mem _ he, hmem⟩

end Prior

/-- The first samples of an observation, as an observation that omits nothing. -/
def part (ob : Observation) (done : List Sample) : Observation :=
  { ob with samples := done, complete := false }

@[simp] theorem part_omits (ob : Observation) (done : List Sample) (kind id : String) :
    (part ob done).omits kind id = false := rfl

theorem baselineOf_priorAt (past : List (Observation × Instant)) (ob : Observation) (now : Instant)
    (i : ℕ) (kind id : String) :
    baselineOf (prior kind ((part ob (ob.samples.take i), now) :: past)) kind id =
      baselineOf (priorAt past ob now i kind) kind id := by
  unfold priorAt
  cases hlast : lastOf kind (ob.samples.take i) with
  | some σ =>
    rw [prior_cons_some hlast]
    rfl
  | none =>
    rw [baselineOf_cons_none hlast]
    rfl

/-! ## What the maps know of the history -/

theorem Sample.key_inj {σ τ : Sample} (hkind : σ.kind = τ.kind) (hkey : σ.key = τ.key) :
    σ.id = τ.id := by
  unfold Sample.key at hkey
  rw [hkind] at hkey
  exact (String.append_right_inj _).mp hkey

theorem Sample.key_congr {σ τ : Sample} (hkind : σ.kind = τ.kind) (hid : σ.id = τ.id) :
    σ.key = τ.key := by
  unfold Sample.key
  rw [hkind, hid]

/-- The selected key of a kind is that of its last sample, and the baseline of a device is the one
the history determines, unless another kind shares its key. -/
structure Tracks (p : Processor) (past : List (Observation × Instant)) : Prop where
  selected : ∀ kind, p.selected kind = (prior kind past).map fun q => q.sample.key
  baseline : ∀ σ : Sample, Unambiguous past σ →
    p.baseline σ.key = baselineOf (prior σ.kind past) σ.kind σ.id

theorem Tracks.reset (epoch source : String) (connected : Bool) (now : Instant) :
    Tracks (Processor.reset epoch source connected now) [] :=
  ⟨fun _ => rfl, fun _ _ => rfl⟩

/-- What the maps know does not depend on the other members. -/
theorem Tracks.of_same {p p' : Processor} {past : List (Observation × Instant)} (h : Tracks p past)
    (hsame : Processor.SameSamples p p') : Tracks p' past := by
  refine ⟨fun kind => ?_, fun σ hσ => ?_⟩
  · rw [hsame.selected]
    exact h.selected kind
  · rw [hsame.baseline]
    exact h.baseline σ hσ

/-- An observation that has just begun. -/
theorem Tracks.begin {p : Processor} {past : List (Observation × Instant)} (h : Tracks p past)
    (ob : Observation) (now : Instant) : Tracks p ((part ob [], now) :: past) := by
  have hnone : ∀ kind, lastOf kind (part ob []).samples = none := fun _ => rfl
  refine ⟨fun kind => ?_, fun σ hσ => ?_⟩
  · rw [priorKey_cons_none (hnone kind)]
    exact h.selected kind
  · rw [baselineOf_cons_none (hnone σ.kind), part_omits]
    exact h.baseline σ fun e he => hσ e (List.mem_cons_of_mem _ he)

/-- Only the device of the last sample of a kind has a baseline. -/
theorem Tracks.baseline_eq_none {p : Processor} {past : List (Observation × Instant)}
    (h : Tracks p past) {τ : Sample} (hτ : Unambiguous past τ)
    (hsel : p.selected τ.kind ≠ some τ.key) : p.baseline τ.key = none := by
  rw [h.baseline τ hτ]
  cases hq : prior τ.kind past with
  | none => rfl
  | some q =>
    have hkey : q.sample.key ≠ τ.key := by
      intro hkey
      apply hsel
      rw [h.selected, hq, ← hkey]
      rfl
    have hid : q.sample.id ≠ τ.id := fun hid => hkey (Sample.key_congr (prior_spec hq).1 hid)
    simp [baselineOf, hid]

/-- A selected key of another kind is not the key of a sample that no other kind shares. -/
theorem Tracks.selected_ne {p : Processor} {past : List (Observation × Instant)} (h : Tracks p past)
    {τ : Sample} (hτ : Unambiguous past τ) {kind key : String} (hkind : kind ≠ τ.kind)
    (hsel : p.selected kind = some key) : key ≠ τ.key := by
  rintro rfl
  rw [h.selected] at hsel
  obtain ⟨q, hq, hkey⟩ := Option.map_eq_some_iff.mp hsel
  obtain ⟨hqkind, e, he, hmem⟩ := prior_spec hq
  exact hkind (hqkind.symm.trans (hτ e he q.sample hmem hkey))

/-- The baselines that stay when a sample is selected. -/
theorem select_baseline_of_ne {p : Processor} {σ : Sample} {key : String}
    (h : ∀ old, p.selected σ.kind = some old → old ≠ σ.key → old ≠ key) :
    (p.select σ).baseline key = p.baseline key := by
  unfold Processor.select
  dsimp only
  cases hsel : p.selected σ.kind with
  | none => rfl
  | some old =>
    dsimp only
    split_ifs with hne
    · exact Function.update_of_ne (h old hsel hne).symm _ _
    · rfl

/-- Selecting a sample only takes baselines away. -/
theorem select_baseline_eq_none {p : Processor} {σ : Sample} {key : String}
    (h : p.baseline key = none) : (p.select σ).baseline key = none := by
  unfold Processor.select
  dsimp only
  cases p.selected σ.kind with
  | none => exact h
  | some old =>
    dsimp only
    split_ifs
    · by_cases hkey : key = old
      · rw [hkey]
        exact Function.update_self _ _ _
      · rw [Function.update_of_ne hkey]
        exact h
    · exact h

section After

variable {p : Processor} {ob : Observation} {now : Instant} {done : List Sample}
  {past : List (Observation × Instant)}

/-- The baseline a sample meets is the one the history determines. -/
theorem Tracks.select_baseline (h : Tracks p ((part ob done, now) :: past)) {σ : Sample}
    (hσ : Unambiguous ((part ob done, now) :: past) σ) :
    (p.select σ).baseline σ.key =
      baselineOf (prior σ.kind ((part ob done, now) :: past)) σ.kind σ.id := by
  rw [select_baseline_of_ne fun old _ hne => hne]
  exact h.baseline σ hσ

/-- The history of a sample that came later was unambiguous before. -/
theorem Unambiguous.of_append {σ τ : Sample}
    (h : Unambiguous ((part ob (done ++ [σ]), now) :: past) τ) :
    Unambiguous ((part ob done, now) :: past) τ ∧ (σ.key = τ.key → σ.kind = τ.kind) := by
  refine ⟨?_, h _ List.mem_cons_self σ (List.mem_append_right _ List.mem_cons_self)⟩
  intro e he
  rcases List.mem_cons.mp he with rfl | he
  · exact fun ρ hρ => h _ List.mem_cons_self ρ (List.mem_append_left _ hρ)
  · exact h e (List.mem_cons_of_mem _ he)

/-- **One sample** keeps the maps in step with the history.

**Proof sketch.** The selected key is the sample's own. The baseline of the sample's device becomes
the sample; every other device of its kind has none, before or after. The devices of other kinds
keep theirs: neither the sample's key nor the key it replaces is one of theirs. -/
theorem Tracks.after (h : Tracks p ((part ob done, now) :: past)) (σ : Sample) :
    Tracks (p.after ob.retained now σ) ((part ob (done ++ [σ]), now) :: past) := by
  refine ⟨fun kind => ?_, fun τ hτ => ?_⟩
  · show (Function.update p.selected σ.kind (some σ.key)) kind = _
    by_cases hkind : kind = σ.kind
    · subst hkind
      rw [Function.update_self, prior_cons_some (lastOf_append_self done σ)]
      rfl
    · rw [Function.update_of_ne hkind, h.selected]
      have hlast : lastOf kind (part ob (done ++ [σ])).samples =
          lastOf kind (part ob done).samples :=
        lastOf_append_ne done hkind
      cases hl : lastOf kind (part ob done).samples with
      | some ρ =>
        rw [prior_cons_some hl, prior_cons_some (hlast.trans hl)]
        rfl
      | none => rw [priorKey_cons_none hl, priorKey_cons_none (hlast.trans hl)]
  · obtain ⟨hold, hkinds⟩ := hτ.of_append
    show Function.update (p.select σ).baseline σ.key _ τ.key = _
    by_cases hkind : τ.kind = σ.kind
    · rw [hkind, baselineOf_cons_some (lastOf_append_self done σ)]
      by_cases hid : σ.id = τ.id
      · rw [if_pos hid, Sample.key_congr hkind hid.symm, Function.update_self]
        rfl
      · have hkey : τ.key ≠ σ.key := fun hkey => hid (Sample.key_inj hkind.symm hkey.symm)
        rw [if_neg hid, Function.update_of_ne hkey]
        by_cases hsel : p.selected σ.kind = some τ.key
        · unfold Processor.select
          rw [hsel]
          dsimp only
          rw [if_pos hkey]
          exact Function.update_self _ _ _
        · rw [← hkind] at hsel
          exact select_baseline_eq_none (h.baseline_eq_none hold hsel)
    · have hkey : τ.key ≠ σ.key := fun hkey => hkind (hkinds hkey.symm).symm
      rw [Function.update_of_ne hkey,
        select_baseline_of_ne fun old hsel _ => h.selected_ne hold (Ne.symm hkind) hsel,
        h.baseline τ hold]
      have hlast : lastOf τ.kind (part ob (done ++ [σ])).samples =
          lastOf τ.kind (part ob done).samples := lastOf_append_ne done hkind
      cases hl : lastOf τ.kind (part ob done).samples with
      | some ρ =>
        rw [baselineOf_cons_some hl, baselineOf_cons_some (hlast.trans hl)]
        rfl
      | none =>
        rw [baselineOf_cons_none hl, baselineOf_cons_none (hlast.trans hl)]
        rfl

/-- **The sweep** after the last sample. -/
theorem Tracks.sweep (h : Tracks p ((part ob ob.samples, now) :: past)) :
    Tracks (p.sweep ob) ((ob, now) :: past) := by
  have hselected : (p.sweep ob).selected = p.selected := by
    unfold Processor.sweep
    split_ifs <;> rfl
  refine ⟨fun kind => ?_, fun σ hσ => ?_⟩
  · rw [hselected, h.selected]
    cases hl : lastOf kind ob.samples with
    | some ρ =>
      rw [prior_cons_some hl,
        prior_cons_some (show lastOf kind (part ob ob.samples).samples = _ from hl)]
      rfl
    | none =>
      rw [priorKey_cons_none hl,
        priorKey_cons_none (show lastOf kind (part ob ob.samples).samples = _ from hl)]
  · have hσ' : Unambiguous ((part ob ob.samples, now) :: past) σ := by
      intro e he
      rcases List.mem_cons.mp he with rfl | he
      · exact hσ (ob, now) List.mem_cons_self
      · exact hσ e (List.mem_cons_of_mem _ he)
    have hbase := h.baseline σ hσ'
    -- the key was seen exactly when a sample of this kind and device was
    have hseen : σ.key ∈ ob.samples.map Sample.key ↔
        ∃ τ ∈ ob.samples, τ.kind = σ.kind ∧ τ.id = σ.id := by
      constructor
      · intro hmem
        obtain ⟨τ, hτ, hkey⟩ := List.mem_map.mp hmem
        have hkind := hσ _ List.mem_cons_self τ hτ hkey
        exact ⟨τ, hτ, hkind, Sample.key_inj hkind hkey⟩
      · rintro ⟨τ, hτ, hkind, hid⟩
        exact List.mem_map.mpr ⟨τ, hτ, Sample.key_congr hkind hid⟩
    unfold Processor.sweep
    cases hl : lastOf σ.kind ob.samples with
    | some ρ =>
      have hpart : lastOf σ.kind (part ob ob.samples).samples = some ρ := hl
      rw [baselineOf_cons_some hpart] at hbase
      rw [baselineOf_cons_some hl]
      obtain ⟨hρ, hρkind⟩ := lastOf_mem hl
      split_ifs with hcomplete hid hid
      · dsimp only
        rw [if_pos (hseen.mpr ⟨ρ, hρ, hρkind, hid⟩), hbase, if_pos hid]
        rfl
      · dsimp only
        rw [hbase, if_neg hid, ite_self]
      · rw [hbase, if_pos hid]
        rfl
      · rw [hbase, if_neg hid]
    | none =>
      rw [baselineOf_cons_none (show lastOf σ.kind (part ob ob.samples).samples = _ from hl),
        part_omits] at hbase
      rw [baselineOf_cons_none hl]
      have hunseen : σ.key ∉ ob.samples.map Sample.key := by
        rw [hseen]
        rintro ⟨τ, hτ, hkind, -⟩
        exact lastOf_eq_none hl τ hτ hkind
      have homits : ob.omits σ.kind σ.id = ob.complete := by
        have hany : (ob.samples.any fun τ => decide (τ.kind = σ.kind ∧ τ.id = σ.id)) = false := by
          rw [List.any_eq_false]
          intro τ hτ
          have := lastOf_eq_none hl τ hτ
          simp [this]
        rw [Observation.omits, hany, Bool.not_false, Bool.and_true]
      rw [homits]
      split_ifs with hcomplete
      · dsimp only
        rw [if_neg hunseen]
      · rw [hbase]
        rfl

end After

/-! ## The events of an observation -/

/-- The event of the sample `σ` at position `i`, from the history. -/
def eventAt (past : List (Observation × Instant)) (ob : Observation) (now : Instant) (i : ℕ)
    (σ : Sample) : Option Note :=
  (Processor.liveValue ob.retained σ).bind fun v =>
    Processor.noteOf σ (baselineOf (priorAt past ob now i σ.kind) σ.kind σ.id) v now

theorem liveValue_eq_some {retained : Bool} {σ : Sample} {v : F64} :
    Processor.liveValue retained σ = some v ↔
      retained = false ∧ σ.value = some v ∧ ∃ q, v = .fin q := by
  unfold Processor.liveValue
  cases σ.value with
  | none => simp
  | some w =>
    cases retained with
    | true => simp
    | false =>
      cases w with
      | fin q =>
        simp only [F64.isFinite, Bool.not_true, Bool.or_false, Bool.false_eq_true, if_false,
          Option.some.injEq, true_and]
        exact ⟨fun h => ⟨h, q, h.symm⟩, fun h => h.1⟩
      | inf neg =>
        simp only [F64.isFinite, Bool.not_false, Bool.or_true, if_true, reduceCtorEq, true_and,
          Option.some.injEq, false_iff]
        rintro ⟨rfl, q, hq⟩
        exact absurd hq (by simp)
      | nan =>
        simp only [F64.isFinite, Bool.not_false, Bool.or_true, if_true, reduceCtorEq, true_and,
          Option.some.injEq, false_iff]
        rintro ⟨rfl, q, hq⟩
        exact absurd hq (by simp)

theorem baselineOf_eq_some {q : Option Prior} {kind id : String} {b : Baseline} :
    baselineOf q kind id = some b ↔
      ∃ r, q = some r ∧ r.sample.id = id ∧ (∀ o ∈ r.between, o.omits kind id = false) ∧
        r.retained = false ∧ r.sample.value = some b.value ∧ (∃ x, b.value = .fin x) ∧
        b.at_ = r.at_ := by
  unfold baselineOf
  cases q with
  | none => simp
  | some r =>
    simp only [Option.bind_some, Option.some.injEq, exists_eq_left']
    by_cases hc : r.sample.id = id ∧ ∀ o ∈ r.between, o.omits kind id = false
    · rw [if_pos hc, Option.map_eq_some_iff]
      constructor
      · rintro ⟨v, hv, rfl⟩
        obtain ⟨h₁, h₂, h₃⟩ := liveValue_eq_some.mp hv
        exact ⟨hc.1, hc.2, h₁, h₂, h₃, rfl⟩
      · rintro ⟨-, -, h₁, h₂, h₃, h₄⟩
        refine ⟨b.value, liveValue_eq_some.mpr ⟨h₁, h₂, h₃⟩, ?_⟩
        rw [← h₄]
    · rw [if_neg hc]
      simp only [reduceCtorEq, false_iff]
      rintro ⟨h₁, h₂, -⟩
      exact hc ⟨h₁, h₂⟩

theorem noteOf_isSome {σ : Sample} {previous : Option Baseline} {v : F64} {now : Instant} :
    (Processor.noteOf σ previous v now).isSome = true ↔
      ∃ b, previous = some b ∧ 0 ≤ now - b.at_ ∧ now - b.at_ ≤ seconds 30 ∧
        (transition σ.kind b.value v).isSome = true := by
  unfold Processor.noteOf
  cases previous with
  | none => simp
  | some b =>
    simp only [Option.some.injEq, exists_eq_left']
    by_cases hc : now - b.at_ > seconds 30 ∨ now < b.at_
    · rw [if_pos hc]
      simp only [Option.isSome_none, Bool.false_eq_true, false_iff]
      rintro ⟨h₁, h₂, -⟩
      rcases hc with hold | hfuture
      · exact not_lt.mpr h₂ hold
      · exact not_lt.mpr (sub_nonneg.mp h₁) hfuture
    · rw [if_neg hc]
      obtain ⟨h₁, h₂⟩ := not_or.mp hc
      constructor
      · intro h
        exact ⟨sub_nonneg.mpr (not_lt.mp h₂), not_lt.mp h₁, h⟩
      · rintro ⟨-, -, h⟩
        exact h

/-- The event from the history is the crossing of the threshold. -/
theorem eventAt_isSome {past : List (Observation × Instant)} {ob : Observation} {now : Instant}
    {i : ℕ} {σ : Sample} (hi : ob.samples[i]? = some σ) :
    (eventAt past ob now i σ).isSome = true ↔ Crosses past ob now i := by
  unfold eventAt
  constructor
  · intro h
    obtain ⟨note, hnote⟩ := Option.isSome_iff_exists.mp h
    obtain ⟨v, hv, hnote⟩ := Option.bind_eq_some_iff.mp hnote
    obtain ⟨hret, hval, after, rfl⟩ := liveValue_eq_some.mp hv
    obtain ⟨b, hb, hpast, hrecent, htrans⟩ :=
      noteOf_isSome.mp (Option.isSome_iff_exists.mpr ⟨_, hnote⟩)
    obtain ⟨q, hq, hid, hbetween, hqret, hqval, ⟨before, hbefore⟩, hat⟩ := baselineOf_eq_some.mp hb
    rw [hbefore] at hqval htrans
    rw [hat] at hpast hrecent
    exact ⟨σ, after, before, q, hi, hret, hval, hq, hid, hqret, hqval, hpast, hrecent, hbetween,
      (transition_isSome_iff _ _ _).mp htrans⟩
  · rintro ⟨τ, after, before, q, hτ, hret, hval, hq, hid, hqret, hqval, hpast, hrecent, hbetween,
      hthreshold⟩
    obtain rfl := Option.some.inj (hi.symm.trans hτ)
    rw [liveValue_eq_some.mpr ⟨hret, hval, after, rfl⟩, Option.bind_some]
    refine noteOf_isSome.mpr ⟨⟨.fin before, q.at_⟩, ?_, hpast, hrecent,
      (transition_isSome_iff _ _ _).mpr hthreshold⟩
    exact baselineOf_eq_some.mpr ⟨q, hq, hid, hbetween, hqret, hqval, ⟨before, rfl⟩, rfl⟩

/-- A sample of the loop makes the event that the history determines. -/
theorem Tracks.eventOf_eq {p : Processor} {ob : Observation} {now : Instant}
    {done rest : List Sample}
    {past : List (Observation × Instant)} {σ : Sample}
    (h : Tracks p ((part ob done, now) :: past)) (hsplit : ob.samples = done ++ σ :: rest)
    (hσ : Unambiguous ((part ob done, now) :: past) σ) :
    p.eventOf ob.retained now σ = eventAt past ob now done.length σ := by
  have htake : ob.samples.take done.length = done := by
    rw [hsplit, List.take_left]
  unfold Processor.eventOf eventAt
  rw [h.select_baseline hσ, ← baselineOf_priorAt, htake]

/-- **The loop over the samples**: the maps stay in step with the history, and the events handed
over are those of the history.

**Proof sketch.** Induction over the samples still to come. Each moves the maps on by one
(`Tracks.after`); it adds a call for its own position exactly when it makes an event. -/
theorem samples_spec (L : Libs) (fails : ℕ → Bool) (ob : Observation) (now : Instant)
    (past : List (Observation × Instant)) (rest done : List Sample) (p : Processor)
    (calls : List Request) (hsplit : ob.samples = done ++ rest)
    (h : Tracks p ((part ob done, now) :: past))
    (hok : (Processor.samples L fails ob.retained now done.length rest p calls).ok = true) :
    Tracks (Processor.samples L fails ob.retained now done.length rest p calls).processor
        ((part ob ob.samples, now) :: past) ∧
      ∀ j σ, ob.samples[j]? = some σ →
        Unambiguous ((part ob (ob.samples.take j), now) :: past) σ →
        ((∃ r ∈ (Processor.samples L fails ob.retained now done.length rest p calls).calls,
            r.sample = some j) ↔
          (∃ r ∈ calls, r.sample = some j) ∨
            done.length ≤ j ∧ (eventAt past ob now j σ).isSome = true) := by
  induction rest generalizing done p calls with
  | nil =>
    rw [List.append_nil] at hsplit
    refine ⟨hsplit ▸ h, fun j σ hj _ => ?_⟩
    have hlt : j < done.length := by
      rw [← hsplit]
      exact (List.getElem?_eq_some_iff.mp hj).1
    simp only [Processor.samples]
    constructor
    · exact Or.inl
    · rintro (hold | ⟨hle, -⟩)
      · exact hold
      · omega
  | cons τ rest ih =>
    have hsplit' : ob.samples = (done ++ [τ]) ++ rest := by rw [hsplit]; simp
    have hlen : (done ++ [τ]).length = done.length + 1 := by simp
    have hτ : ob.samples[done.length]? = some τ := by
      rw [hsplit, List.getElem?_append_right (le_refl _)]
      simp
    have htake : ob.samples.take done.length = done := by rw [hsplit, List.take_left]
    rw [Processor.samples_cons] at hok ⊢
    -- the event of `τ`, when its key is not shared
    have hevent : ∀ σ, ob.samples[done.length]? = some σ →
        Unambiguous ((part ob (ob.samples.take done.length), now) :: past) σ →
        eventAt past ob now done.length σ = p.eventOf ob.retained now τ := by
      intro σ hσ hun
      obtain rfl := Option.some.inj (hτ.symm.trans hσ)
      rw [htake] at hun
      exact (h.eventOf_eq hsplit hun).symm
    cases hev : p.eventOf ob.retained now τ with
    | none =>
      rw [hev] at hok
      dsimp only at hok ⊢
      rw [← hlen] at hok ⊢
      obtain ⟨htracks, hcalls⟩ := ih (done ++ [τ]) _ calls hsplit' (h.after τ) hok
      refine ⟨htracks, fun j σ hj hun => ?_⟩
      rw [hcalls j σ hj hun, hlen]
      refine or_congr Iff.rfl ?_
      constructor
      · exact fun hc => ⟨by omega, hc.2⟩
      · rintro ⟨hle, hsome⟩
        rcases Nat.eq_or_lt_of_le hle with rfl | hlt
        · rw [hevent σ hj hun, hev] at hsome
          exact absurd hsome (by simp)
        · exact ⟨hlt, hsome⟩
    | some note =>
      rw [hev] at hok
      dsimp only at hok ⊢
      by_cases hf : fails calls.length = true
      · rw [if_pos hf] at hok
        exact absurd hok (by simp)
      · rw [if_neg hf] at hok ⊢
        rw [← hlen] at hok ⊢
        obtain ⟨htracks, hcalls⟩ := ih (done ++ [τ]) _ _ hsplit' (h.after τ) hok
        refine ⟨htracks, fun j σ hj hun => ?_⟩
        rw [hcalls j σ hj hun, hlen]
        have hnew : (∃ r ∈ calls ++ [Processor.request L p now done.length τ note],
            r.sample = some j) ↔
            (∃ r ∈ calls, r.sample = some j) ∨ done.length = j := by
          simp only [List.mem_append, List.mem_singleton, or_and_right, exists_or, exists_eq_left]
          exact or_congr Iff.rfl (by simp [Processor.request])
        rw [hnew]
        constructor
        · rintro ((hold | rfl) | ⟨hle, hsome⟩)
          · exact Or.inl hold
          · refine Or.inr ⟨le_refl _, ?_⟩
            rw [hevent σ hj hun, hev]
            rfl
          · exact Or.inr ⟨by omega, hsome⟩
        · rintro (hold | ⟨hle, hsome⟩)
          · exact Or.inl (Or.inl hold)
          · rcases Nat.eq_or_lt_of_le hle with heq | hlt
            · exact Or.inl (Or.inr heq)
            · exact Or.inr ⟨hlt, hsome⟩

/-! ## Whole runs -/

/-- A processor and the observations since its last reset, latest first. -/
structure Processing where
  processor : Processor := {}
  past : List (Observation × Instant) := []

namespace Processing

/-- The calls of the processor. -/
inductive Event where
  /-- `Reset`; without an epoch the new one could not be drawn or stored. -/
  | reset (epoch : Option String) (source : String) (connected : Bool) (now : Instant)
  /-- `Observe`. -/
  | observe (fails : ℕ → Bool) (ob : Observation) (now : Instant)

/-- One call; a run ends at an `Observe` in which a call of `Enqueue` fails. -/
def step (L : Libs) (s : Processing) : Event → Option Processing
  | .reset none _ _ _ => some s
  | .reset (some epoch) source connected now =>
      some ⟨Processor.reset epoch source connected now, []⟩
  | .observe fails ob now =>
    let r := s.processor.observe L fails ob now
    if r.ok then some ⟨r.processor, (ob, now) :: s.past⟩ else none

/-- A new processor. -/
def Init (s : Processing) : Prop := s = {}

/-- A connected processor is in step with its history. -/
def InStep (s : Processing) : Prop := s.processor.connected = true → Tracks s.processor s.past

/-- **An observation** keeps the maps in step with the history, and hands over the events of the
history. -/
theorem observe_spec {L : Libs} {s : Processing} (h : s.InStep) {fails : ℕ → Bool}
    {ob : Observation}
    {now : Instant} (hconn : s.processor.connected = true)
    (hok : (s.processor.observe L fails ob now).ok = true) :
    Tracks (s.processor.observe L fails ob now).processor ((ob, now) :: s.past) ∧
      ∀ j σ, ob.samples[j]? = some σ →
        Unambiguous ((part ob (ob.samples.take j), now) :: s.past) σ →
        ((∃ r ∈ (s.processor.observe L fails ob now).calls, r.sample = some j) ↔
          (eventAt s.past ob now j σ).isSome = true) := by
  obtain ⟨-, hok₂, heq⟩ := Processor.observe_of_ok hconn hok
  obtain ⟨hsame, hnone⟩ := Processor.observeNatives_frame L fails s.processor ob now
  have hbegin : Tracks (Processor.observeNatives L fails s.processor ob now).processor
      ((part ob [], now) :: s.past) := ((h hconn).of_same hsame).begin ob now
  obtain ⟨htracks, hcalls⟩ := samples_spec L fails ob now s.past ob.samples [] _ _ rfl hbegin hok₂
  rw [heq]
  refine ⟨htracks.sweep, fun j σ hj hun => ?_⟩
  refine (hcalls j σ hj hun).trans ?_
  constructor
  · rintro (⟨r, hr, hsample⟩ | ⟨-, hsome⟩)
    · rw [hnone r hr] at hsample
      exact absurd hsample (by simp)
    · exact hsome
  · exact fun hsome => Or.inr ⟨Nat.zero_le _, hsome⟩

theorem inStep_of_reachable {L : Libs} {s : Processing}
    (h : Transition.Reachable (step L) (fun _ _ => True) Init s) : s.InStep := by
  refine h.invariant ?_ ?_
  · rintro t rfl hconn
    exact absurd hconn (by simp)
  · intro t e t' ht _ hs
    cases e with
    | reset epoch source connected now =>
      cases epoch with
      | none =>
        obtain rfl := Option.some.inj hs
        exact ht
      | some epoch =>
        obtain rfl := Option.some.inj hs
        exact fun _ => Tracks.reset epoch source connected now
    | observe fails ob now =>
      simp only [step] at hs
      split_ifs at hs with hok
      obtain rfl := Option.some.inj hs
      by_cases hconn : t.processor.connected = true
      · exact fun _ => (observe_spec ht hconn hok).1
      · -- a disconnected processor stays as it is
        have heq : (t.processor.observe L fails ob now).processor = t.processor := by
          simp [Processor.observe, hconn]
        intro hconn'
        rw [heq] at hconn'
        exact absurd hconn' hconn

/-- **Synthetic events.** In every run of `Reset` and `Observe` calls in which no `Enqueue` fails,
the sample at a position of an observation is handed to `Enqueue` as an event if and only if the
processor is connected and the history says so (`Crosses`), provided that no earlier sample of
another kind since the last reset has the same key. -/
theorem synthetic_iff {L : Libs} {s : Processing}
    (h : Transition.Reachable (step L) (fun _ _ => True) Init s) {fails : ℕ → Bool}
    {ob : Observation} {now : Instant} (hok : (s.processor.observe L fails ob now).ok = true)
    {i : ℕ}
    {σ : Sample} (hi : ob.samples[i]? = some σ) (hpast : Unambiguous s.past σ)
    (hhere : ∀ τ ∈ ob.samples.take i, τ.key = σ.key → τ.kind = σ.kind) :
    (∃ r ∈ (s.processor.observe L fails ob now).calls, r.sample = some i) ↔
      s.processor.connected = true ∧ Crosses s.past ob now i := by
  by_cases hconn : s.processor.connected = true
  · have hun : Unambiguous ((part ob (ob.samples.take i), now) :: s.past) σ := by
      intro e he
      rcases List.mem_cons.mp he with rfl | he
      · exact hhere
      · exact hpast e he
    rw [(observe_spec (inStep_of_reachable h) hconn hok).2 i σ hi hun, eventAt_isSome hi]
    exact ⟨fun hc => ⟨hconn, hc⟩, fun hc => hc.2⟩
  · constructor
    · rintro ⟨r, hr, -⟩
      simp [Processor.observe, hconn] at hr
    · exact fun hc => absurd hc.1 hconn

/-! ## Two runs -/

/-- A live observation of one sample. -/
def single (kind id : String) (v : ℚ) : Observation := { samples := [⟨kind, id, some (.fin v)⟩] }

/-- A connected reset, and a first sample of a kind. -/
def begun (kind id : String) (v : ℚ) : List Event :=
  [.reset (some "e1") "gateway" true (seconds 100),
    .observe (fun _ => false) (single kind id v) (seconds 100)]

/-- After these calls the next observation is in order and hands over its first sample. -/
def hands (ob : Observation) (now : Instant) (s : Processing) : Bool :=
  (s.processor.observe Service.sampleLibs (fun _ => false) ob now).ok &&
    (s.processor.observe Service.sampleLibs (fun _ => false) ob now).calls.any
      (fun r => decide (r.sample = some 0))

theorem exists_of_hands (ob : Observation) (now : Instant) (es : List Event) (p : Processing → Bool)
    (h : (Transition.run (step Service.sampleLibs) {} es).any (fun s => hands ob now s && p s) =
    true) :
    ∃ s : Processing,
      Transition.Reachable (step Service.sampleLibs) (fun _ _ => True) Init s ∧ p s = true ∧
      (s.processor.observe Service.sampleLibs (fun _ => false) ob now).ok = true ∧
      ∃ r ∈ (s.processor.observe Service.sampleLibs (fun _ => false) ob now).calls,
        r.sample = some 0 := by
  have hinit : Init {} := rfl
  obtain ⟨s, hreach, hs⟩ := Transition.Reachable.exists_of_run (step Service.sampleLibs)
    (fun _ _ => True) es _ hinit (Transition.Allowed.of_forall (fun _ _ => trivial) _) h
  rw [hands, Bool.and_eq_true, Bool.and_eq_true, List.any_eq_true] at hs
  obtain ⟨⟨hok, r, hr, hsample⟩, hp⟩ := hs
  exact ⟨s, hreach, hp, hok, r, hr, of_decide_eq_true hsample⟩

theorem synthetic_iff_charging :
    ∃ s : Processing, s.past.length = 1 ∧ s.processor.connected = true ∧
      Crosses s.past (single "ev" "evcharger/40" 2000) (seconds 105) 0 := by
  obtain ⟨s, hreach, hp, hok, hhanded⟩ := exists_of_hands
    (single "ev" "evcharger/40" 2000) (seconds 105) (begun "ev" "evcharger/40" 0)
    (fun s => decide (s.past.length = 1) &&
      s.past.all fun e => e.1.samples.all fun τ => decide (τ.kind = "ev")) (by decide)
  rw [Bool.and_eq_true, decide_eq_true_eq, List.all_eq_true] at hp
  have hpast : Unambiguous s.past ⟨"ev", "evcharger/40", some (.fin 2000)⟩ := by
    intro e he τ hτ _
    exact of_decide_eq_true (List.all_eq_true.mp (hp.2 e he) τ hτ)
  obtain ⟨hconn, hcross⟩ := (synthetic_iff hreach hok rfl hpast (by simp)).mp hhanded
  exact ⟨s, hp.1, hconn, hcross⟩

theorem synthetic_of_shared_key :
    ∃ s : Processing,
      Transition.Reachable (step Service.sampleLibs) (fun _ _ => True) Init s ∧
      (s.processor.observe Service.sampleLibs (fun _ => false) (single "ev" "a:b" 2000)
        (seconds 105)).ok = true ∧
      (∃ r ∈ (s.processor.observe Service.sampleLibs (fun _ => false) (single "ev" "a:b" 2000)
        (seconds 105)).calls, r.sample = some 0) ∧
      ¬Crosses s.past (single "ev" "a:b" 2000) (seconds 105) 0 := by
  obtain ⟨s, hreach, hp, hok, hhanded⟩ := exists_of_hands
    (single "ev" "a:b" 2000) (seconds 105) (begun "ev:a" "b" 0)
    (fun s => (priorAt s.past (single "ev" "a:b" 2000) (seconds 105) 0 "ev").isNone)
    (by decide)
  refine ⟨s, hreach, hok, hhanded, ?_⟩
  rintro ⟨σ, after, before, q, hσ, -, -, hq, -⟩
  obtain rfl := Option.some.inj hσ
  rw [hq] at hp
  exact absurd hp (by simp)

end Processing

end Push
