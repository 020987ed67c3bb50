import InverterDashboard.Mqtt.Session

set_option relaxedAutoImplicit false
set_option autoImplicit false

/-!
# What a controller frame does

Specifications of `mergeDaemonState` and of the commit of a frame: which members the key-by-key
merge may reach, when a write meets a nil map, and how the receipts follow.

## Main definitions

* `Dashboard.ExactKeys` — every key that selects a member spells its name exactly.
* `Dashboard.Client.mergeLoop` — the first loop of `mergeDaemonState`.
* `Dashboard.Client.Merged`, `CommandsObserved`, `StateFinished` — what the parts of a completed
  commit did.
* `Dashboard.Client.StateCommitted` — what the commit of a frame with exact keys did.

## Main results

* `Dashboard.Client.mergeLoop_field` — a member no unskipped key spells is not changed.
* `Dashboard.Client.merged_of_eq_some` — a completed merge is a merge loop, a snapshot and an
  overlay.
* `Dashboard.Client.stateCommitted_of_eq_some` — the receipts after a commit.
-/

namespace Dashboard

open Go

/-- Every key of the frame that selects a member spells its name exactly. -/
def ExactKeys (data : Frame) : Prop :=
  ∀ e ∈ data, ∀ f, matchField e.1 = some f → e.1 = f.jsonName

instance (data : Frame) : Decidable (ExactKeys data) :=
  decidable_of_iff (∀ e ∈ data, ∀ f ∈ matchField e.1, e.1 = f.jsonName) Iff.rfl

namespace Client

/-! ## Flags -/

/-- The member is marked by the second loop. -/
def marks (clean : Frame) (f : Field) : Bool := (entry clean f.jsonName).any fun v => !v.isNil

/-- With the flags there, marking never panics. -/
theorem markAvailable_spec (clean : Frame) (fs : List Field) {st : State}
    (hst : (st.field .telemetryAvailable).isSome) :
    ∃ st', markAvailable clean fs st = some st' ∧ (st'.field .telemetryAvailable).isSome ∧
      (∀ g, g ≠ .telemetryAvailable → st'.field g = st.field g) ∧
      (∀ key, st'.available key = true →
        st.available key = true ∨ ∃ f ∈ fs, f.jsonName = key ∧ marks clean f = true) ∧
      st'.nativeESSObserved = st.nativeESSObserved := by
  induction fs generalizing st with
  | nil => exact ⟨st, rfl, hst, fun _ _ => rfl, fun _ h => Or.inl h, rfl⟩
  | cons f fs ih =>
    cases hm : marks clean f with
    | false =>
      obtain ⟨st', h, hp, hf, ha, hn⟩ := ih hst
      refine ⟨st', ?_, hp, hf, fun key hk => ?_, hn⟩
      · rw [markAvailable]
        unfold marks at hm
        rw [hm]
        exact h
      · rcases ha key hk with hk | ⟨g, hg, hgk, hgm⟩
        · exact Or.inl hk
        · exact Or.inr ⟨g, List.mem_cons_of_mem _ hg, hgk, hgm⟩
    | true =>
      obtain ⟨st₁, h₁, hp₁, hf₁, ha₁, hn₁⟩ := State.setAvailable_spec hst f true
      obtain ⟨st', h, hp, hf, ha, hn⟩ := ih hp₁
      refine ⟨st', ?_, hp, fun g hg => by rw [hf g hg, hf₁ g hg], fun key hk => ?_, by rw [hn, hn₁]⟩
      · rw [markAvailable]
        unfold marks at hm
        rw [hm, if_pos rfl, h₁]
        exact h
      · rcases ha key hk with hk | ⟨g, hg, hgk, hgm⟩
        · by_cases hkey : key = f.jsonName
          · exact Or.inr ⟨f, List.mem_cons_self, hkey.symm, hm⟩
          · left
            rw [State.available, ha₁, if_neg hkey] at hk
            exact hk
        · exact Or.inr ⟨g, List.mem_cons_of_mem _ hg, hgk, hgm⟩

/-- Without the flags, marking panics at the first marked member. -/
theorem markAvailable_of_none (clean : Frame) (fs : List Field) {st : State}
    (hst : st.field .telemetryAvailable = none) :
    markAvailable clean fs st = if fs.any (marks clean) then none else some st := by
  induction fs with
  | nil => rfl
  | cons f fs ih =>
    rw [markAvailable]
    cases hm : marks clean f with
    | true =>
      unfold marks at hm
      simp [hm, marks, State.setAvailable, hst]
    | false =>
      have hm' := hm
      unfold marks at hm'
      simp only [hm', Bool.false_eq_true, if_false, Option.bind_eq_bind, Option.bind_some,
        List.any_cons, hm, Bool.false_or]
      exact ih

/-! ## The merge loop -/

/-- The state and the clean entries after the first loop of `mergeDaemonState`. -/
def mergeLoop (c : Client) (data : Frame) : State × Frame :=
  data.foldl c.mergeEntry (c.initCerboMaps.state, [])

/-- Skipping depends on the claims only. -/
theorem skipsKey_initCerboMaps (c : Client) (key : String) :
    c.initCerboMaps.skipsKey key = c.skipsKey key := by
  rw [c.initCerboMaps_spec.1]
  rfl

theorem mergeEntry_initCerboMaps (c : Client) : c.initCerboMaps.mergeEntry = c.mergeEntry := by
  funext acc e
  unfold mergeEntry
  rw [skipsKey_initCerboMaps]

/-- A member no unskipped key spells is not changed by the loop. -/
theorem foldl_mergeEntry_field (c : Client) (data : Frame) {f : Field}
    (h : ∀ e ∈ data, foldName f.jsonName = foldName e.1 → c.skipsKey e.1 = true)
    (acc : State × Frame) : (data.foldl c.mergeEntry acc).1.field f = acc.1.field f := by
  induction data generalizing acc with
  | nil => rfl
  | cons e data ih =>
    rw [List.foldl_cons, ih fun e' he' => h e' (List.mem_cons_of_mem _ he')]
    unfold mergeEntry
    cases hs : c.skipsKey e.1 with
    | true => rfl
    | false =>
      refine State.unmarshalEntry_of_ne acc.1 e.2 fun hf => ?_
      rw [h e List.mem_cons_self hf] at hs
      cases hs

theorem foldl_mergeEntry_native (c : Client) (data : Frame) (acc : State × Frame) :
    (data.foldl c.mergeEntry acc).1.nativeESSObserved = acc.1.nativeESSObserved := by
  induction data generalizing acc with
  | nil => rfl
  | cons e data ih =>
    rw [List.foldl_cons, ih]
    unfold mergeEntry
    split_ifs
    · rfl
    · exact State.unmarshalEntry_nativeESSObserved _ _ _

/-- The clean entries are entries of the frame whose key is not skipped. -/
theorem mem_foldl_mergeEntry_clean (c : Client) (data : Frame) {acc : State × Frame}
    {e : String × Any} (h : e ∈ (data.foldl c.mergeEntry acc).2) :
    e ∈ acc.2 ∨ (e ∈ data ∧ c.skipsKey e.1 = false) := by
  induction data generalizing acc with
  | nil => exact Or.inl h
  | cons e' data ih =>
    rcases ih h with h | ⟨h, hs⟩
    · unfold mergeEntry at h
      dsimp only at h
      split_ifs at h with hskip
      · exact Or.inl h
      · rcases List.mem_append.mp h with h | h
        · exact Or.inl h
        · rw [List.mem_singleton.mp h]
          exact Or.inr ⟨List.mem_cons_self, by simpa using hskip⟩
      · exact Or.inl h
    · exact Or.inr ⟨List.mem_cons_of_mem _ h, hs⟩

/-- With exact keys, a member whose name is skipped is not changed. -/
theorem mergeLoop_field_of_skips (c : Client) {data : Frame} (hexact : ExactKeys data)
    {f : Field} (hskip : c.skipsKey f.jsonName = true) (hf : f ≠ .telemetryAvailable) :
    (c.mergeLoop data).1.field f = c.state.field f := by
  rw [mergeLoop, foldl_mergeEntry_field, c.initCerboMaps_spec.2.2.1 f hf]
  intro e he hfold
  rwa [hexact e he f (matchField_eq_some_iff.mpr hfold)]

/-- With exact keys, the flags are those from before the loop. -/
theorem mergeLoop_flags (c : Client) {data : Frame} (hexact : ExactKeys data) :
    (c.mergeLoop data).1.field .telemetryAvailable =
      c.initCerboMaps.state.field .telemetryAvailable := by
  rw [mergeLoop, foldl_mergeEntry_field]
  intro e he hfold
  rw [hexact e he _ (matchField_eq_some_iff.mpr hfold)]
  simp [skipsKey, Field.jsonName]

/-! ## A completed merge -/

/-- What a completed `mergeDaemonState` did: the loop gave `st₁` up to the flags, the snapshot
`st₂`, and the overlay the result. -/
structure Merged (c : Client) (data : Frame) (st₁ st₂ : State) (c' : Client) : Prop where
  loop : ∀ f, f ≠ .telemetryAvailable → st₁.field f = (c.mergeLoop data).1.field f
  native : st₁.nativeESSObserved = c.state.nativeESSObserved
  flags : ∀ key, st₁.available key = true → (c.mergeLoop data).1.available key = true ∨
    ∃ f ∈ directFields, f.jsonName = key ∧ c.skipsKey key = false
  essFlag : c.cerboOwned.has .essMode = false → st₁.available "ess_mode" = false
  snapshot : Snapshotted st₁ data st₂
  overlaid : Overlaid { c with state := st₂.set .dashboardVersion c.currentVersion } c'

/-- A marked member has an unskipped entry in the frame. -/
theorem skipsKey_of_marks (c : Client) {data : Frame} {f : Field}
    (h : marks (c.mergeLoop data).2 f = true) : c.skipsKey f.jsonName = false := by
  unfold marks at h
  cases hv : entry (c.mergeLoop data).2 f.jsonName with
  | none => simp [hv] at h
  | some v =>
    rcases c.mem_foldl_mergeEntry_clean data (mem_of_entry hv) with hmem | ⟨-, hs⟩
    · cases hmem
    · exact hs

/-- A completed marking changed the flags only, and only for unskipped entries. -/
theorem markAvailable_of_eq_some (c : Client) {data : Frame} {st' : State}
    (h : markAvailable (c.mergeLoop data).2 directFields (c.mergeLoop data).1 = some st') :
    (∀ f, f ≠ .telemetryAvailable → st'.field f = (c.mergeLoop data).1.field f) ∧
      st'.nativeESSObserved = c.state.nativeESSObserved ∧
      ∀ key, st'.available key = true → (c.mergeLoop data).1.available key = true ∨
        ∃ f ∈ directFields, f.jsonName = key ∧ c.skipsKey key = false := by
  have hnative : (c.mergeLoop data).1.nativeESSObserved = c.state.nativeESSObserved := by
    rw [mergeLoop, foldl_mergeEntry_native, c.initCerboMaps_spec.2.2.2.2]
  cases hp : (c.mergeLoop data).1.field .telemetryAvailable with
  | none =>
    rw [markAvailable_of_none _ _ hp] at h
    split_ifs at h
    obtain rfl := Option.some.inj h
    exact ⟨fun _ _ => rfl, hnative, fun _ hk => Or.inl hk⟩
  | some m =>
    obtain ⟨st'', h', -, hf, ha, hn⟩ :=
      markAvailable_spec (c.mergeLoop data).2 directFields (by rw [hp]; rfl)
    obtain rfl := Option.some.inj (h'.symm.trans h)
    refine ⟨hf, hn.trans hnative, fun key hk => ?_⟩
    rcases ha key hk with hk | ⟨f, hmem, rfl, hm⟩
    · exact Or.inl hk
    · exact Or.inr ⟨f, hmem, rfl, c.skipsKey_of_marks hm⟩

/-- A completed merge is a loop, a snapshot and an overlay. -/
theorem merged_of_eq_some (c : Client) {data : Frame} {c' : Client}
    (h : c.mergeDaemonState data = some c') : ∃ st₁ st₂, Merged c data st₁ st₂ c' := by
  have hinit := c.initCerboMaps_spec.1
  have howned : c.initCerboMaps.cerboOwned = c.cerboOwned := by rw [hinit]
  have hov : ∀ st : State, { c.initCerboMaps with state := st } = { c with state := st } := by
    intro st
    rw [hinit]
  simp only [mergeDaemonState, Option.bind_eq_bind, Option.bind_eq_some_iff,
    mergeEntry_initCerboMaps] at h
  obtain ⟨stm, hm, st₁, he, st₂, hsnap, hlast⟩ := h
  obtain ⟨hloop, hnative, hflags⟩ := c.markAvailable_of_eq_some hm
  obtain ⟨hf, hn, ha, hess⟩ := c.initCerboMaps.resetESSFlag_of_eq_some he
  rw [hov] at hlast
  refine ⟨st₁, st₂, fun f hne => by rw [hf f hne, hloop f hne], by rw [hn, hnative],
    fun key hk => hflags key (ha key hk), by rwa [howned] at hess,
    snapshotted_of_eq_some hsnap, ?_⟩
  have hversion : c.initCerboMaps.currentVersion = c.currentVersion := by rw [hinit]
  rw [hversion] at hlast
  exact overlaid_of_eq_some hlast

/-! ## Receipts -/

/-- The status a frame carries: absent, or what its entry parses to. -/
def carriedStatus (data : Frame) : Option (Option SetpointOverrideStatus) :=
  (entry data "setpoint_override").map parseOverrideStatus

/-- What `observeControllerCommands` does. -/
structure CommandsObserved (c : Client) (data : Frame) (retained : Bool) (now : Time)
    (c' : Client) : Prop where
  frame : c' = { c with state := c'.state, overrideReceipt := c'.overrideReceipt }
  receipt : c'.overrideReceipt =
    if (carriedStatus data).isSome then c.overrideReceipt + 1 else c.overrideReceipt
  field : ∀ f, f ∉ [Field.setpointOverride, .setpointOverrideObservedAt,
    .electricityTariffObservedAt] → c'.state.field f = c.state.field f
  override : c'.state.field .setpointOverride =
    (carriedStatus data).getD (c.state.field .setpointOverride)
  overrideObserved : c'.state.field .setpointOverrideObservedAt =
    match carriedStatus data with
    | some status => if status.isSome then receiptTime retained now else none
    | none => c.state.field .setpointOverrideObservedAt
  tariffObserved : c'.state.field .electricityTariffObservedAt =
    if (entry data "ui_config").isSome then receiptTime retained now
    else c.state.field .electricityTariffObservedAt
  native : c'.state.nativeESSObserved = c.state.nativeESSObserved

theorem observeControllerCommands_spec (c : Client) (data : Frame) (retained : Bool)
    (now : Time) :
    CommandsObserved c data retained now (c.observeControllerCommands data retained now) := by
  unfold observeControllerCommands observeOverride observeTariff
  cases hs : entry data "setpoint_override" <;> cases hu : entry data "ui_config" <;>
    constructor <;> simp +contextual [carriedStatus, hs, hu]

/-- What `finishState` does: the command receipts, and the two times that become visible. -/
structure StateFinished (c : Client) (data : Frame) (retained : Bool) (now : Time)
    (c' : Client) : Prop where
  frame : c' = { c with state := c'.state, overrideReceipt := c'.overrideReceipt }
  field : ∀ f, f ∉ [Field.setpointOverride, .setpointOverrideObservedAt,
    .electricityTariffObservedAt, .essModeObservedAt, .gridBackupObservedAt] →
    c'.state.field f = c.state.field f
  essObserved : c'.state.field .essModeObservedAt = c.controllerESSObserved
  observed : ∃ c₁, CommandsObserved c data retained now c₁ ∧
    c'.overrideReceipt = c₁.overrideReceipt ∧
    ∀ f ∈ [Field.setpointOverride, .setpointOverrideObservedAt, .electricityTariffObservedAt],
      c'.state.field f = c₁.state.field f
  native : c'.state.nativeESSObserved = c.state.nativeESSObserved

theorem finishState_spec (c : Client) (data : Frame) (retained : Bool) (now : Time) :
    StateFinished c data retained now (c.finishState data retained now) := by
  have hobs := c.observeControllerCommands_spec data retained now
  have hess : (c.observeControllerCommands data retained now).controllerESSObserved =
      c.controllerESSObserved := by rw [hobs.frame]
  have hst : ∀ f, f ≠ .essModeObservedAt → f ≠ .gridBackupObservedAt →
      (c.finishState data retained now).state.field f =
        (c.observeControllerCommands data retained now).state.field f := by
    intro f h₁ h₂
    unfold finishState
    dsimp only
    split <;> simp [h₁, h₂]
  refine ⟨?_, ?_, ?_, ⟨_, hobs, rfl, ?_⟩, ?_⟩
  · unfold finishState
    rw [hobs.frame]
  · intro f hf
    simp only [List.mem_cons, List.not_mem_nil, or_false, not_or] at hf
    rw [hst f hf.2.2.2.1 hf.2.2.2.2, hobs.field f (by simp [hf])]
  · unfold finishState
    dsimp only
    split <;> simp [hess]
  · intro f hf
    refine hst f ?_ ?_ <;> rintro rfl <;> simp at hf
  · unfold finishState
    dsimp only
    split <;> exact hobs.native

/-! ## The commit of a frame with exact keys -/

/-- What the commit of a state frame with exact keys did: the receipts and permissions after it in
terms of the frame and of the client before it. -/
structure StateCommitted (c : Client) (data : Frame) (retained : Bool) (now : Time)
    (c' : Client) : Prop where
  frame : c' = { c with
    state := c'.state
    cerboOwned := c'.cerboOwned
    overrideReceipt := c'.overrideReceipt
    controllerLastSeen := some now
    controllerLiveAt := if retained then none else some now
    controllerESSMode := (c.observeESSMode data retained now).controllerESSMode
    controllerESSObserved := (c.observeESSMode data retained now).controllerESSObserved }
  inverter : c'.state.field .inverterAvailable = some !data.isEmpty
  essObserved : c'.state.field .essModeObservedAt = c'.controllerESSObserved
  override : c'.state.field .setpointOverride =
    (carriedStatus data).getD (if data.isEmpty then none else c.state.field .setpointOverride)
  overrideObserved : c'.state.field .setpointOverrideObservedAt =
    match carriedStatus data with
    | some status => if status.isSome then receiptTime retained now else none
    | none => if data.isEmpty then none else c.state.field .setpointOverrideObservedAt
  tariffObserved : c'.state.field .electricityTariffObservedAt =
    if (entry data "ui_config").isSome then receiptTime retained now
    else if data.isEmpty then none else c.state.field .electricityTariffObservedAt
  uiConfig : c.state.available "ui_config" = false → ∀ key, key ≠ "header_toggles" →
    (c'.state.field .uiConfig).find key = GoMap.find (decodedEntry data .uiConfig) key
  owned : ∀ f, c.cerboOwned.has f = true → c'.cerboOwned.has f = true
  flags : ∀ key, c'.state.available key = true →
    c.state.available key = true ∨ ∃ f ∈ directFields, f.jsonName = key
  water : ∀ d : WaterDevice,
    (c.state.available d.field.jsonName = true → c.cerboOwned.has d.field = true) →
    c'.state.available d.field.jsonName = true →
    c'.cerboOwned.has d.field = true ∧ (c'.overlay.val d.field).isSome
  native : c'.state.nativeESSObserved = true → c'.cerboOwned.has .essMode = true
  supported : (c.state.nativeESSObserved = true → c.cerboOwned.has .essMode = true) →
    (c'.state.field .essMode).selectionSupported = true → c'.controllerESSObserved ≠ none →
    c'.selectableESSMode ≠ none

/-- What a controller section leaves alone, whatever the keys of the frame. -/
theorem commitController_frame {c c' : Client} {override : Bool} {data : Frame} {retained : Bool}
    {now : Time} (h : c.commitController override data retained now = some c') :
    c' = { c with
      state := c'.state
      cerboOwned := c'.cerboOwned
      overrideReceipt := c'.overrideReceipt
      controllerLastSeen := c'.controllerLastSeen
      controllerLiveAt := c'.controllerLiveAt
      controllerESSMode := c'.controllerESSMode
      controllerESSObserved := c'.controllerESSObserved } := by
  unfold commitController at h
  split_ifs at h
  · obtain rfl := Option.some.inj h
    rw [(c.observeControllerCommands_spec data retained now).frame]
  · simp only [commitState, Option.bind_eq_bind, Option.bind_eq_some_iff, Option.pure_def,
      Option.some.injEq] at h
    obtain ⟨c₂, hmerge, rfl⟩ := h
    obtain ⟨st₁, st₂, hm⟩ := merged_of_eq_some _ hmerge
    rw [(c₂.finishState_spec data retained now).frame, hm.overlaid.frame]
    rfl

/-- A water mode is a member of the native section. -/
theorem skipsKey_waterDevice (c : Client) (d : WaterDevice) :
    c.skipsKey d.field.jsonName = true := by
  have h : isNativeSectionField d.field.jsonName = true := by cases d <;> decide
  rw [skipsKey, h, Bool.or_true]

/-- With exact keys, a member of the native section reaches the overlay as it was. -/
theorem Merged.flags_of_skips {c : Client} {data : Frame} {st₁ st₂ : State} {c' : Client}
    (h : Merged c data st₁ st₂ c') (hexact : ExactKeys data) {key : String}
    (hskip : c.skipsKey key = true) (hk : st₁.available key = true) :
    c.state.available key = true := by
  rcases h.flags key hk with hk | ⟨f, -, rfl, hs⟩
  · rw [State.available, mergeLoop_flags c hexact] at hk
    exact c.initCerboMaps_spec.2.2.2.1 key ▸ hk
  · rw [hskip] at hs
    cases hs

namespace Merged

variable {c : Client} {data : Frame} {st₁ st₂ : State} {c' : Client}
  (h : Merged c data st₁ st₂ c') (hexact : ExactKeys data)
include h

/-- A member the reducer does not own passes the overlay. -/
theorem field_of_not_direct {f : Field} (hdir : f ∉ directFields) (htel : f ≠ .telemetryAvailable)
    (hver : f ≠ .dashboardVersion) : c'.state.field f = st₂.field f := by
  rw [h.overlaid.field_of_not_direct hdir htel]
  exact State.set_field_ne _ hver _

/-- Without a native reading of the ESS mode, a supported mode of the state comes from a frame
whose mode decodes to it, or has no usable receipt. -/
theorem supported (hown : c.state.nativeESSObserved = true → c.cerboOwned.has .essMode = true)
    (hsel : c.selectableESSMode = none)
    (hs : (c'.state.field .essMode).selectionSupported = true) :
    (supportedESSMode data).isSome ∨
      ∃ raw, entry data "ess_mode" = some raw ∧ decodeESSMode raw = none := by
  obtain ⟨hno, heq⟩ := h.overlaid.essMode_of_supported hsel hs
  have hnot : c.cerboOwned.has .essMode = false := by
    by_contra ho
    rw [h.overlaid.owned_of_owned (by simpa using ho)] at hno
    cases hno
  rw [heq] at hs
  replace hs : (st₂.field .essMode).selectionSupported = true := hs
  rw [h.snapshot.essMode] at hs
  cases hsup : supportedESSMode data with
  | some m => exact Or.inl rfl
  | none =>
    right
    have hopen : Field.essMode ∈ openControllerFields st₁ := by
      have hnative : st₁.nativeESSObserved = false := by
        rw [h.native]
        by_contra hn
        rw [hown (by simpa using hn)] at hnot
        cases hnot
      unfold openControllerFields
      rw [List.mem_filter]
      refine ⟨by decide, ?_⟩
      show (!(st₁.available "ess_mode" || _)) = true
      rw [h.essFlag hnot, hnative]
      rfl
    rw [hsup, Option.getD_none, sectionValue, if_pos hopen, decodedEntry] at hs
    show ∃ raw, entry data (Field.jsonName .essMode) = some raw ∧ _
    cases he : entry data (Field.jsonName .essMode) with
    | none =>
      rw [he] at hs
      cases hs
    | some raw =>
      refine ⟨raw, rfl, ?_⟩
      rw [he] at hs
      cases hd : decodeESSMode raw with
      | none => rfl
      | some m =>
        have hm : m.selectionSupported = true := decodeESSMode_eq_some hd ▸ hs
        have he' : entry data "ess_mode" = some raw := he
        simp [supportedESSMode, he', hd, hm] at hsup

include hexact

/-- A skipped member passes the loop. -/
theorem field_of_skips {f : Field} (hskip : c.skipsKey f.jsonName = true)
    (htel : f ≠ .telemetryAvailable) : st₁.field f = c.state.field f := by
  rw [h.loop f htel, mergeLoop_field_of_skips c hexact hskip htel]

/-- The command members are withdrawn by an empty frame and pass any other. -/
theorem commands :
    c'.state.field .setpointOverride =
        (if data.isEmpty then none else c.state.field .setpointOverride) ∧
      c'.state.field .setpointOverrideObservedAt =
        (if data.isEmpty then none else c.state.field .setpointOverrideObservedAt) ∧
      c'.state.field .electricityTariffObservedAt =
        (if data.isEmpty then none else c.state.field .electricityTariffObservedAt) := by
  have hskip : ∀ f ∈ [Field.setpointOverride, .setpointOverrideObservedAt,
      .electricityTariffObservedAt], c.skipsKey f.jsonName = true := by
    intro f hf
    have hnat : isNativeSectionField f.jsonName = true := by
      revert f
      decide
    rw [skipsKey, hnat, Bool.or_true]
  refine ⟨?_, ?_, ?_⟩
  · rw [h.field_of_not_direct (by decide) (by decide) (by decide), h.snapshot.override,
      h.field_of_skips hexact (hskip _ (by decide)) (by decide)]
  · rw [h.field_of_not_direct (by decide) (by decide) (by decide), h.snapshot.overrideObserved,
      h.field_of_skips hexact (hskip _ (by decide)) (by decide)]
  · rw [h.field_of_not_direct (by decide) (by decide) (by decide), h.snapshot.tariffObserved,
      h.field_of_skips hexact (hskip _ (by decide)) (by decide)]

/-- A flag after the loop was set before it or is that of an unskipped `directFields` key. -/
theorem flags_before {key : String} (hk : st₁.available key = true) :
    c.state.available key = true ∨ ∃ f ∈ directFields, f.jsonName = key ∧
      c.skipsKey key = false := by
  rcases h.flags key hk with hk | hk
  · left
    rw [State.available, mergeLoop_flags c hexact] at hk
    exact c.initCerboMaps_spec.2.2.2.1 key ▸ hk
  · exact Or.inr hk

end Merged

/-- The commit of a frame with exact keys.

**Proof sketch.** The command members are skipped by the merge loop, pass the snapshot unless the
frame is empty, and are not touched by the overlay; `finishState` then decides them. A supported
mode without a supported receipt would have to come from the section (`Merged.supported`), and the
section decodes the very entry the receipt was decoded from. -/
theorem stateCommitted_of_eq_some (c : Client) {data : Frame} (hexact : ExactKeys data)
    {retained : Bool} {now : Time} {c' : Client}
    (h : c.commitState data retained now = some c') :
    StateCommitted c data retained now c' := by
  simp only [commitState, Option.bind_eq_bind, Option.bind_eq_some_iff, Option.pure_def,
    Option.some.injEq] at h
  obtain ⟨c₂, hmerge, rfl⟩ := h
  obtain ⟨st₁, st₂, hm⟩ := merged_of_eq_some _ hmerge
  have hfin := c₂.finishState_spec data retained now
  obtain ⟨c₃, hobs, -, hobs3⟩ := hfin.observed
  obtain ⟨hc₁, hc₂, hc₃⟩ := hm.commands hexact
  have havail : ∀ key, (c₂.finishState data retained now).state.available key =
      c₂.state.available key := by
    intro key
    rw [State.available, hfin.field _ (by decide)]
    rfl
  have hst₂ : ∀ key, (st₂.set .dashboardVersion c.currentVersion).available key =
      st₁.available key := by
    intro key
    rw [State.available, State.set_field_ne st₂ (by decide), hm.snapshot.frame _ (by decide)]
    rfl
  have howned : (c₂.finishState data retained now).cerboOwned = c₂.cerboOwned := by rw [hfin.frame]
  have hess : (c₂.finishState data retained now).controllerESSObserved =
      c₂.controllerESSObserved := by rw [hfin.frame]
  have hsel : (c₂.finishState data retained now).selectableESSMode =
      (c.receiveState data retained now).selectableESSMode := by
    rw [hfin.frame, hm.overlaid.frame]
    rfl
  refine ⟨?_, ?_, ?_, ?_, ?_, ?_, ?_, ?_, ?_, ?_, ?_, ?_⟩
  · rw [hfin.frame, hm.overlaid.frame]
    rfl
  · rw [hfin.field _ (by decide), hm.field_of_not_direct (by decide) (by decide) (by decide),
      hm.snapshot.inverterAvailable]
  · rw [hfin.essObserved, hess]
  · rw [hobs3 _ (by decide), hobs.override, hc₁]
    rfl
  · rw [hobs3 _ (by decide), hobs.overrideObserved, hc₂]
    rfl
  · rw [hobs3 _ (by decide), hobs.tariffObserved, hc₃]
    rfl
  · intro hui key hkey
    rw [hfin.field _ (by decide), hm.field_of_not_direct (by decide) (by decide) (by decide),
      hm.snapshot.uiConfig key hkey, sectionValue, if_pos]
    unfold openControllerFields
    rw [List.mem_filter]
    refine ⟨by decide, ?_⟩
    have hflag : st₁.available "ui_config" = false := by
      by_contra hk
      rcases hm.flags_before hexact (by simpa using hk) with hk | ⟨f, hf, hname, -⟩
      · exact absurd (hui.symm.trans hk) (by decide)
      · have hfui : f = .uiConfig := Field.jsonName_injective hname
        rw [hfui] at hf
        exact absurd hf (by decide)
    show (!(st₁.available "ui_config" || _)) = true
    rw [hflag]
    rfl
  · intro f hf
    rw [howned]
    exact hm.overlaid.owned_of_owned hf
  · intro key hk
    rw [havail] at hk
    rcases hm.overlaid.flags hk with hk | hk
    · rcases hm.flags_before hexact (hst₂ key ▸ hk) with hk | ⟨f, hf, hname, -⟩
      · exact Or.inl hk
      · exact Or.inr ⟨f, hf, hname⟩
    · exact Or.inr hk
  · intro d hd hk
    rw [havail] at hk
    rw [howned, hfin.frame]
    refine hm.overlaid.output_of_available (fun hav => hd ?_) hk
    exact hm.flags_of_skips hexact (c.skipsKey_waterDevice d) (hst₂ _ ▸ hav)
  · intro hn
    rw [howned]
    exact hm.overlaid.owned_of_native (hfin.native ▸ hn)
  · intro hown hs hne hnone
    rw [hsel] at hnone
    rw [hfin.field _ (by decide)] at hs
    rw [hess, hm.overlaid.frame] at hne
    replace hne : (essReceipts (c.controllerESSMode, c.controllerESSObserved) data retained
      now).2 ≠ none := hne
    replace hnone : (essReceipts (c.controllerESSMode, c.controllerESSObserved) data retained
      now).1.filter (fun m => m.selectionSupported) = none := hnone
    have hdata : data ≠ [] := by
      rintro rfl
      exact hne rfl
    rcases hm.supported hown hnone hs with hsup | ⟨raw, he, hd⟩
    · obtain ⟨m, hsup⟩ := Option.isSome_iff_exists.mp hsup
      obtain ⟨hbind, hmode⟩ := Option.filter_eq_some_iff.mp hsup
      obtain ⟨raw, he, hd⟩ := Option.bind_eq_some_iff.mp hbind
      simp [essReceipts, hdata, he, hd, hmode] at hnone
    · simp [essReceipts, hdata, he, hd] at hne

end Client

end Dashboard
