import InverterDashboard.Lan.Spelling

set_option relaxedAutoImplicit false
set_option autoImplicit false

/-!
# The entries of a frame do not interfere

A frame on `inverter/state` passes three decoders that clear, skip and apply overlapping members.
Each member of the state after it still depends only on the entries that name it or that it is
derived from, and not on the order in which the frame is iterated.

## Main definitions

* `Dashboard.NamedKeys` — every key of a frame is the exact name of a member.
* `Dashboard.influenced` — a member and those derived from its entry.
* `Dashboard.Alike` — two frames that differ at most in the entries of some members.
* `Dashboard.AgreeOff` — two states that agree outside what these entries influence.

## Main results

* `Dashboard.Client.mergeLoop_field_of_named`, `marks_mergeLoop` — the first loop of
  `mergeDaemonState`, member by member.
* `Dashboard.Client.frames_independent` — the commits of alike frames agree outside the influenced
  members, in any order of iteration.
-/

namespace Dashboard

open Go

/-- Every key of the frame is the exact name of a member. -/
def NamedKeys (data : Frame) : Prop := ∀ e ∈ data, ∃ f : Field, e.1 = f.jsonName

theorem NamedKeys.exactKeys {data : Frame} (h : NamedKeys data) : ExactKeys data := by
  intro e he g hg
  obtain ⟨f, hf⟩ := h e he
  rw [hf, matchField_jsonName] at hg
  rw [hf, Option.some.inj hg]

/-- An entry splits a frame with unique keys, and no other entry has its key. -/
theorem split_of_entry {data : Frame} (hn : (data.map Prod.fst).Nodup) {key : String} {v : Any}
    (h : entry data key = some v) :
    ∃ l₁ l₂, data = l₁ ++ (key, v) :: l₂ ∧ (∀ e ∈ l₁, e.1 ≠ key) ∧ ∀ e ∈ l₂, e.1 ≠ key := by
  obtain ⟨l₁, l₂, rfl⟩ := List.append_of_mem (mem_of_entry h)
  rw [List.map_append, List.map_cons] at hn
  obtain ⟨-, hn₂, hdis⟩ := List.nodup_append.mp hn
  refine ⟨l₁, l₂, rfl, fun e he hk => ?_, fun e he hk => ?_⟩
  · exact hdis e.1 (List.mem_map_of_mem he) key List.mem_cons_self hk
  · exact (List.nodup_cons.mp hn₂).1 (List.mem_map.mpr ⟨e, he, hk⟩)

namespace Client

/-! ## The first loop -/

/-- A member only its exact name selects holds what its entry decodes to, in the old value. -/
theorem mergeLoop_field_of_entry (c : Client) {data : Frame} (hn : (data.map Prod.fst).Nodup)
    {f : Field} (hexact : ∀ e ∈ data, matchField e.1 = some f → e.1 = f.jsonName)
    (hskip : c.skipsKey f.jsonName = false) (htel : f ≠ .telemetryAvailable) :
    (c.mergeLoop data).1.field f =
      match entry data f.jsonName with
      | some v => (f.type.decoder v (c.state.field f)).1
      | none => c.state.field f := by
  have hinit := c.initCerboMaps_spec.2.2.1 f htel
  have hpass : ∀ l : Frame, (∀ e ∈ l, e ∈ data) → (∀ e ∈ l, e.1 ≠ f.jsonName) →
      ∀ acc : State × Frame, (l.foldl c.mergeEntry acc).1.field f = acc.1.field f := by
    intro l hsub hne acc
    refine c.foldl_mergeEntry_field l (fun e he hfold => ?_) acc
    exact absurd (hexact e (hsub e he) (matchField_eq_some_iff.mpr hfold)) (hne e he)
  cases hv : entry data f.jsonName with
  | none =>
    rw [mergeLoop, hpass data (fun _ he => he) fun e he hk => ?_, hinit]
    rw [entry_eq_none_iff] at hv
    exact hv e.2 (hk ▸ he)
  | some v =>
    obtain ⟨l₁, l₂, hdata, h₁, h₂⟩ := split_of_entry hn hv
    rw [mergeLoop, hdata, List.foldl_append, List.foldl_cons,
      hpass l₂ (fun e he => by simp [hdata, he]) h₂]
    have hone : ∀ acc : State × Frame, (c.mergeEntry acc (f.jsonName, v)).1.field f =
        (f.type.decoder v (acc.1.field f)).1 := by
      intro acc
      unfold mergeEntry
      rw [hskip, if_neg Bool.false_ne_true, unmarshalEntry_jsonName, State.set_field_self]
    rw [hone, hpass l₁ (fun e he => by simp [hdata, he]) h₁, hinit]

/-- The first loop on a frame whose keys are names. -/
theorem mergeLoop_field_of_named (c : Client) {data : Frame} (hn : (data.map Prod.fst).Nodup)
    (hnamed : NamedKeys data) {f : Field} (htel : f ≠ .telemetryAvailable) :
    (c.mergeLoop data).1.field f =
      match (entry data f.jsonName).filter fun _ => !c.skipsKey f.jsonName with
      | some v => (f.type.decoder v (c.state.field f)).1
      | none => c.state.field f := by
  cases hskip : c.skipsKey f.jsonName with
  | true =>
    rw [c.mergeLoop_field_of_skips hnamed.exactKeys hskip htel]
    simp
  | false =>
    rw [c.mergeLoop_field_of_entry hn (fun e he => hnamed.exactKeys e he f) hskip htel]
    cases entry data f.jsonName <;> rfl

end Client

/-! ## Alike frames -/

/-- The members derived from the entry of a member. -/
def derivedMembers : Field → List Field
  | .booleans => [.onlyCharging, .noFeed, .houseSupport, .chargeBattery, .doNotSupplyCharger,
      .setLimitToEVCharger, .minimizeCharging]
  | .uiConfig => [.electricityTariffObservedAt]
  | .setpointOverride => [.setpointOverrideObservedAt]
  | .essMode => [.essModeObservedAt]
  | .gridBackup => [.gridBackupObservedAt]
  | _ => []

/-- The members the entries of some members influence: these and the derived ones. -/
def influenced (K : List Field) : List Field := K ++ K.flatMap derivedMembers

theorem mem_influenced {K : List Field} {f : Field} (h : f ∈ K) : f ∈ influenced K :=
  List.mem_append_left _ h

theorem mem_influenced_of_derived {K : List Field} {k f : Field} (hk : k ∈ K)
    (hf : f ∈ derivedMembers k) : f ∈ influenced K :=
  List.mem_append_right _ (List.mem_flatMap.mpr ⟨k, hk, hf⟩)

/-- Two frames with named keys that differ at most in the entries of some members. -/
structure Alike (K : List Field) (F G : Frame) : Prop where
  nodupF : (F.map Prod.fst).Nodup
  nodupG : (G.map Prod.fst).Nodup
  namedF : NamedKeys F
  namedG : NamedKeys G
  empty : F.isEmpty = G.isEmpty
  entry : ∀ f ∉ K, Go.entry F f.jsonName = Go.entry G f.jsonName

/-- Two states that agree outside what the entries of some members influence; the flags are
compared entry by entry. -/
structure AgreeOff (K : List Field) (st st' : State) : Prop where
  field : ∀ f, f ≠ .telemetryAvailable → f ∉ influenced K → st.field f = st'.field f
  present : (st.field .telemetryAvailable).isSome ∧ (st'.field .telemetryAvailable).isSome
  flags : ∀ key, (∀ k ∈ K, k.jsonName ≠ key) →
    (st.field .telemetryAvailable).find key = (st'.field .telemetryAvailable).find key
  native : st.nativeESSObserved = st'.nativeESSObserved

namespace AgreeOff

variable {K : List Field} {st st' : State}

theorem available (h : AgreeOff K st st') {f : Field} (hf : f ∉ K) :
    st.available f.jsonName = st'.available f.jsonName := by
  unfold State.available
  have hflag := h.flags f.jsonName fun k hk hname => hf (Field.jsonName_injective hname ▸ hk)
  rw [hflag]

/-- Writing the same value, or an influenced member, keeps the agreement. -/
theorem set (h : AgreeOff K st st') {f : Field} (htel : f ≠ .telemetryAvailable)
    {v w : f.type.denote} (hv : f ∉ influenced K → v = w) :
    AgreeOff K (st.set f v) (st'.set f w) := by
  refine ⟨fun g hg hK => ?_, ?_, fun key hkey => ?_, h.native⟩
  · by_cases hgf : g = f
    · subst hgf
      rw [State.set_field_self, State.set_field_self, hv hK]
    · rw [State.set_field_ne _ hgf, State.set_field_ne _ hgf, h.field g hg hK]
  · rw [State.set_field_ne _ htel.symm, State.set_field_ne _ htel.symm]
    exact h.present
  · rw [State.set_field_ne _ htel.symm, State.set_field_ne _ htel.symm]
    exact h.flags key hkey

/-- States with the same flags agree as far as their members do. -/
theorem of_field {st₁ st₁' : State} (h : AgreeOff K st st')
    (hst : st₁.field .telemetryAvailable = st.field .telemetryAvailable)
    (hst' : st₁'.field .telemetryAvailable = st'.field .telemetryAvailable)
    (hn : st₁.nativeESSObserved = st₁'.nativeESSObserved)
    (hf : ∀ f, f ≠ .telemetryAvailable → f ∉ influenced K → st₁.field f = st₁'.field f) :
    AgreeOff K st₁ st₁' :=
  ⟨hf, by rw [hst, hst']; exact h.present, by rw [hst, hst']; exact h.flags, hn⟩

/-- A flag set on both sides. -/
theorem setAvailable (h : AgreeOff K st st') (f : Field) (b : Bool) :
    ∃ st₁ st₁', st.setAvailable f b = some st₁ ∧ st'.setAvailable f b = some st₁' ∧
      AgreeOff K st₁ st₁' := by
  obtain ⟨st₁, h₁, hp, hf, ha, hn⟩ := State.setAvailable_spec h.present.1 f b
  obtain ⟨st₁', h₁', hp', hf', ha', hn'⟩ := State.setAvailable_spec h.present.2 f b
  refine ⟨st₁, st₁', h₁, h₁', fun g hg hK => ?_, ⟨hp, hp'⟩, fun key hkey => ?_, ?_⟩
  · rw [hf g hg, hf' g hg, h.field g hg hK]
  · rw [ha, ha', h.flags key hkey]
  · rw [hn, hn', h.native]

/-- Members cleared on both sides. -/
theorem clearAll (h : AgreeOff K st st') (b : Bool) {l : List Field}
    (hfs : .telemetryAvailable ∉ l) :
    ∃ st₁ st₁', st.clearAll b l = some st₁ ∧ st'.clearAll b l = some st₁' ∧
      AgreeOff K st₁ st₁' := by
  obtain ⟨st₁, h₁, hc⟩ := State.clearAll_spec b l hfs h.present.1
  obtain ⟨st₁', h₁', hc'⟩ := State.clearAll_spec b l hfs h.present.2
  refine ⟨st₁, st₁', h₁, h₁', fun g hg hK => ?_, ⟨hc.present, hc'.present⟩, fun key hkey => ?_,
    ?_⟩
  · by_cases hmem : g ∈ l
    · rw [hc.cleared g hg hmem, hc'.cleared g hg hmem]
    · rw [hc.frame g hg hmem, hc'.frame g hg hmem, h.field g hg hK]
  · cases hname : Field.ofName? key with
    | some g =>
      obtain rfl := Field.ofName?_eq_some_iff.mp hname
      rw [hc.avail, hc'.avail, h.flags _ hkey]
    | none =>
      have hne : ∀ g ∈ l, g.jsonName ≠ key := by
        rintro g - rfl
        rw [Field.ofName?_jsonName] at hname
        cases hname
      rw [hc.avail_other key hne, hc'.avail_other key hne, h.flags _ hkey]
  · rw [hc.native, hc'.native, h.native]

end AgreeOff

/-! ## The stages of a commit -/

namespace Client

variable {K : List Field} {F G : Frame}

/-- The first loop. -/
theorem mergeLoop_agree (c : Client) (h : Alike K F G) :
    AgreeOff K (c.mergeLoop F).1 (c.mergeLoop G).1 := by
  have hflags : ∀ {D : Frame}, NamedKeys D → (c.mergeLoop D).1.field .telemetryAvailable =
      c.initCerboMaps.state.field .telemetryAvailable := fun hD => c.mergeLoop_flags hD.exactKeys
  refine ⟨fun f htel hf => ?_, ?_, fun key _ => ?_, ?_⟩
  · rw [c.mergeLoop_field_of_named h.nodupF h.namedF htel,
      c.mergeLoop_field_of_named h.nodupG h.namedG htel, h.entry f fun hk => hf (mem_influenced hk)]
  · rw [hflags h.namedF, hflags h.namedG]
    exact ⟨c.initCerboMaps_spec.2.1, c.initCerboMaps_spec.2.1⟩
  · rw [hflags h.namedF, hflags h.namedG]
  · rw [mergeLoop, mergeLoop, foldl_mergeEntry_native, foldl_mergeEntry_native]

theorem marks_agree (c : Client) (h : Alike K F G) {f : Field} (hf : f ∉ K) :
    marks (c.mergeLoop F).2 f = marks (c.mergeLoop G).2 f := by
  rw [Bool.eq_iff_iff, c.marks_mergeLoop_iff h.nodupF, c.marks_mergeLoop_iff h.nodupG]
  unfold CarriesReading
  rw [h.entry f hf]

theorem markAvailable_cons (clean : Frame) (f : Field) (fs : List Field) (st : State) :
    markAvailable clean (f :: fs) st =
      (if marks clean f then st.setAvailable f true else some st).bind
        (markAvailable clean fs) := by
  rw [markAvailable]
  unfold marks
  split_ifs <;> rfl

/-- The second loop marks the same members, up to the differing ones. -/
theorem markAvailable_agree (c : Client) (h : Alike K F G) (fs : List Field) {st st' : State}
    (hst : AgreeOff K st st') :
    ∃ st₁ st₁', markAvailable (c.mergeLoop F).2 fs st = some st₁ ∧
      markAvailable (c.mergeLoop G).2 fs st' = some st₁' ∧ AgreeOff K st₁ st₁' := by
  induction fs generalizing st st' with
  | nil => exact ⟨st, st', rfl, rfl, hst⟩
  | cons f fs ih =>
    -- Each side marks the member or not; they differ only on a member whose flag may differ.
    have hone : ∀ (b b' : Bool), (f ∉ K → b = b') → ∃ st₁ st₁',
        (if b then st.setAvailable f true else some st) = some st₁ ∧
          (if b' then st'.setAvailable f true else some st') = some st₁' ∧
          AgreeOff K st₁ st₁' := by
      intro b b' hb
      by_cases hf : f ∈ K
      · obtain ⟨st₁, h₁, hp, hfr, ha, hn⟩ := State.setAvailable_spec hst.present.1 f true
        obtain ⟨st₁', h₁', hp', hfr', ha', hn'⟩ := State.setAvailable_spec hst.present.2 f true
        have hkey : ∀ key, (∀ k ∈ K, k.jsonName ≠ key) → key ≠ f.jsonName :=
          fun key hne heq => hne f hf heq.symm
        cases b <;> cases b'
        · exact ⟨st, st', rfl, rfl, hst⟩
        · refine ⟨st, st₁', rfl, h₁', fun g hg hK => ?_, ⟨hst.present.1, hp'⟩, fun key hne => ?_,
            hst.native.trans hn'.symm⟩
          · rw [hfr' g hg, hst.field g hg hK]
          · rw [ha', if_neg (hkey key hne), hst.flags key hne]
        · refine ⟨st₁, st', h₁, rfl, fun g hg hK => ?_, ⟨hp, hst.present.2⟩, fun key hne => ?_,
            hn.trans hst.native⟩
          · rw [hfr g hg, hst.field g hg hK]
          · rw [ha, if_neg (hkey key hne), hst.flags key hne]
        · obtain ⟨st₂, st₂', h₂, h₂', hagree⟩ := hst.setAvailable f true
          exact ⟨st₂, st₂', h₂, h₂', hagree⟩
      · obtain rfl := hb hf
        cases b
        · exact ⟨st, st', rfl, rfl, hst⟩
        · exact hst.setAvailable f true
    obtain ⟨st₁, st₁', h₁, h₁', hagree⟩ := hone (marks (c.mergeLoop F).2 f)
      (marks (c.mergeLoop G).2 f) (fun hf => c.marks_agree h hf)
    obtain ⟨st₂, st₂', h₂, h₂', hagree⟩ := ih hagree
    refine ⟨st₂, st₂', ?_, ?_, hagree⟩
    · rw [markAvailable_cons, h₁, Option.bind_some, h₂]
    · rw [markAvailable_cons, h₁', Option.bind_some, h₂']

theorem resetESSFlag_agree (c : Client) {st st' : State} (hst : AgreeOff K st st') :
    ∃ st₁ st₁', c.resetESSFlag st = some st₁ ∧ c.resetESSFlag st' = some st₁' ∧
      AgreeOff K st₁ st₁' := by
  unfold resetESSFlag
  split_ifs
  · exact ⟨st, st', rfl, rfl, hst⟩
  · exact hst.setAvailable .essMode false

end Client

/-! ### The snapshot -/

section Snapshot

variable {K : List Field} {F G : Frame} {st st' : State}

theorem resetSection_agree (h : Alike K F G) (hst : AgreeOff K st st') :
    AgreeOff K (resetSection st F) (resetSection st' G) := by
  have hw : AgreeOff K
      (if F.isEmpty then withdrawCommands ((st.set .essModeObservedAt none).set
        .gridBackupObservedAt none) else (st.set .essModeObservedAt none).set
        .gridBackupObservedAt none)
      (if G.isEmpty then withdrawCommands ((st'.set .essModeObservedAt none).set
        .gridBackupObservedAt none) else (st'.set .essModeObservedAt none).set
        .gridBackupObservedAt none) := by
    have h₂ := (hst.set (f := .essModeObservedAt) (v := none) (w := none) (by decide)
      fun _ => rfl).set (f := .gridBackupObservedAt) (v := none) (w := none) (by decide)
      fun _ => rfl
    rw [h.empty]
    split_ifs
    · exact ((h₂.set (by decide) fun _ => rfl).set (by decide) fun _ => rfl).set (by decide)
        fun _ => rfl
    · exact h₂
  exact hw.set (by decide) fun _ => by rw [h.empty]

/-- The section is decoded member by member, and its guards are not influenced. -/
theorem applyControllerFields_agree (h : Alike K F G) (hst : AgreeOff K st st') :
    AgreeOff K (applyControllerFields st F) (applyControllerFields st' G) := by
  have htel : ∀ (st : State) (D : Frame), (applyControllerFields st D).field .telemetryAvailable =
      st.field .telemetryAvailable := fun st D => by
    rw [applyControllerFields_field, sectionValue_of_notMem _ _ (by decide)]
  refine hst.of_field (htel _ _) (htel _ _) ?_ fun f hne hf => ?_
  · rw [applyControllerFields_native, applyControllerFields_native, hst.native]
  · have hK : f ∉ K := fun hk => hf (mem_influenced hk)
    rw [applyControllerFields_field, applyControllerFields_field]
    have hopen : f ∈ openControllerFields st ↔ f ∈ openControllerFields st' := by
      unfold openControllerFields
      rw [List.mem_filter, List.mem_filter, hst.available hK, hst.native]
    unfold sectionValue decodedEntry
    rw [h.entry f hK]
    by_cases hmem : f ∈ openControllerFields st
    · rw [if_pos hmem, if_pos (hopen.mp hmem)]
    · rw [if_neg hmem, if_neg fun h => hmem (hopen.mpr h), hst.field f hne hf]

theorem installESSMode_agree (hst : AgreeOff K st st') {m n : Option ESSMode}
    (hm : Field.essMode ∉ K → m = n) :
    AgreeOff K (Client.installESSMode st m) (Client.installESSMode st' n) := by
  have htel : ∀ (st : State) (m : Option ESSMode),
      (Client.installESSMode st m).field .telemetryAvailable = st.field .telemetryAvailable :=
    fun st m => Client.installESSMode_field st m fun h => by cases h
  refine hst.of_field (htel _ _) (htel _ _) ?_ fun f hne hf => ?_
  · rw [Client.installESSMode_native, Client.installESSMode_native, hst.native]
  · by_cases hess : f = .essMode
    · subst hess
      obtain rfl := hm fun hk => hf (mem_influenced hk)
      cases m with
      | none => exact hst.field _ hne hf
      | some mode =>
        exact (State.set_field_self st _ _).trans (State.set_field_self st' .essMode _).symm
    · rw [Client.installESSMode_field _ _ fun h => absurd h hess,
        Client.installESSMode_field _ _ fun h => absurd h hess, hst.field f hne hf]

theorem applyFlags_agree (hst : AgreeOff K st st') {m n : StrMap Any}
    (hm : Field.booleans ∉ K → m = n) : AgreeOff K (applyFlags st m) (applyFlags st' n) := by
  by_cases hk : Field.booleans ∈ K
  · have hin : ∀ f ∈ derivedMembers .booleans, f ∈ influenced K :=
      fun f hf => mem_influenced_of_derived hk hf
    unfold applyFlags
    refine (((((((hst.set (by decide) ?_).set (by decide) ?_).set (by decide) ?_).set (by decide)
      ?_).set (by decide) ?_).set (by decide) ?_).set (by decide) ?_).set (by decide) ?_
    · exact fun hf => absurd (mem_influenced hk) hf
    all_goals exact fun hf => absurd (hin _ (by decide)) hf
  · obtain rfl := hm hk
    unfold applyFlags
    refine (((((((hst.set (by decide) ?_).set (by decide) ?_).set (by decide) ?_).set (by decide)
      ?_).set (by decide) ?_).set (by decide) ?_).set (by decide) ?_).set (by decide) ?_
    all_goals exact fun _ => rfl

/-- The configuration with default toggles. -/
def withToggles (m : GoMap Any) (available : Bool) : GoMap Any :=
  let s : StrMap Any := m.getD ∅
  if available && ((GoMap.find (some s) "header_toggles").getD .nil).isNil then
    some (s.insert "header_toggles" formatHeaderToggles)
  else some s

theorem uiConfig_of_applyHeaderToggles {st st₁ : State} {a : Bool}
    (h : applyHeaderToggles st a = some st₁) :
    st₁.field .uiConfig = withToggles (st.field .uiConfig) a := by
  unfold applyHeaderToggles at h
  unfold withToggles
  cases hui : st.field .uiConfig with
  | none =>
    simp only [hui, Option.isSome_none, Bool.false_eq_true, if_false, State.set_field_self,
      GoMap.write_some, Option.map_some] at h
    split_ifs at h with hd
    · rw [← Option.some.inj h, State.set_field_self, Option.getD_none, if_pos hd]
    · rw [← Option.some.inj h, State.set_field_self, Option.getD_none, if_neg hd]
  | some m =>
    simp only [hui, Option.isSome_some, if_true, GoMap.write_some, Option.map_some] at h
    split_ifs at h with hd
    · rw [← Option.some.inj h, State.set_field_self, Option.getD_some, if_pos hd]
    · rw [← Option.some.inj h, hui, Option.getD_some, if_neg hd]

/-- The header toggles depend on the configuration only. -/
theorem applyHeaderToggles_agree (hst : AgreeOff K st st') {a a' : Bool} (ha : a = a') :
    ∃ st₁ st₁', applyHeaderToggles st a = some st₁ ∧ applyHeaderToggles st' a' = some st₁' ∧
      AgreeOff K st₁ st₁' := by
  subst ha
  obtain ⟨st₁, h₁, hf₁, -, hn₁⟩ := applyHeaderToggles_spec st a
  obtain ⟨st₁', h₁', hf₁', -, hn₁'⟩ := applyHeaderToggles_spec st' a
  refine ⟨st₁, st₁', h₁, h₁', hst.of_field (hf₁ _ (by decide)) (hf₁' _ (by decide)) ?_
    fun f hne hf => ?_⟩
  · rw [hn₁, hn₁', hst.native]
  · by_cases hui : f = .uiConfig
    · subst hui
      rw [uiConfig_of_applyHeaderToggles h₁, uiConfig_of_applyHeaderToggles h₁',
        hst.field _ hne hf]
    · rw [hf₁ f hui, hf₁' f hui, hst.field f hne hf]

/-- The snapshots of alike frames. -/
theorem applyControllerSnapshot_agree (h : Alike K F G) (hst : AgreeOff K st st') :
    ∃ st₁ st₁', applyControllerSnapshot st F = some st₁ ∧
      applyControllerSnapshot st' G = some st₁' ∧ AgreeOff K st₁ st₁' := by
  have hentry : ∀ f ∉ K, entry F f.jsonName = entry G f.jsonName := h.entry
  have h₁ := applyControllerFields_agree h (resetSection_agree h hst)
  have h₂ := installESSMode_agree h₁ (m := supportedESSMode F) (n := supportedESSMode G)
    fun hk => by
      have he : entry F "ess_mode" = entry G "ess_mode" := hentry _ hk
      rw [supportedESSMode, supportedESSMode, he]
  have h₃ := h₂.set (f := .dryRun) (v := (entry F "dry_run").bind Any.bool?)
    (w := (entry G "dry_run").bind Any.bool?) (by decide) fun hk => by
      have he : entry F "dry_run" = entry G "dry_run" :=
        hentry .dryRun fun h => hk (mem_influenced h)
      rw [he]
  have h₄ := applyFlags_agree h₃ (m := controllerBooleans ((entry F "booleans").getD .nil))
    (n := controllerBooleans ((entry G "booleans").getD .nil)) fun hk => by
      have he : entry F "booleans" = entry G "booleans" := hentry .booleans hk
      rw [he]
  exact applyHeaderToggles_agree h₄ (by rw [h.empty])

end Snapshot

/-! ### The client -/

namespace Client

variable {K : List Field} {F G : Frame}

/-- Two clients that agree outside what the entries of some members influence. -/
structure AgreeOff (K : List Field) (c c' : Client) : Prop where
  frame : c' = { c with
    state := c'.state
    controllerESSMode := c'.controllerESSMode
    controllerESSObserved := c'.controllerESSObserved
    overrideReceipt := c'.overrideReceipt }
  state : Dashboard.AgreeOff K c.state c'.state
  ess : Field.essMode ∉ K → c'.controllerESSMode = c.controllerESSMode ∧
    c'.controllerESSObserved = c.controllerESSObserved
  receipt : Field.setpointOverride ∉ K → c'.overrideReceipt = c.overrideReceipt

theorem initCerboMaps_of_present {c : Client} (h : (c.state.field .telemetryAvailable).isSome) :
    c.initCerboMaps = c := by
  rw [initCerboMaps, if_pos h]

theorem decodeOutputs_agree {st st' : State} (hst : Dashboard.AgreeOff K st st') {out : Overlay}
    (hnone : out.val .telemetryAvailable = none) :
    Dashboard.AgreeOff K (decodeOutputs st out) (decodeOutputs st' out) := by
  have htel : ∀ st : State, (decodeOutputs st out).field .telemetryAvailable =
      st.field .telemetryAvailable := by
    intro st
    rw [decodeOutputs_field, hnone]
    simp
  refine hst.of_field (htel _) (htel _) ?_ fun f hne hf => ?_
  · rw [decodeOutputs_native, decodeOutputs_native, hst.native]
  · rw [decodeOutputs_field, decodeOutputs_field, hst.field f hne hf]

/-- The reduction of agreeing clients. -/
theorem applyCerboOverlays_agree {c c' : Client} (h : AgreeOff K c c') :
    ∃ d d', c.applyCerboOverlays = some d ∧ c'.applyCerboOverlays = some d' ∧ AgreeOff K d d' := by
  have hout : c'.overlay = c.overlay := by
    rw [h.frame]
    rfl
  have howned : c'.ownedWithHub4 = c.ownedWithHub4 := by
    rw [h.frame]
    rfl
  have hsel : Field.essMode ∉ K → c'.selectableESSMode = c.selectableESSMode := by
    intro hk
    rw [selectableESSMode, selectableESSMode, (h.ess hk).1]
  have hnone : c.overlay.val .telemetryAvailable = none := cerboOverlay_val_eq_none _ _ (by decide)
  have hnotOwned : c.ownedWithHub4.has .telemetryAvailable = false := by
    by_contra ho
    exact absurd (c.ownedWithHub4.direct _ (by simpa using ho)) (by decide)
  have h₀ : Dashboard.AgreeOff K { c.state with nativeESSObserved := c.ownedWithHub4.has .essMode }
      { c'.state with nativeESSObserved := c.ownedWithHub4.has .essMode } :=
    h.state.of_field rfl rfl rfl h.state.field
  obtain ⟨st₁, st₁', h₁, h₁', hs₁⟩ := h₀.clearAll false
    (l := Field.all.filter fun f => c.ownedWithHub4.has f && (c.overlay.val f).isNone)
    (by simp [hnotOwned])
  obtain ⟨st₂, st₂', h₂, h₂', hs₂⟩ := hs₁.clearAll true
    (l := Field.all.filter fun f => (c.overlay.val f).isSome) (by simp [hnone])
  have hs₃ := installESSMode_agree (decodeOutputs_agree hs₂ hnone)
    (m := c.selectableESSMode) (n := c'.selectableESSMode) fun hk => (hsel hk).symm
  refine ⟨{ c with
      cerboOwned := c.ownedWithHub4.claimOutputs c.cerboLeaves c.options
      state := installESSMode (decodeOutputs st₂ c.overlay) c.selectableESSMode },
    { c' with
      cerboOwned := c.ownedWithHub4.claimOutputs c.cerboLeaves c.options
      state := installESSMode (decodeOutputs st₂' c.overlay) c'.selectableESSMode }, ?_, ?_,
    ⟨?_, hs₃, h.ess, h.receipt⟩⟩
  · simp only [applyCerboOverlays, initCerboMaps_of_present h.state.present.1,
      Option.bind_eq_bind, h₁, h₂, Option.bind_some, Option.pure_def]
  · have hleaves : c'.cerboLeaves = c.cerboLeaves := by rw [h.frame]
    have hopts : c'.options = c.options := by
      rw [h.frame]
      rfl
    simp only [applyCerboOverlays, initCerboMaps_of_present h.state.present.2, hout, howned,
      hleaves, hopts, Option.bind_eq_bind, h₁', h₂', Option.bind_some, Option.pure_def]
  · rw [h.frame]

/-- The first loop does not see what a receipt changed. -/
theorem mergeLoop_receiveState (c : Client) (data : Frame) (retained : Bool) (now : Time) :
    (c.receiveState data retained now).mergeLoop data = c.mergeLoop data := by
  unfold mergeLoop
  rw [receiveState_initCerboMaps]
  rfl

theorem receiveState_frame (c : Client) (h : Alike K F G) (retained : Bool) (now : Time) :
    c.receiveState G retained now = { c.receiveState F retained now with
        controllerESSMode := (c.receiveState G retained now).controllerESSMode
        controllerESSObserved := (c.receiveState G retained now).controllerESSObserved } ∧
      (Field.essMode ∉ K →
        (c.receiveState G retained now).controllerESSMode =
            (c.receiveState F retained now).controllerESSMode ∧
          (c.receiveState G retained now).controllerESSObserved =
            (c.receiveState F retained now).controllerESSObserved) := by
  refine ⟨rfl, fun hk => ?_⟩
  have he : entry F "ess_mode" = entry G "ess_mode" := h.entry .essMode hk
  have hess : ∀ old, essReceipts old G retained now = essReceipts old F retained now := by
    intro old
    unfold essReceipts
    rw [h.empty, he]
  exact ⟨congrArg Prod.fst (hess _), congrArg Prod.snd (hess _)⟩

/-- The merges of alike frames. -/
theorem mergeDaemonState_agree (c : Client) (h : Alike K F G) (retained : Bool) (now : Time) :
    ∃ d d', (c.receiveState F retained now).mergeDaemonState F = some d ∧
      (c.receiveState G retained now).mergeDaemonState G = some d' ∧ AgreeOff K d d' := by
  obtain ⟨hframe, hess⟩ := c.receiveState_frame h retained now
  obtain ⟨st₁, st₁', h₁, h₁', hs₁⟩ :=
    c.markAvailable_agree h directFields (c.mergeLoop_agree h)
  obtain ⟨st₂, st₂', h₂, h₂', hs₂⟩ := c.resetESSFlag_agree hs₁
  obtain ⟨st₃, st₃', h₃, h₃', hs₃⟩ := applyControllerSnapshot_agree h hs₂
  have hs₄ : AgreeOff K
      { c.receiveState F retained now with state := st₃.set .dashboardVersion c.currentVersion }
      { c.receiveState G retained now with state := st₃'.set .dashboardVersion c.currentVersion } :=
    ⟨by rw [hframe], hs₃.set (by decide) fun _ => rfl, hess, fun _ => rfl⟩
  obtain ⟨d, d', hd, hd', hagree⟩ := applyCerboOverlays_agree hs₄
  have hmerge : ∀ {D : Frame} {st₁ st₂ st₃ : State} {d : Client},
      markAvailable (c.mergeLoop D).2 directFields (c.mergeLoop D).1 = some st₁ →
      c.resetESSFlag st₁ = some st₂ → applyControllerSnapshot st₂ D = some st₃ →
      applyCerboOverlays { c.receiveState D retained now with
        state := st₃.set .dashboardVersion c.currentVersion } = some d →
      (c.receiveState D retained now).mergeDaemonState D = some d := by
    intro D st₁ st₂ st₃ d h₁ h₂ h₃ hd
    have hinit := (c.receiveState D retained now).initCerboMaps_spec.1
    have hreset : (c.receiveState D retained now).initCerboMaps.resetESSFlag st₁ = some st₂ := by
      rw [← h₂, hinit]
      rfl
    rw [mergeDaemonState_eq, mergeLoop_receiveState, h₁, Option.bind_some, hreset,
      Option.bind_some, finishMerge, h₃, Option.bind_some, hinit]
    exact hd
  exact ⟨d, d', hmerge h₁ h₂ h₃ hd, hmerge h₁' h₂' h₃' hd', hagree⟩

/-- The receipts of commands follow the entries they are for. -/
theorem observeControllerCommands_agree {c c' : Client} (h : Alike K F G) (hc : AgreeOff K c c')
    (retained : Bool) (now : Time) :
    AgreeOff K (c.observeControllerCommands F retained now)
      (c'.observeControllerCommands G retained now) := by
  have hobs := c.observeControllerCommands_spec F retained now
  have hobs' := c'.observeControllerCommands_spec G retained now
  have hstatus : Field.setpointOverride ∉ K → carriedStatus F = carriedStatus G := by
    intro hk
    have he : entry F "setpoint_override" = entry G "setpoint_override" := h.entry _ hk
    rw [carriedStatus, carriedStatus, he]
  refine ⟨?_, hc.state.of_field (hobs.field _ (by decide)) (hobs'.field _ (by decide))
    (by rw [hobs.native, hobs'.native, hc.state.native]) fun f hne hf => ?_, fun hk => ?_,
    fun hk => ?_⟩
  · have hframe := hc.frame
    rw [hobs.frame, hobs'.frame]
    rw [hframe]
  · by_cases hmem : f ∈ [Field.setpointOverride, .setpointOverrideObservedAt,
      .electricityTariffObservedAt]
    · simp only [List.mem_cons, List.not_mem_nil, or_false] at hmem
      rcases hmem with rfl | rfl | rfl
      · have hk : Field.setpointOverride ∉ K := fun hk => hf (mem_influenced hk)
        rw [hobs.override, hobs'.override, hstatus hk, hc.state.field _ hne hf]
      · have hk : Field.setpointOverride ∉ K :=
          fun hk => hf (mem_influenced_of_derived hk (by decide))
        rw [hobs.overrideObserved, hobs'.overrideObserved, hstatus hk, hc.state.field _ hne hf]
      · have he : entry F "ui_config" = entry G "ui_config" :=
          h.entry .uiConfig fun hk => hf (mem_influenced_of_derived hk (by decide))
        rw [hobs.tariffObserved, hobs'.tariffObserved, he, hc.state.field _ hne hf]
    · rw [hobs.field f hmem, hobs'.field f hmem, hc.state.field f hne hf]
  · rw [hobs.frame, hobs'.frame]
    exact hc.ess hk
  · rw [hobs.receipt, hobs'.receipt, hstatus hk, hc.receipt hk]

/-- The measurement time of the backup meter as the receipt of its status. -/
def backupObserved (st : State) : State :=
  match st.field .gridBackup with
  | some b => st.set .gridBackupObservedAt b.measurementTime
  | none => st

theorem backupObserved_field (st : State) {f : Field} (h : f ≠ .gridBackupObservedAt) :
    (backupObserved st).field f = st.field f := by
  unfold backupObserved
  split
  · exact State.set_field_ne _ h _
  · rfl

theorem backupObserved_agree {st st' : State} (hst : Dashboard.AgreeOff K st st') :
    Dashboard.AgreeOff K (backupObserved st) (backupObserved st') := by
  have hnative : ∀ st : State, (backupObserved st).nativeESSObserved = st.nativeESSObserved := by
    intro st
    unfold backupObserved
    split <;> rfl
  refine hst.of_field (backupObserved_field _ (by decide)) (backupObserved_field _ (by decide))
    (by rw [hnative, hnative, hst.native]) fun f hne hf => ?_
  by_cases hobs : f = .gridBackupObservedAt
  · subst hobs
    have hk : Field.gridBackup ∉ influenced K := by
      intro hk
      rcases List.mem_append.mp hk with hk | hk
      · exact hf (mem_influenced_of_derived hk (by decide))
      · obtain ⟨k, -, hk⟩ := List.mem_flatMap.mp hk
        cases k <;> exact absurd hk (by decide)
    unfold backupObserved
    rw [hst.field .gridBackup (by decide) hk]
    cases st'.field .gridBackup with
    | none => exact hst.field _ hne hf
    | some b =>
      exact (State.set_field_self st _ _).trans
        (State.set_field_self st' .gridBackupObservedAt _).symm
  · rw [backupObserved_field _ hobs, backupObserved_field _ hobs, hst.field f hne hf]

/-- The receipts of alike frames. -/
theorem finishState_agree {c c' : Client} (h : Alike K F G) (hc : AgreeOff K c c')
    (retained : Bool) (now : Time) :
    AgreeOff K (c.finishState F retained now) (c'.finishState G retained now) := by
  have h₁ := observeControllerCommands_agree h hc retained now
  unfold finishState
  generalize c.observeControllerCommands F retained now = d at h₁
  generalize c'.observeControllerCommands G retained now = d' at h₁
  have h₂ := h₁.state.set (f := .essModeObservedAt) (v := d.controllerESSObserved)
    (w := d'.controllerESSObserved) (by decide) fun hf =>
      (h₁.ess fun hk => hf (mem_influenced_of_derived hk (by decide))).2.symm
  refine ⟨?_, backupObserved_agree h₂, h₁.ess, h₁.receipt⟩
  rw [h₁.frame]

/-- **Independence.** The commits of alike frames agree outside what the differing entries
influence.

**Proof sketch.** Stage by stage: the first loop decodes a member from its own entry, the flags
follow it, the snapshot decodes a member of the section from its own entry again, and the reducer
and the receipts read what agrees. -/
theorem commitState_agree (c : Client) (h : Alike K F G) (retained : Bool) (now : Time) :
    ∃ d d', c.commitState F retained now = some d ∧ c.commitState G retained now = some d' ∧
      AgreeOff K d d' := by
  obtain ⟨d, d', hd, hd', hagree⟩ := c.mergeDaemonState_agree h retained now
  refine ⟨d.finishState F retained now, d'.finishState G retained now, ?_, ?_,
    finishState_agree h hagree retained now⟩
  · rw [commitState, hd]
    rfl
  · rw [commitState, hd']
    rfl

/-! ## The callback -/

/-- `applyControllerMessage` on a state frame that is visited in the given order. -/
def applyInOrder (c : Client) (order : Frame) (retained : Bool) (session generation : ℕ)
    (now : Time) : Option Client :=
  if c.sourceCurrent generation session then
    (c.commitController false order retained now).map fun c => { c with lastStateTime := some now }
  else some c

theorem applyControllerMessage_eq (c : Client) {payload : Payload} {data : Frame}
    (h : decodeControllerState payload = some data) (retained : Bool) (session generation : ℕ)
    (now : Time) : c.applyControllerMessage payload retained session generation false now =
      c.applyInOrder data retained session generation now := by
  have hd : controllerFrame false payload = some data := h
  rw [applyControllerMessage, hd]
  rfl

/-- After two frames the clients are the same, apart from what the entries of some members
influence: these members, their flags and the derived members, and with the ESS mode its cache, with
the override the count of its receipts. -/
structure SameOff (K : List Field) (c c' : Client) : Prop where
  frame : c' = { c with
    state := c'.state
    controllerESSMode := c'.controllerESSMode
    controllerESSObserved := c'.controllerESSObserved
    overrideReceipt := c'.overrideReceipt }
  field : ∀ f, f ≠ .telemetryAvailable → f ∉ influenced K → c.state.field f = c'.state.field f
  flags : ∀ key, (∀ k ∈ K, k.jsonName ≠ key) →
    (c.state.field .telemetryAvailable).find key = (c'.state.field .telemetryAvailable).find key
  native : c.state.nativeESSObserved = c'.state.nativeESSObserved
  ess : Field.essMode ∉ K → c'.controllerESSMode = c.controllerESSMode ∧
    c'.controllerESSObserved = c.controllerESSObserved
  receipt : Field.setpointOverride ∉ K → c'.overrideReceipt = c.overrideReceipt

theorem SameOff.refl (K : List Field) (c : Client) : SameOff K c c :=
  ⟨rfl, fun _ _ _ => rfl, fun _ _ => rfl, rfl, fun _ => ⟨rfl, rfl⟩, fun _ => rfl⟩

theorem applyInOrder_agree (c : Client) (h : Alike K F G) (retained : Bool)
    (session generation : ℕ) (now : Time) :
    ∃ d d', c.applyInOrder F retained session generation now = some d ∧
      c.applyInOrder G retained session generation now = some d' ∧ SameOff K d d' := by
  unfold applyInOrder
  split_ifs
  · obtain ⟨d, d', hd, hd', hagree⟩ := c.commitState_agree h retained now
    refine ⟨{ d with lastStateTime := some now }, { d' with lastStateTime := some now }, ?_, ?_,
      ⟨?_, hagree.state.field, hagree.state.flags, hagree.state.native, hagree.ess,
        hagree.receipt⟩⟩
    · rw [commitController, if_neg Bool.false_ne_true, hd]
      rfl
    · rw [commitController, if_neg Bool.false_ne_true, hd']
      rfl
    · rw [hagree.frame]
  · exact ⟨c, c, rfl, rfl, SameOff.refl K c⟩

/-- A frame is alike to itself in any order. -/
theorem alike_of_perm {order : Frame} (hp : order.Perm F) (hn : (F.map Prod.fst).Nodup)
    (hnamed : NamedKeys F) : Alike [] F order :=
  ⟨hn, (hp.map Prod.fst).nodup_iff.mpr hn, hnamed, fun e he => hnamed e (hp.mem_iff.mp he),
    by rw [Bool.eq_iff_iff, List.isEmpty_iff, List.isEmpty_iff]
       exact ⟨fun h => List.perm_nil.mp (h ▸ hp), fun h => List.nil_perm.mp (h ▸ hp)⟩,
    fun f _ => (entry_eq_of_perm hp hn f.jsonName).symm⟩

end Client

end Dashboard
