import InverterDashboard.Mqtt.Callbacks

set_option relaxedAutoImplicit false
set_option autoImplicit false

/-!
# Withdrawing permissions

Specifications of the sections that take permissions away: expiry, a lost connection, a source
switch; and of the state section of `Subscribe`.

## Main definitions

* `Dashboard.Client.SameView` — the two clients agree on everything a permission is read from.
* `Dashboard.Client.Withdrawn` — every receipt of the controller is gone.

## Main results

* `Dashboard.Client.expireOptionalTelemetry_spec`, `clearOptionalTelemetry_spec`,
  `clearSource_spec`, `connectionLost_spec` — the sections withdraw, and none of them panics.
* `Dashboard.Client.subscribe_spec` — `Subscribe` reduces an empty cache.
-/

namespace Dashboard

open Go

namespace Client

/-- The members a permission is read from. -/
def permissionFields : List Field :=
  [.inverterAvailable, .setpointOverride, .setpointOverrideObservedAt,
    .electricityTariffObservedAt, .uiConfig, .essMode, .essModeObservedAt, .dryRun]

/-- The two clients agree on everything a permission is read from. -/
structure SameView (c c' : Client) : Prop where
  field : ∀ f ∈ permissionFields, c'.state.field f = c.state.field f
  flags : ∀ key, c'.state.available key = c.state.available key
  native : c'.state.nativeESSObserved = c.state.nativeESSObserved
  owned : c'.cerboOwned = c.cerboOwned
  leaves : c'.cerboLeaves = c.cerboLeaves
  options : c'.options = c.options
  water : c'.waterModeObserved = c.waterModeObserved
  live : c'.controllerLiveAt = c.controllerLiveAt
  essMode : c'.controllerESSMode = c.controllerESSMode
  essObserved : c'.controllerESSObserved = c.controllerESSObserved

namespace SameView

theorem refl (c : Client) : SameView c c :=
  ⟨fun _ _ => rfl, fun _ => rfl, rfl, rfl, rfl, rfl, rfl, rfl, rfl, rfl⟩

theorem trans {a b c : Client} (h : SameView a b) (h' : SameView b c) : SameView a c :=
  ⟨fun f hf => (h'.field f hf).trans (h.field f hf), fun key => (h'.flags key).trans (h.flags key),
    h'.native.trans h.native,
    h'.owned.trans h.owned, h'.leaves.trans h.leaves, h'.options.trans h.options,
    h'.water.trans h.water, h'.live.trans h.live, h'.essMode.trans h.essMode,
    h'.essObserved.trans h.essObserved⟩

variable {c c' : Client} (h : SameView c c')
include h

theorem overlay : c'.overlay = c.overlay := by
  rw [Client.overlay, Client.overlay, h.leaves, h.options]

theorem waterInstance (d : WaterDevice) : c'.waterInstance d = c.waterInstance d := by
  cases d
  · exact congrArg CerboOptions.pumpInstance h.options
  · exact congrArg CerboOptions.valveInstance h.options

end SameView

/-- Setting a member that no permission is read from keeps the view. -/
theorem sameView_set (c : Client) {f : Field} (hf : f ∉ permissionFields)
    (htel : f ≠ .telemetryAvailable) (v : f.type.denote) :
    SameView c { c with state := c.state.set f v } := by
  refine ⟨fun g hg => ?_, fun key => ?_, rfl, rfl, rfl, rfl, rfl, rfl, rfl, rfl⟩
  · have hne : g ≠ f := by
      rintro rfl
      exact hf hg
    exact State.set_field_ne _ hne _
  · rw [State.available, State.set_field_ne _ htel.symm]
    rfl

theorem BannersOnly.sameView {c c' : Client} (h : BannersOnly c c') : SameView c c' := by
  obtain ⟨l, slots, seen, alarms, rfl⟩ := h
  exact (c.sameView_set (f := .notifications) (by decide) (by decide) l).trans
    ⟨fun _ _ => rfl, fun _ => rfl, rfl, rfl, rfl, rfl, rfl, rfl, rfl, rfl⟩

theorem onCameraMessage_sameView (c : Client) (p : CameraText) :
    SameView c (c.onCameraMessage p) :=
  c.sameView_set (f := .cameraEvent) (by decide) (by decide) _

theorem applyPortalMessage_sameView (c : Client) (p : PortalText) (generation session : ℕ) :
    SameView c (c.applyPortalMessage p generation session) := by
  unfold applyPortalMessage acceptPortal
  split_ifs <;> exact ⟨fun _ _ => rfl, fun _ => rfl, rfl, rfl, rfl, rfl, rfl, rfl, rfl, rfl⟩

theorem initCerboMaps_sameView (c : Client) : SameView c c.initCerboMaps := by
  obtain ⟨hinit, -, hfield, havail, hnative⟩ := c.initCerboMaps_spec
  refine ⟨fun f hf => hfield f (by rintro rfl; revert hf; decide), havail, hnative, ?_, ?_, ?_, ?_,
    ?_, ?_, ?_⟩ <;> rw [hinit]
  rfl

/-- The result of `handleCerboDevice`: a rejected message, or a reduced cache. -/
def DeviceHandled (c : Client) (parts : List String) (payload : Payload) (changed : Bool)
    (c₁ : Client) : Prop :=
  changed = false ∧ (c₁ = c ∨ c₁ = c.initCerboMaps) ∨
    changed = true ∧ ∃ c₀, Stored c parts payload c₀ ∧ Overlaid c₀ c₁

/-- What a device message leaves alone: the members outside the native telemetry, the receipts and
the portal. -/
structure DeviceFrame (c c₁ : Client) : Prop where
  field : ∀ f, f ∉ directFields → f ≠ .telemetryAvailable → c₁.state.field f = c.state.field f
  flags : ∀ key, c₁.state.available key = true →
    c.state.available key = true ∨ ∃ f ∈ directFields, f.jsonName = key
  owned : ∀ f, c.cerboOwned.has f = true → c₁.cerboOwned.has f = true
  water : c₁.waterModeObserved = c.waterModeObserved
  live : c₁.controllerLiveAt = c.controllerLiveAt
  portal : c₁.portalID = c.portalID
  options : c₁.options = c.options
  essMode : c₁.controllerESSMode = c.controllerESSMode
  essObserved : c₁.controllerESSObserved = c.controllerESSObserved

theorem DeviceHandled.frame {c c₁ : Client} {parts : List String} {payload : Payload}
    {changed : Bool} (h : DeviceHandled c parts payload changed c₁) : DeviceFrame c c₁ := by
  obtain ⟨hinit, -, hfield, havail, -⟩ := c.initCerboMaps_spec
  rcases h with ⟨-, rfl | rfl⟩ | ⟨-, c₀, hst, hov⟩
  · exact ⟨fun _ _ _ => rfl, fun _ h => Or.inl h, fun _ h => h, rfl, rfl, rfl, rfl, rfl, rfl⟩
  · refine ⟨fun f _ htel => hfield f htel, fun key h => Or.inl (havail key ▸ h), fun f h => ?_, ?_,
      ?_, ?_, ?_, ?_, ?_⟩ <;> rw [hinit]
    · exact h
    · rfl
  · have hst₀ : c₀.state = c.initCerboMaps.state := by rw [hst.frame]
    refine ⟨fun f hf htel => ?_, fun key hk => ?_, fun f hf => ?_, ?_, ?_, ?_, ?_, ?_, ?_⟩
    · rw [hov.field_of_not_direct hf htel, hst₀, hfield f htel]
    · rcases hov.flags hk with hk | hk
      · exact Or.inl (havail key ▸ hst₀ ▸ hk)
      · exact Or.inr hk
    · exact hov.owned_of_owned (hst.owned f hf)
    all_goals rw [hov.frame, hst.frame]
    rfl

/-! ## Withdrawal -/

/-- The receipts of the controller are gone and no flag was raised. The cache is as before, or it
is empty and no reading is available. -/
structure Withdrawn (c c' : Client) : Prop where
  inverter : c'.state.field .inverterAvailable = some false
  override : c'.state.field .setpointOverrideObservedAt = none
  tariff : c'.state.field .electricityTariffObservedAt = none
  ess : c'.state.field .essModeObservedAt = none
  uiConfig : c.state.available "ui_config" = false →
    writableRevision (c'.state.field .uiConfig) = none
  flags : ∀ key, c'.state.available key = true → c.state.available key = true
  native : c'.state.nativeESSObserved = c.state.nativeESSObserved
  owned : c'.cerboOwned = c.cerboOwned
  options : c'.options = c.options
  leaves : c'.cerboLeaves = c.cerboLeaves ∨
    c'.cerboLeaves = ∅ ∧ ∀ f ∈ directFields, c'.state.available f.jsonName = false

/-- An empty section has no writable tariff. -/
theorem writableRevision_of_snapshot_nil {st st' : State} (h : Snapshotted st [] st')
    (hui : st.available "ui_config" = false) :
    writableRevision (st'.field .uiConfig) = none := by
  have hopen : Field.uiConfig ∈ openControllerFields st := by
    unfold openControllerFields
    rw [List.mem_filter]
    refine ⟨by decide, ?_⟩
    show (!(st.available "ui_config" || _)) = true
    rw [hui]
    rfl
  have hfind : (st'.field .uiConfig).find "electricity_tariff_status" = none := by
    rw [h.uiConfig _ (by decide), sectionValue, if_pos hopen]
    rfl
  unfold writableRevision
  rw [hfind]
  rfl

/-- A snapshot keeps every flag. -/
theorem Snapshotted.available {st st' : State} {data : Frame} (h : Snapshotted st data st')
    (key : String) : st'.available key = st.available key := by
  rw [State.available, h.frame _ (by decide)]
  rfl

/-- A withdrawn section: what an empty snapshot of `st` leaves, whatever else the client is. -/
theorem withdrawn_of_snapshot {c c' : Client} {st : State} (hs : Snapshotted st [] c'.state)
    (hflags : ∀ key, st.available key = true → c.state.available key = true)
    (hnative : st.nativeESSObserved = c.state.nativeESSObserved)
    (howned : c'.cerboOwned = c.cerboOwned) (hopt : c'.options = c.options)
    (hleaves : c'.cerboLeaves = c.cerboLeaves) : Withdrawn c c' where
  inverter := hs.inverterAvailable
  override := hs.overrideObserved
  tariff := hs.tariffObserved
  ess := hs.essObserved
  uiConfig h := writableRevision_of_snapshot_nil hs (by
    by_contra hk
    rw [hflags _ (by simpa using hk)] at h
    cases h)
  flags key hk := hflags key (Snapshotted.available hs key ▸ hk)
  native := hs.native.trans hnative
  owned := howned
  options := hopt
  leaves := Or.inl hleaves

/-- A reset of the ESS flag on a present map succeeds. -/
theorem resetESSFlag_isSome (c : Client) {st : State}
    (h : (st.field .telemetryAvailable).isSome) : ∃ st', c.resetESSFlag st = some st' := by
  unfold resetESSFlag
  split_ifs
  · exact ⟨st, rfl⟩
  · obtain ⟨st', h', -⟩ := State.setAvailable_spec h .essMode false
    exact ⟨st', h'⟩

/-- Expiry does nothing or withdraws; it never panics. -/
theorem expireOptionalTelemetry_spec (c : Client) (now : Time) :
    ∃ c', c.expireOptionalTelemetry now = some c' ∧ SameTransport c c' ∧
      c'.portalID = c.portalID ∧
      (SameView c c' ∨ Withdrawn c c' ∧ c'.waterModeObserved = c.waterModeObserved ∧
        c'.cerboLeaves = c.cerboLeaves ∧ c'.controllerESSMode = none ∧
        c'.controllerESSObserved = none ∧ c'.controllerLiveAt = none) := by
  obtain ⟨hinit, hpres, -, havail, hnative⟩ := c.initCerboMaps_spec
  have hsame : ∃ c', some c.initCerboMaps = some c' ∧ SameTransport c c' ∧
      c'.portalID = c.portalID ∧ SameView c c' :=
    ⟨_, rfl, c.initCerboMaps_sameTransport, by rw [hinit], c.initCerboMaps_sameView⟩
  unfold expireOptionalTelemetry
  dsimp only
  cases hseen : c.initCerboMaps.controllerLastSeen with
  | none =>
    obtain ⟨c', h, ht, hp, hv⟩ := hsame
    exact ⟨c', h, ht, hp, Or.inl hv⟩
  | some seen =>
    dsimp only
    split_ifs
    · obtain ⟨st₁, h₁⟩ := c.initCerboMaps.resetESSFlag_isSome hpres
      obtain ⟨-, hn, ha, -⟩ := c.initCerboMaps.resetESSFlag_of_eq_some h₁
      obtain ⟨st₂, h₂, hs⟩ := applyControllerSnapshot_spec st₁ []
      refine ⟨_, by rw [h₁, Option.bind_eq_bind, Option.bind_some, h₂]; rfl, ?_, ?_, Or.inr ⟨?_, ?_,
        ?_, rfl, rfl, rfl⟩⟩
      · exact c.initCerboMaps_sameTransport.trans ⟨rfl, rfl, rfl, rfl, rfl, rfl, rfl, rfl⟩
      · rw [hinit]
      · refine withdrawn_of_snapshot hs (fun key hk => havail key ▸ ha key hk) (hn.trans hnative) ?_
          ?_ ?_ <;> rw [hinit]
        rfl
      · rw [hinit]
      · rw [hinit]
    · obtain ⟨c', h, ht, hp, hv⟩ := hsame
      exact ⟨c', h, ht, hp, Or.inl hv⟩

/-- Clearing members with their flags raises no flag. -/
theorem available_of_clearedBy {fs : List Field} {st st' : State}
    (h : State.ClearedBy false fs st st') {key : String} (hk : st'.available key = true) :
    st.available key = true := by
  cases hn : Field.ofName? key with
  | none =>
    have hne : ∀ g ∈ fs, g.jsonName ≠ key := fun g _ hg => by
      rw [← hg, Field.ofName?_jsonName] at hn
      cases hn
    rw [State.available, h.avail_other key hne] at hk
    exact hk
  | some g =>
    obtain rfl := Field.ofName?_eq_some_iff.mp hn
    rw [State.available, h.avail g] at hk
    split_ifs at hk
    · cases hk
    · exact hk

/-- `clearOptionalTelemetry` withdraws; it never panics. -/
theorem clearOptionalTelemetry_spec (c : Client) :
    ∃ c', c.clearOptionalTelemetry = some c' ∧ SameTransport c c' ∧ Withdrawn c c' ∧
      c'.portalID = c.portalID ∧ c'.cerboLeaves = c.cerboLeaves ∧
      c'.waterModeObserved = c.waterModeObserved ∧ c'.controllerLiveAt = none ∧
      c'.controllerESSMode = none ∧ c'.controllerESSObserved = none := by
  obtain ⟨hinit, hpres, -, havail, hnative⟩ := Client.initCerboMaps_spec
    { c with controllerESSMode := none, controllerESSObserved := none }
  obtain ⟨st₁, h₁, hcl⟩ := State.clearAll_spec false optionalFields (by decide) hpres
  obtain ⟨st₂, h₂, hs⟩ := applyControllerSnapshot_spec st₁ []
  refine ⟨_, by rw [clearOptionalTelemetry, Option.bind_eq_bind, h₁, Option.bind_some, h₂]; rfl,
    ?_, ?_, ?_, ?_, ?_, rfl, ?_, ?_⟩
  · rw [hinit]
    exact ⟨rfl, rfl, rfl, rfl, rfl, rfl, rfl, rfl⟩
  · refine withdrawn_of_snapshot hs (fun key hk => ?_) (hcl.native.trans hnative) ?_ ?_ ?_
    · have hk := available_of_clearedBy hcl hk
      rwa [havail] at hk
    all_goals rw [hinit]
    rfl
  all_goals rw [hinit]

/-- The second section of a source switch withdraws everything; it never panics. -/
theorem clearSource_spec (c : Client) :
    ∃ c', c.clearSource = some c' ∧ SameTransport c c' ∧ Withdrawn c c' ∧
      c'.portalID = c.portalID ∧ c'.cerboLeaves = c.cerboLeaves ∧
      c'.waterModeObserved = (fun _ => none) ∧ c'.controllerLiveAt = none ∧
      c'.controllerESSMode = none ∧ c'.controllerESSObserved = none := by
  obtain ⟨c₁, h₁, ht, hw, hp, hl, -, hlive, hm, ho⟩ :=
    ({ c with nativeLastSeen := none }).clearOptionalTelemetry_spec
  refine ⟨{ c₁ with waterModeObserved := fun _ => none }, by rw [clearSource, h₁]; rfl, ?_, ?_, hp,
    hl, rfl, hlive, hm, ho⟩
  · exact ⟨ht.generation, ht.session, ht.opened, ht.gateway, ht.connected, ht.publish, ht.keepalive,
      ht.options⟩
  · exact ⟨hw.inverter, hw.override, hw.tariff, hw.ess, hw.uiConfig, hw.flags, hw.native, hw.owned,
      hw.options, hw.leaves⟩

/-- The state section of `invalidateCerbo` withdraws and empties the cache. -/
theorem invalidateState_spec (c : Client) :
    ∃ c', c.invalidateState = some c' ∧ SameTransport c c' ∧ Withdrawn c c' ∧
      c'.portalID = c.portalID ∧ c'.cerboLeaves = ∅ ∧
      c'.waterModeObserved = c.waterModeObserved ∧ c'.controllerLiveAt = c.controllerLiveAt ∧
      c'.controllerESSMode = c.controllerESSMode ∧
      c'.controllerESSObserved = c.controllerESSObserved := by
  obtain ⟨hinit, hpres, -, havail, hnative⟩ := c.initCerboMaps_spec
  obtain ⟨st₁, h₁, hs⟩ := applyControllerSnapshot_spec c.initCerboMaps.state []
  have hpres₁ : (st₁.field .telemetryAvailable).isSome := by
    rw [hs.frame _ (by decide)]
    exact hpres
  obtain ⟨st₂, h₂, hcl⟩ := State.clearAll_spec false directFields (by decide) hpres₁
  refine ⟨_, by rw [invalidateState, Option.bind_eq_bind, h₁, Option.bind_some, h₂]; rfl,
    ?_, ?_, ?_, rfl, ?_, ?_, ?_, ?_⟩
  · rw [hinit]
    exact ⟨rfl, rfl, rfl, rfl, rfl, rfl, rfl, rfl⟩
  · have hpass : ∀ f, f ≠ .telemetryAvailable → f ∉ directFields →
        st₂.field f = st₁.field f := hcl.frame
    refine ⟨?_, ?_, ?_, ?_, fun hui => ?_, fun key hk => ?_, ?_, ?_, ?_,
      Or.inr ⟨rfl, fun f hf => ?_⟩⟩
    · rw [hpass _ (by decide) (by decide), hs.inverterAvailable]
      rfl
    · rw [hpass _ (by decide) (by decide), hs.overrideObserved]
      rfl
    · rw [hpass _ (by decide) (by decide), hs.tariffObserved]
      rfl
    · rw [hpass _ (by decide) (by decide), hs.essObserved]
    · show writableRevision (st₂.field .uiConfig) = none
      rw [hpass _ (by decide) (by decide)]
      exact writableRevision_of_snapshot_nil hs (by rw [havail, hui])
    · have hk := available_of_clearedBy hcl hk
      rwa [Snapshotted.available hs, havail] at hk
    · exact (hcl.native.trans hs.native).trans hnative
    · rw [hinit]
    · rw [hinit]
      rfl
    · show st₂.available f.jsonName = false
      rw [State.available, hcl.avail, if_pos hf]
      rfl
  all_goals rw [hinit]

/-! ## Sessions -/

/-- A new session: everything a permission is read from stays. -/
theorem advanceMQTTSession_spec (c : Client) : SameView c c.advanceMQTTSession ∧
    c.advanceMQTTSession.mqttSession = c.mqttSession + 1 ∧
    c.advanceMQTTSession.pushGeneration = c.pushGeneration ∧
    c.advanceMQTTSession.gatewayMode = c.gatewayMode ∧
    c.advanceMQTTSession.portalID = c.portalID ∧
    c.advanceMQTTSession.connectionOpen = c.connectionOpen := by
  have h := ({ c with mqttSession := c.mqttSession + 1 }).resetNativeNotifications_frame
    (!c.gatewayMode)
  have ht := h.sameTransport
  have hp : c.advanceMQTTSession.portalID = c.portalID := h.portalID
  have h₀ : SameView c { c with mqttSession := c.mqttSession + 1 } :=
    ⟨fun _ _ => rfl, fun _ => rfl, rfl, rfl, rfl, rfl, rfl, rfl, rfl, rfl⟩
  exact ⟨h₀.trans h.sameView, ht.session, ht.generation, ht.gateway, hp, ht.opened⟩

/-- A new generation: everything a permission is read from stays. -/
theorem resetMQTTPush_spec (c : Client) : SameView c c.resetMQTTPush ∧
    c.resetMQTTPush.mqttSession = c.mqttSession ∧ c.resetMQTTPush.portalID = c.portalID ∧
    c.resetMQTTPush.gatewayMode = c.gatewayMode ∧
    c.resetMQTTPush.connectionOpen = c.connectionOpen := by
  unfold resetMQTTPush
  split_ifs
  · exact ⟨SameView.refl c, rfl, rfl, rfl, rfl⟩
  · exact ⟨⟨fun _ _ => rfl, fun _ => rfl, rfl, rfl, rfl, rfl, rfl, rfl, rfl, rfl⟩, rfl, rfl,
      rfl, rfl⟩

/-- What is withdrawn after the view was kept is withdrawn. -/
theorem Withdrawn.of_sameView {a b c : Client} (h : SameView a b) (hw : Withdrawn b c) :
    Withdrawn a c where
  inverter := hw.inverter
  override := hw.override
  tariff := hw.tariff
  ess := hw.ess
  uiConfig hui := hw.uiConfig (by rw [h.flags, hui])
  flags key hk := h.flags key ▸ hw.flags key hk
  native := hw.native.trans h.native
  owned := hw.owned.trans h.owned
  options := hw.options.trans h.options
  leaves := h.leaves ▸ hw.leaves

/-- The connection-lost handler withdraws, empties the cache and starts a session. -/
theorem connectionLost_spec (c : Client) :
    ∃ c', c.connectionLost = some c' ∧ Withdrawn c c' ∧ c'.portalID = c.portalID ∧
      c'.cerboLeaves = ∅ ∧ c'.mqttSession = c.mqttSession + 1 ∧
      c'.gatewayMode = c.gatewayMode ∧ c'.controllerESSMode = c.controllerESSMode ∧
      c'.controllerESSObserved = c.controllerESSObserved := by
  obtain ⟨hv₁, hs₁, -, hg₁, hp₁, -⟩ := c.advanceMQTTSession_spec
  obtain ⟨hv₂, hs₂, hp₂, hg₂, -⟩ := Client.resetMQTTPush_spec
    { c.advanceMQTTSession.stopKeepalive with connectionOpen := false }
  obtain ⟨c', h, ht, hw, hp, hl, -, -, hm, ho⟩ := Client.invalidateState_spec
    { c.advanceMQTTSession.stopKeepalive with connectionOpen := false }.resetMQTTPush
  have h₀ : SameView c.advanceMQTTSession
      { c.advanceMQTTSession.stopKeepalive with connectionOpen := false } :=
    ⟨fun _ _ => rfl, fun _ => rfl, rfl, rfl, rfl, rfl, rfl, rfl, rfl, rfl⟩
  have hv := (hv₁.trans h₀).trans hv₂
  exact ⟨c', h, hw.of_sameView hv, hp.trans (hp₂.trans hp₁), hl, ht.session.trans (hs₂.trans hs₁),
    ht.gateway.trans (hg₂.trans hg₁), hm.trans hv.essMode, ho.trans hv.essObserved⟩

/-- `Subscribe` either fails its checks or reduces an empty cache in a new session. -/
theorem subscribe_spec (c : Client) (o : SubscribeOutcome) :
    ∃ c' ok, c.subscribe o = some (c', ok) ∧ c'.portalID = c.portalID ∧
      c'.gatewayMode = c.gatewayMode ∧
      (c.canSubscribe = false ∧ SameView c c' ∧ c'.mqttSession = c.mqttSession ∧
          c'.connectionOpen = c.connectionOpen ∨
        c.canSubscribe = true ∧ c'.mqttSession = c.mqttSession + 1 ∧
          ∃ c₁ c₂, SameView { c with cerboLeaves := ∅ } c₁ ∧ Overlaid c₁ c₂ ∧ SameView c₂ c') := by
  unfold subscribe
  have hcan : ({ c with subscriptionsEnabled := true } : Client).canSubscribe = c.canSubscribe :=
      rfl
  dsimp only
  rw [hcan]
  cases hc : c.canSubscribe with
  | false =>
    exact ⟨_, _, rfl, rfl, rfl, Or.inl ⟨rfl,
      ⟨fun _ _ => rfl, fun _ => rfl, rfl, rfl, rfl, rfl, rfl, rfl, rfl, rfl⟩, rfl, rfl⟩⟩
  | true =>
    obtain ⟨hv₁, hs₁, -, hg₁, hp₁, -⟩ :=
      ({ c with subscriptionsEnabled := true } : Client).advanceMQTTSession_spec
    obtain ⟨hv₂, hs₂, hp₂, hg₂, -⟩ := Client.resetMQTTPush_spec
      ({ c with subscriptionsEnabled := true } : Client).advanceMQTTSession
    obtain ⟨c₂, h₂, hov⟩ := Client.applyCerboOverlays_spec
      { ({ c with subscriptionsEnabled := true } : Client).advanceMQTTSession.resetMQTTPush with
        cerboLeaves := ∅ }
    have hv := hv₁.trans hv₂
    have hp : c₂.portalID = c.portalID := by
      rw [hov.frame]
      exact hp₂.trans hp₁
    have hst := hov.sameTransport
    have hkeep : SameView c₂ (c₂.startKeepalive o.sent) ∧
        (c₂.startKeepalive o.sent).portalID = c₂.portalID ∧
        (c₂.startKeepalive o.sent).gatewayMode = c₂.gatewayMode ∧
        (c₂.startKeepalive o.sent).mqttSession = c₂.mqttSession := by
      unfold startKeepalive publishKeepalive
      split_ifs <;>
        exact ⟨⟨fun _ _ => rfl, fun _ => rfl, rfl, rfl, rfl, rfl, rfl, rfl, rfl, rfl⟩, rfl,
          rfl, rfl⟩
    have hc₁ : SameView { c with cerboLeaves := ∅ }
        { ({ c with subscriptionsEnabled := true } : Client).advanceMQTTSession.resetMQTTPush with
          cerboLeaves := ∅ } :=
      ⟨hv.field, hv.flags, hv.native, hv.owned, rfl, hv.options, hv.water, hv.live, hv.essMode,
        hv.essObserved⟩
    have hsess := hst.session.trans (hs₂.trans hs₁)
    have hgate := hst.gateway.trans (hg₂.trans hg₁)
    rw [subscribeOverlay, h₂]
    cases o.granted with
    | true =>
      exact ⟨_, _, rfl, hkeep.2.1.trans hp, hkeep.2.2.1.trans hgate,
        Or.inr ⟨rfl, hkeep.2.2.2.trans hsess, _, c₂, hc₁, hov, hkeep.1⟩⟩
    | false =>
      exact ⟨_, _, rfl, hp, hgate, Or.inr ⟨rfl, hsess, _, c₂, hc₁, hov, SameView.refl c₂⟩⟩

end Client

end Dashboard
