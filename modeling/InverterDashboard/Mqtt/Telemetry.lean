import InverterDashboard.Mqtt.Withdraw

set_option relaxedAutoImplicit false
set_option autoImplicit false

/-!
# What a callback does to the native telemetry

Only two callbacks reach the members of `directFields`: a device message, which changes the cache
and reduces it again, and a frame on `inverter/state`, which is merged before the overlay is put on
top of it. Every other callback leaves the telemetry, its flags, the claims and the cache alone, and
so do the sections of the sessions apart from the reduction of an emptied cache.

## Main definitions

* `Dashboard.Client.SameTelemetry` — the telemetry and everything it is reduced from agree.
* `Dashboard.Client.Told` — what a delivery did to the telemetry.
* `Dashboard.Client.Expired`, `Dashboard.Client.Emptied` — what an expiry and a lost connection did.

## Main results

* `Dashboard.Client.deliver_told` — a delivery, case by case.
* `Dashboard.Client.expire_telemetry`, `connectionLost_emptied`, `subscribe_telemetry` — the other
  sections.
-/

namespace Dashboard

open Go

namespace Client

/-! ## The same telemetry -/

/-- The two clients agree on the native telemetry, its flags and what they are reduced from. -/
structure SameTelemetry (c c' : Client) : Prop where
  field : ∀ f ∈ directFields, c'.state.field f = c.state.field f
  flags : ∀ key, c'.state.available key = c.state.available key
  native : c'.state.nativeESSObserved = c.state.nativeESSObserved
  owned : c'.cerboOwned = c.cerboOwned
  leaves : c'.cerboLeaves = c.cerboLeaves
  options : c'.options = c.options
  essMode : c'.controllerESSMode = c.controllerESSMode

namespace SameTelemetry

theorem refl (c : Client) : SameTelemetry c c :=
  ⟨fun _ _ => rfl, fun _ => rfl, rfl, rfl, rfl, rfl, rfl⟩

theorem trans {a b c : Client} (h : SameTelemetry a b) (h' : SameTelemetry b c) :
    SameTelemetry a c :=
  ⟨fun f hf => (h'.field f hf).trans (h.field f hf), fun key => (h'.flags key).trans (h.flags key),
    h'.native.trans h.native, h'.owned.trans h.owned, h'.leaves.trans h.leaves,
    h'.options.trans h.options, h'.essMode.trans h.essMode⟩

variable {c c' : Client} (h : SameTelemetry c c')
include h

theorem overlay : c'.overlay = c.overlay := by
  rw [Client.overlay, Client.overlay, h.leaves, h.options]

theorem selectable : c'.selectableESSMode = c.selectableESSMode := by
  rw [selectableESSMode, selectableESSMode, h.essMode]

end SameTelemetry

/-- Setting a member outside the telemetry. -/
theorem sameTelemetry_set (c : Client) {f : Field} (hf : f ∉ directFields)
    (htel : f ≠ .telemetryAvailable) (v : f.type.denote) :
    SameTelemetry c { c with state := c.state.set f v } := by
  refine ⟨fun g hg => ?_, fun key => ?_, rfl, rfl, rfl, rfl, rfl⟩
  · have hne : g ≠ f := by
      rintro rfl
      exact hf hg
    exact State.set_field_ne _ hne _
  · rw [State.available, State.set_field_ne _ htel.symm]
    rfl

theorem BannersOnly.sameTelemetry {c c' : Client} (h : BannersOnly c c') : SameTelemetry c c' := by
  obtain ⟨l, slots, seen, alarms, rfl⟩ := h
  have hset : SameTelemetry c { c with state := c.state.set .notifications l } :=
    c.sameTelemetry_set (by decide) (by decide) l
  exact hset.trans ⟨fun _ _ => rfl, fun _ => rfl, rfl, rfl, rfl, rfl, rfl⟩

theorem onCameraMessage_sameTelemetry (c : Client) (p : CameraText) :
    SameTelemetry c (c.onCameraMessage p) := by
  have hset : SameTelemetry c
      { c with state := c.state.set .cameraEvent (some (cameraEventOf p)) } :=
    c.sameTelemetry_set (by decide) (by decide) _
  exact hset

theorem applyPortalMessage_sameTelemetry (c : Client) (p : PortalText) (generation session : ℕ) :
    SameTelemetry c (c.applyPortalMessage p generation session) := by
  unfold applyPortalMessage acceptPortal
  split_ifs <;> exact ⟨fun _ _ => rfl, fun _ => rfl, rfl, rfl, rfl, rfl, rfl⟩

theorem initCerboMaps_sameTelemetry (c : Client) : SameTelemetry c c.initCerboMaps := by
  obtain ⟨hinit, -, hfield, havail, hnative⟩ := c.initCerboMaps_spec
  refine ⟨fun f hf => hfield f ?_, havail, hnative, ?_, ?_, ?_, ?_⟩
  · rintro rfl
    exact absurd hf (by decide)
  all_goals rw [hinit]
  rfl

theorem CommandsObserved.sameTelemetry {c c' : Client} {data : Frame} {retained : Bool}
    {now : Time} (h : CommandsObserved c data retained now c') : SameTelemetry c c' := by
  refine ⟨fun f hf => h.field f ?_, fun key => ?_, h.native, ?_, ?_, ?_, ?_⟩
  · intro hmem
    revert hf
    simp only [List.mem_cons, List.not_mem_nil, or_false] at hmem
    rcases hmem with rfl | rfl | rfl <;> decide
  · rw [State.available, h.field _ (by decide)]
    rfl
  all_goals rw [h.frame]
  rfl

theorem StateFinished.sameTelemetry {c c' : Client} {data : Frame} {retained : Bool} {now : Time}
    (h : StateFinished c data retained now c') : SameTelemetry c c' := by
  refine ⟨fun f hf => h.field f ?_, fun key => ?_, h.native, ?_, ?_, ?_, ?_⟩
  · intro hmem
    revert hf
    simp only [List.mem_cons, List.not_mem_nil, or_false] at hmem
    rcases hmem with rfl | rfl | rfl | rfl | rfl <;> decide
  · rw [State.available, h.field _ (by decide)]
    rfl
  all_goals rw [h.frame]
  rfl

theorem updateWaterModeObservation_sameTelemetry (c : Client) (parts : List String)
    (changed retained : Bool) (now : Time) :
    SameTelemetry c (c.updateWaterModeObservation parts changed retained now) :=
  ⟨fun _ _ => rfl, fun _ => rfl, rfl, rfl, rfl, rfl, rfl⟩

/-! ## Deliveries -/

/-- What a delivery did to the telemetry: nothing, the reduction of a changed cache, or the merge of
a frame. -/
inductive Told (c : Client) (retained : Bool) (now : Time) : Message → Client → Prop
  /-- The telemetry is as before. -/
  | kept {m : Message} {c' : Client} : SameTelemetry c c' → Told c retained now m c'
  /-- A device message was accepted. -/
  | device {parts : List String} {payload : Payload} {c₀ c₁ c₂ c' : Client} :
      SameTelemetry c c₀ → Stored c₀ parts payload c₁ → Overlaid c₁ c₂ → SameTelemetry c₂ c' →
      Told c retained now (.native parts payload) c'
  /-- A frame was merged. -/
  | frame {payload : Payload} {data : Frame} {c₂ c' : Client} :
      decodeControllerState payload = some data →
      (c.receiveState data retained now).mergeDaemonState data = some c₂ → SameTelemetry c₂ c' →
      Told c retained now (.state payload) c'

theorem Native.told {c c₀ c' : Client} {parts : List String} {payload : Payload} {retained : Bool}
    {now : Time} (h₀ : SameTelemetry c c₀) (h : Native c₀ parts payload retained now c') :
    Told c retained now (.native parts payload) c' := by
  cases h with
  | ignored => exact .kept h₀
  | banners h => exact .kept (h₀.trans h.sameTelemetry)
  | @device c₁ c' changed _ h hc' =>
    have hlast : SameTelemetry c₁ c' := by
      have hobs := c₁.updateWaterModeObservation_sameTelemetry parts changed retained now
      rw [hc']
      split_ifs
      · exact hobs.trans ⟨fun _ _ => rfl, fun _ => rfl, rfl, rfl, rfl, rfl, rfl⟩
      · exact hobs
    rcases h with ⟨-, rfl | rfl⟩ | ⟨-, c₂, hst, hov⟩
    · exact .kept (h₀.trans hlast)
    · exact .kept ((h₀.trans c₀.initCerboMaps_sameTelemetry).trans hlast)
    · exact .device h₀ hst hov hlast

/-- The commit of a state frame is a merge, behind which only receipts change. -/
theorem commitState_telemetry {c c' : Client} {data : Frame} {retained : Bool} {now : Time}
    (h : c.commitState data retained now = some c') :
    ∃ c₂, (c.receiveState data retained now).mergeDaemonState data = some c₂ ∧
      SameTelemetry c₂ c' := by
  simp only [commitState, Option.bind_eq_bind, Option.bind_eq_some_iff, Option.pure_def,
    Option.some.injEq] at h
  obtain ⟨c₂, hmerge, rfl⟩ := h
  exact ⟨c₂, hmerge, (c₂.finishState_spec data retained now).sameTelemetry⟩

theorem applyControllerMessage_told {c c' : Client} {payload : Payload} {retained : Bool}
    {session generation : ℕ} {now : Time}
    (h : c.applyControllerMessage payload retained session generation false now = some c') :
    Told c retained now (.state payload) c' := by
  rcases applyControllerMessage_cases h with rfl | ⟨data, c₁, hd, -, hc₁, rfl⟩
  · exact .kept (SameTelemetry.refl _)
  · obtain ⟨c₂, hmerge, hfin⟩ := commitState_telemetry hc₁
    exact .frame hd hmerge
      (hfin.trans ⟨fun _ _ => rfl, fun _ => rfl, rfl, rfl, rfl, rfl, rfl⟩)

theorem applyOverrideMessage_sameTelemetry {c c' : Client} {payload : Payload} {retained : Bool}
    {session generation : ℕ} {now : Time}
    (h : c.applyControllerMessage payload retained session generation true now = some c') :
    SameTelemetry c c' := by
  rcases applyControllerMessage_cases h with rfl | ⟨data, c₁, -, -, hc₁, rfl⟩
  · exact SameTelemetry.refl _
  · obtain rfl : c.observeControllerCommands data retained now = c₁ := by
      simpa [commitController] using hc₁
    exact (c.observeControllerCommands_spec data retained now).sameTelemetry.trans
      ⟨fun _ _ => rfl, fun _ => rfl, rfl, rfl, rfl, rfl, rfl⟩

/-- A delivery, case by case.

**Proof sketch.** The callbacks of overrides, notifications, portals and cameras set members outside
the telemetry. The native callback settles the portal first, which is no telemetry either. -/
theorem deliver_told {c c' : Client} {r : NativeScalars} {session : ℕ} {retained : Bool}
    {m : Message} {now : Time} (h : c.deliver r session retained m now = some c') :
    Told c retained now m c' := by
  cases m with
  | native parts payload =>
    simp only [deliver] at h
    split_ifs at h
    · rcases applyCerboMessage_spec h with rfl | ⟨c₁, hc₁, -, -, -, -, hn⟩
      · exact .kept (SameTelemetry.refl _)
      · refine hn.told ?_
        rcases hc₁ with ⟨rfl, -⟩ | ⟨-, rfl⟩
        · exact SameTelemetry.refl _
        · exact ⟨fun _ _ => rfl, fun _ => rfl, rfl, rfl, rfl, rfl, rfl⟩
    · exact .kept (Option.some.inj h ▸ SameTelemetry.refl c)
  | state payload =>
    simp only [deliver] at h
    split_ifs at h
    · exact applyControllerMessage_told h
    · exact .kept (Option.some.inj h ▸ SameTelemetry.refl c)
  | override payload =>
    simp only [deliver] at h
    split_ifs at h
    · exact .kept (applyOverrideMessage_sameTelemetry h)
    · exact .kept (Option.some.inj h ▸ SameTelemetry.refl c)
  | notification payload =>
    simp only [deliver] at h
    split_ifs at h
    · have hb := c.applyNotificationMessage_frame payload c.pushGeneration session
      exact .kept (Option.some.inj h ▸ hb.sameTelemetry)
    · exact .kept (Option.some.inj h ▸ SameTelemetry.refl c)
  | portal p => exact .kept (Option.some.inj h ▸ c.applyPortalMessage_sameTelemetry p _ _)
  | camera p => exact .kept (Option.some.inj h ▸ c.onCameraMessage_sameTelemetry p)

/-! ## Expiry -/

/-- Whether the controller has been silent for too long. -/
def staleController (c : Client) (now : Time) : Prop :=
  ∃ seen, c.controllerLastSeen = some seen ∧ (now - seen < 0 ∨ optionalTelemetryTTL < now - seen)

instance (c : Client) (now : Time) : Decidable (c.staleController now) :=
  decidable_of_iff
    ((c.controllerLastSeen.any fun seen =>
      decide (now - seen < 0 ∨ optionalTelemetryTTL < now - seen)) = true) (by
    unfold staleController
    cases c.controllerLastSeen <;> simp)

/-- What the expiry of a silent controller did: its ESS mode is forgotten, and no member changes
but an ESS mode that nothing native claims. -/
structure Expired (c : Client) (now : Time) (c' : Client) : Prop where
  stale : c.staleController now
  field : ∀ f ∈ directFields, f ≠ .essMode → c'.state.field f = c.state.field f
  essMode : c.state.nativeESSObserved = true → c'.state.field .essMode = c.state.field .essMode
  flags : ∀ key, c'.state.available key = true → c.state.available key = true
  flags_owned : ∀ f, c.cerboOwned.has f = true →
    c'.state.available f.jsonName = c.state.available f.jsonName
  native : c'.state.nativeESSObserved = c.state.nativeESSObserved
  owned : c'.cerboOwned = c.cerboOwned
  leaves : c'.cerboLeaves = c.cerboLeaves
  options : c'.options = c.options
  forgotten : c'.controllerESSMode = none

/-- Of the telemetry a snapshot changes the ESS mode at most. -/
theorem Snapshotted.field_of_direct {st st' : State} {data : Frame} (h : Snapshotted st data st')
    {f : Field} (hf : f ∈ directFields) (hess : f ≠ .essMode) : st'.field f = st.field f := by
  refine h.frame f fun hmem => hess ?_
  have hall : ∀ g ∈ directFields, g ∈ snapshotFields → g = .essMode := by decide
  exact hall f hf hmem

/-- An empty snapshot leaves a natively observed ESS mode. -/
theorem Snapshotted.essMode_of_native {st st' : State} (h : Snapshotted st [] st')
    (hn : st.nativeESSObserved = true) : st'.field .essMode = st.field .essMode := by
  have hclosed : Field.essMode ∉ openControllerFields st := by
    unfold openControllerFields
    rw [List.mem_filter]
    simp [hn]
  rw [h.essMode, sectionValue, if_neg hclosed]
  rfl

/-- Resetting the ESS flag touches no other flag, and none of a claimed mode. -/
theorem resetESSFlag_available {c : Client} {st st' : State} (h : c.resetESSFlag st = some st')
    {f : Field} (hf : c.cerboOwned.has f = true) :
    st'.available f.jsonName = st.available f.jsonName := by
  unfold resetESSFlag at h
  split_ifs at h with ho
  · rw [Option.some.inj h]
  · have hp : (st.field .telemetryAvailable).isSome := by
      cases hp : st.field .telemetryAvailable with
      | none => simp [State.setAvailable, hp] at h
      | some m => rfl
    obtain ⟨st'', hst'', -, -, ha, -⟩ := State.setAvailable_spec hp .essMode false
    obtain rfl := Option.some.inj (hst''.symm.trans h)
    have hne : f.jsonName ≠ Field.jsonName .essMode := fun he => by
      rw [Field.jsonName_injective he] at hf
      exact ho hf
    rw [State.available, ha, if_neg hne]
    rfl

/-- Expiry does nothing to the telemetry, or forgets the mode of a silent controller. -/
theorem expire_telemetry {c c' : Client} {now : Time}
    (h : c.expireOptionalTelemetry now = some c') : SameTelemetry c c' ∨ Expired c now c' := by
  obtain ⟨hinit, hpres, hfield, havail, hnative⟩ := c.initCerboMaps_spec
  have hsame := c.initCerboMaps_sameTelemetry
  have hseen : c.initCerboMaps.controllerLastSeen = c.controllerLastSeen := by rw [hinit]
  unfold expireOptionalTelemetry at h
  dsimp only at h
  rw [hseen] at h
  cases hlast : c.controllerLastSeen with
  | none =>
    rw [hlast] at h
    exact Or.inl (Option.some.inj h ▸ hsame)
  | some seen =>
    rw [hlast] at h
    dsimp only at h
    split_ifs at h with hstale
    · right
      simp only [Option.bind_eq_bind, Option.bind_eq_some_iff, Option.pure_def,
        Option.some.injEq] at h
      obtain ⟨st₁, h₁, st₂, h₂, rfl⟩ := h
      obtain ⟨hf, hn, ha, -⟩ := c.initCerboMaps.resetESSFlag_of_eq_some h₁
      have hs := snapshotted_of_eq_some h₂
      have hdirect : ∀ f ∈ directFields, f ≠ .telemetryAvailable := by decide
      refine ⟨⟨seen, hlast, hstale⟩, fun f hdir hess => ?_, fun hobs => ?_, fun key hk => ?_,
        fun f ho => ?_, (hs.native.trans hn).trans hnative, hsame.owned, hsame.leaves,
        hsame.options, rfl⟩
      · show st₂.field f = _
        rw [Snapshotted.field_of_direct hs hdir hess, hf f (hdirect f hdir),
          hfield f (hdirect f hdir)]
      · show st₂.field .essMode = _
        rw [Snapshotted.essMode_of_native hs (by rw [hn, hnative, hobs]), hf _ (by decide),
          hfield _ (by decide)]
      · have hk : st₂.available key = true := hk
        rw [Snapshotted.available hs] at hk
        exact havail key ▸ ha key hk
      · have ho' : c.initCerboMaps.cerboOwned.has f = true := hsame.owned ▸ ho
        show st₂.available _ = _
        rw [Snapshotted.available hs, resetESSFlag_available h₁ ho', havail]
    · exact Or.inl (Option.some.inj h ▸ hsame)

/-! ## Sessions -/

/-- What a lost connection did: the cache is empty and every member is cleared. -/
structure Emptied (c c' : Client) : Prop where
  field : ∀ f ∈ directFields, c'.state.field f = f.type.cleared
  flags : ∀ f ∈ directFields, c'.state.available f.jsonName = false
  native : c'.state.nativeESSObserved = c.state.nativeESSObserved
  owned : c'.cerboOwned = c.cerboOwned
  leaves : c'.cerboLeaves = ∅
  options : c'.options = c.options
  essMode : c'.controllerESSMode = c.controllerESSMode

theorem invalidateState_emptied {c c' : Client} (h : c.invalidateState = some c') :
    Emptied c c' := by
  obtain ⟨hinit, hpres, -, -, hnative⟩ := c.initCerboMaps_spec
  have hsame := c.initCerboMaps_sameTelemetry
  obtain ⟨st₁, h₁, hs⟩ := applyControllerSnapshot_spec c.initCerboMaps.state []
  have hpres₁ : (st₁.field .telemetryAvailable).isSome := by
    rw [hs.frame _ (by decide)]
    exact hpres
  obtain ⟨st₂, h₂, hcl⟩ := State.clearAll_spec false directFields (by decide) hpres₁
  rw [invalidateState, Option.bind_eq_bind, h₁, Option.bind_some, h₂] at h
  obtain rfl := Option.some.inj h
  have hdirect : ∀ f ∈ directFields, f ≠ .telemetryAvailable := by decide
  refine ⟨fun f hf => hcl.cleared f (hdirect f hf) hf, fun f hf => ?_,
    (hcl.native.trans hs.native).trans hnative, hsame.owned, rfl, hsame.options, hsame.essMode⟩
  show st₂.available f.jsonName = false
  rw [State.available, hcl.avail, if_pos hf]
  rfl

theorem advanceMQTTSession_sameTelemetry (c : Client) : SameTelemetry c c.advanceMQTTSession := by
  have h₀ : SameTelemetry c { c with mqttSession := c.mqttSession + 1 } :=
    ⟨fun _ _ => rfl, fun _ => rfl, rfl, rfl, rfl, rfl, rfl⟩
  exact h₀.trans (Client.resetNativeNotifications_frame _ _).sameTelemetry

theorem resetMQTTPush_sameTelemetry (c : Client) : SameTelemetry c c.resetMQTTPush := by
  unfold resetMQTTPush
  split_ifs
  · exact SameTelemetry.refl c
  · exact ⟨fun _ _ => rfl, fun _ => rfl, rfl, rfl, rfl, rfl, rfl⟩

/-- The connection-lost handler clears the telemetry with the cache. -/
theorem connectionLost_emptied {c c' : Client} (h : c.connectionLost = some c') :
    Emptied c c' := by
  have h₀ : SameTelemetry c.advanceMQTTSession
      { c.advanceMQTTSession.stopKeepalive with connectionOpen := false } :=
    ⟨fun _ _ => rfl, fun _ => rfl, rfl, rfl, rfl, rfl, rfl⟩
  have hv := (c.advanceMQTTSession_sameTelemetry.trans h₀).trans
    (Client.resetMQTTPush_sameTelemetry _)
  have he := invalidateState_emptied h
  exact ⟨he.field, he.flags, he.native.trans hv.native, he.owned.trans hv.owned, he.leaves,
    he.options.trans hv.options, he.essMode.trans hv.essMode⟩

theorem startKeepalive_sameTelemetry (c : Client) (sent : Bool) :
    SameTelemetry c (c.startKeepalive sent) := by
  unfold startKeepalive publishKeepalive
  split_ifs <;> exact ⟨fun _ _ => rfl, fun _ => rfl, rfl, rfl, rfl, rfl, rfl⟩

/-- `Subscribe` fails its checks, or reduces an empty cache. -/
theorem subscribe_telemetry {c c' : Client} {o : SubscribeOutcome} {ok : Bool}
    (h : c.subscribe o = some (c', ok)) :
    c.canSubscribe = false ∧ SameTelemetry c c' ∨
      c.canSubscribe = true ∧ ∃ c₁ c₂, SameTelemetry { c with cerboLeaves := ∅ } c₁ ∧
        Overlaid c₁ c₂ ∧ SameTelemetry c₂ c' := by
  unfold subscribe at h
  have hcan : ({ c with subscriptionsEnabled := true } : Client).canSubscribe = c.canSubscribe :=
    rfl
  dsimp only at h
  rw [hcan] at h
  cases hc : c.canSubscribe with
  | false =>
    rw [hc] at h
    simp only [Bool.not_false, if_true, Option.some.injEq, Prod.mk.injEq] at h
    obtain ⟨rfl, -⟩ := h
    exact Or.inl ⟨rfl, fun _ _ => rfl, fun _ => rfl, rfl, rfl, rfl, rfl, rfl⟩
  | true =>
    rw [hc] at h
    simp only [Bool.not_true, Bool.false_eq_true, if_false, Option.bind_eq_bind,
      Option.bind_eq_some_iff, Option.pure_def, Option.some.injEq] at h
    obtain ⟨c₂, hov, hlast⟩ := h
    have hv := (advanceMQTTSession_sameTelemetry { c with subscriptionsEnabled := true }).trans
      (Client.resetMQTTPush_sameTelemetry _)
    refine Or.inr ⟨rfl, _, c₂, ?_, overlaid_of_eq_some hov, ?_⟩
    · exact ⟨hv.field, hv.flags, hv.native, hv.owned, rfl, hv.options, hv.essMode⟩
    · split_ifs at hlast
      · exact (Prod.mk.inj hlast).1 ▸ c₂.startKeepalive_sameTelemetry o.sent
      · exact (Prod.mk.inj hlast).1 ▸ SameTelemetry.refl c₂

end Client

end Dashboard
