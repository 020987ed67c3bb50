import InverterDashboard.Source.Switch
import InverterDashboard.Mqtt.Telemetry

set_option relaxedAutoImplicit false
set_option autoImplicit false

/-!
# Where the availability flags come from

A flag is raised by a reduction of the cache, by a frame that carries its member, or with a gateway
snapshot. Losing the connection takes every flag back, but a source switch only those of
`clearOptionalTelemetry`. Beside the switching client a run keeps the frames received over LAN since
the telemetry was last invalidated and the gateway last left.

## Main definitions

* `Dashboard.carries` — a frame has a usable entry of a member.
* `Dashboard.Client.Lowered`, `Dashboard.Client.Reflagged` — what a section does to the flags.
* `Dashboard.Flagging`, `Dashboard.Flagging.step` — the system.
* `Dashboard.Flagging.Sound` — every flag is that of an output or of a member that was carried.
* `Dashboard.Flagging.Swept` — no flag of the gateway outlives the switch, and no frame spells the
  flags themselves in another way.

## Main results

* `Dashboard.Client.mergeDaemonState_reflagged` — which flags a frame raises.
* `Dashboard.Flagging.inv_step` — what one event keeps.
* `Dashboard.Flagging.sound_of_reachable` — the flags of LAN mode are sound.
* `Dashboard.Flagging.flag_outlives_gateway` — a flag of the gateway after the switch.
-/

namespace Dashboard

open Go

/-! ## Frames -/

/-- A frame carries a member: an entry of its name is not null and decodes. -/
def carries (data : Frame) (f : Field) : Bool :=
  data.any fun e => e.1 == f.jsonName && !e.2.isNil && f.type.accepts e.2

/-- No key of the frame spells the flags themselves in another way. -/
def ExactFlags (data : Frame) : Prop :=
  ∀ e ∈ data, matchField e.1 = some .telemetryAvailable →
    e.1 = Field.jsonName .telemetryAvailable

instance (data : Frame) : Decidable (ExactFlags data) :=
  inferInstanceAs (Decidable (∀ e ∈ data, matchField e.1 = some .telemetryAvailable →
    e.1 = Field.jsonName .telemetryAvailable))

namespace Client

/-! ## What a section does to the flags -/

/-- No flag is raised, and nothing the flags depend on changes. -/
structure Lowered (c c' : Client) : Prop where
  flags : ∀ f ∈ directFields, c'.state.available f.jsonName = true →
    c.state.available f.jsonName = true
  owned : c'.cerboOwned = c.cerboOwned
  leaves : c'.cerboLeaves = c.cerboLeaves
  options : c'.options = c.options

namespace Lowered

theorem trans {a b c : Client} (h : Lowered a b) (h' : Lowered b c) : Lowered a c :=
  ⟨fun f hf hk => h.flags f hf (h'.flags f hf hk), h'.owned.trans h.owned,
    h'.leaves.trans h.leaves, h'.options.trans h.options⟩

theorem overlay {c c' : Client} (h : Lowered c c') : c'.overlay = c.overlay := by
  rw [Client.overlay, Client.overlay, h.leaves, h.options]

end Lowered

theorem SameTelemetry.lowered {c c' : Client} (h : SameTelemetry c c') : Lowered c c' :=
  ⟨fun _ _ hk => h.flags _ ▸ hk, h.owned, h.leaves, h.options⟩

theorem Expired.lowered {c c' : Client} {now : Time} (h : Expired c now c') : Lowered c c' :=
  ⟨fun _ _ hk => h.flags _ hk, h.owned, h.leaves, h.options⟩

theorem expire_lowered {c c' : Client} {now : Time} (h : c.expireOptionalTelemetry now = some c') :
    Lowered c c' := by
  rcases expire_telemetry h with h | h
  · exact h.lowered
  · exact h.lowered

/-- A reduction after the flags of members that the frames carry were raised. -/
def Reflagged (frames : List Frame) (c c' : Client) : Prop :=
  ∃ c₁ c₂, (∀ f, c.cerboOwned.has f = true → c₁.cerboOwned.has f = true) ∧
    (∀ f ∈ directFields, c₁.state.available f.jsonName = true →
      c.state.available f.jsonName = true ∨ ∃ data ∈ frames, carries data f = true) ∧
    Overlaid c₁ c₂ ∧ SameTelemetry c₂ c'

theorem Reflagged.of_lowered {frames : List Frame} {a b c : Client} (h : Lowered a b)
    (h' : Reflagged frames b c) : Reflagged frames a c := by
  obtain ⟨c₁, c₂, howned, hflags, hov, hsame⟩ := h'
  refine ⟨c₁, c₂, fun f hf => howned f (h.owned ▸ hf), fun f hf hk => ?_, hov, hsame⟩
  exact (hflags f hf hk).imp (h.flags f hf) id

theorem Reflagged.then {frames : List Frame} {a b c : Client} (h : Reflagged frames a b)
    (h' : SameTelemetry b c) : Reflagged frames a c := by
  obtain ⟨c₁, c₂, howned, hflags, hov, hsame⟩ := h
  exact ⟨c₁, c₂, howned, hflags, hov, hsame.trans h'⟩

/-! ## Frames -/

/-- A clean entry is an entry of the frame that decodes. -/
theorem accepted_of_mem_clean (c : Client) (data : Frame) {acc : State × Frame}
    {e : String × Any} (h : e ∈ (data.foldl c.mergeEntry acc).2) :
    e ∈ acc.2 ∨ e ∈ data ∧ ∃ st : State, (st.unmarshalEntry e.1 e.2).2 = true := by
  induction data generalizing acc with
  | nil => exact Or.inl h
  | cons e' data ih =>
    rcases ih h with h | ⟨h, hok⟩
    · unfold mergeEntry at h
      dsimp only at h
      split_ifs at h with hskip hok
      · exact Or.inl h
      · rcases List.mem_append.mp h with h | h
        · exact Or.inl h
        · rw [List.mem_singleton.mp h]
          exact Or.inr ⟨List.mem_cons_self, acc.1, hok⟩
      · exact Or.inl h
    · exact Or.inr ⟨List.mem_cons_of_mem _ h, hok⟩

/-- A marked member is carried. -/
theorem carries_of_marks (c : Client) {data : Frame} {f : Field}
    (h : marks (c.mergeLoop data).2 f = true) : carries data f = true := by
  obtain ⟨v, hv, hnil⟩ := (Option.any_eq_true _ _).mp h
  rcases c.accepted_of_mem_clean data (mem_of_entry hv) with hmem | ⟨hmem, st, hok⟩
  · cases hmem
  · have hacc : f.type.accepts v = true := by
      simp only [State.unmarshalEntry, matchField_jsonName] at hok
      rw [← FieldType.decoder_snd f.type v (st.field f)]
      exact hok
    unfold carries
    refine List.any_eq_true.mpr ⟨(f.jsonName, v), hmem, ?_⟩
    simp [hacc, by simpa using hnil]

/-- The loop leaves the flags alone, unless a key spells them in another way. -/
theorem mergeLoop_telemetryAvailable (c : Client) {data : Frame} (hexact : ExactFlags data) :
    (c.mergeLoop data).1.field .telemetryAvailable =
      c.initCerboMaps.state.field .telemetryAvailable := by
  rw [mergeLoop, foldl_mergeEntry_field]
  intro e he hfold
  rw [hexact e he (matchField_eq_some_iff.mpr hfold)]
  simp [skipsKey, Field.jsonName]

/-- A completed merge raises the flags of members the frame carries, and ends in a reduction.

**Proof sketch.** The flags are there when the second loop starts, and it marks clean entries only;
the reset of the ESS flag and the snapshot raise none. -/
theorem mergeDaemonState_reflagged {c c' : Client} {data : Frame} (hexact : ExactFlags data)
    (h : c.mergeDaemonState data = some c') : Reflagged [data] c c' := by
  obtain ⟨hinit, hpres, -, havail, -⟩ := c.initCerboMaps_spec
  simp only [mergeDaemonState, Option.bind_eq_bind, Option.bind_eq_some_iff,
    mergeEntry_initCerboMaps] at h
  obtain ⟨stm, hm, st₁, he, st₂, hsnap, hlast⟩ := h
  have hflags := c.mergeLoop_telemetryAvailable hexact
  have hloop : ((c.mergeLoop data).1.field .telemetryAvailable).isSome = true := by
    rw [hflags]
    exact hpres
  obtain ⟨stm', hm', -, -, ha, -⟩ := markAvailable_spec (c.mergeLoop data).2 directFields hloop
  obtain rfl := Option.some.inj (hm'.symm.trans hm)
  obtain ⟨-, -, hreset, -⟩ := c.initCerboMaps.resetESSFlag_of_eq_some he
  refine ⟨_, c', fun f hf => ?_, fun f hf hk => ?_, overlaid_of_eq_some hlast,
    SameTelemetry.refl c'⟩
  · rw [hinit]
    exact hf
  · have hk : (st₂.set .dashboardVersion c.initCerboMaps.currentVersion).available f.jsonName =
        true := hk
    rw [State.available, State.set_field_ne st₂ (by decide)] at hk
    have hk₂ : st₂.available f.jsonName = true := hk
    rw [Snapshotted.available (snapshotted_of_eq_some hsnap)] at hk₂
    have hk₁ := hreset _ hk₂
    rcases ha _ hk₁ with hold | ⟨g, -, hname, hmark⟩
    · left
      rw [State.available, hflags] at hold
      exact havail f.jsonName ▸ hold
    · obtain rfl := Field.jsonName_injective hname
      exact Or.inr ⟨data, List.mem_singleton_self data, c.carries_of_marks hmark⟩

/-! ## Sections -/

theorem clearOptionalTelemetry_lowered {c c' : Client} (h : c.clearOptionalTelemetry = some c') :
    Lowered c c' ∧ ∀ f ∈ optionalFields, c'.state.available f.jsonName = false := by
  obtain ⟨c'', hc'', -, hw, -, hleaves, -⟩ := c.clearOptionalTelemetry_spec
  obtain rfl := Option.some.inj (hc''.symm.trans h)
  refine ⟨⟨fun f _ hk => hw.flags _ hk, hw.owned, hleaves, hw.options⟩, fun f hf => ?_⟩
  obtain ⟨-, hpres, -, -, -⟩ := Client.initCerboMaps_spec
    { c with controllerESSMode := none, controllerESSObserved := none }
  obtain ⟨st₁, h₁, hcl⟩ := State.clearAll_spec false optionalFields (by decide) hpres
  obtain ⟨st₂, h₂, hs⟩ := applyControllerSnapshot_spec st₁ []
  rw [clearOptionalTelemetry, Option.bind_eq_bind, h₁, Option.bind_some, h₂] at hc''
  obtain rfl := Option.some.inj hc''
  show st₂.available f.jsonName = false
  rw [Snapshotted.available hs, State.available, hcl.avail, if_pos hf]
  rfl

theorem clearSource_lowered {c c' : Client} (h : c.clearSource = some c') :
    Lowered c c' ∧ ∀ f ∈ optionalFields, c'.state.available f.jsonName = false := by
  obtain ⟨c₁, h₁, hlast⟩ := Option.bind_eq_some_iff.mp h
  obtain rfl := Option.some.inj hlast
  obtain ⟨hlow, hopt⟩ := clearOptionalTelemetry_lowered h₁
  exact ⟨⟨hlow.flags, hlow.owned, hlow.leaves, hlow.options⟩, hopt⟩

theorem setGatewayConnected_lowered {c c' : Client} {v : Bool}
    (h : c.setGatewayConnected v = some c') : Lowered c c' := by
  have hreset : ∀ c₁ : Client,
      Lowered c₁ (if c₁.gatewayMode then c₁.resetPush .gateway else c₁) := by
    intro c₁
    split_ifs <;> exact ⟨fun _ _ hk => hk, rfl, rfl, rfl⟩
  have hset : Lowered c { c with gatewayConnected := v } := ⟨fun _ _ hk => hk, rfl, rfl, rfl⟩
  have hboth := hset.trans (hreset { c with gatewayConnected := v })
  simp only [setGatewayConnected] at h
  by_cases hch : (c.gatewayConnected != v) = true
  · rw [if_pos hch] at h
    cases v with
    | true => exact Option.some.inj h ▸ hboth
    | false => exact hboth.trans (clearOptionalTelemetry_lowered h).1
  · rw [if_neg hch] at h
    exact Option.some.inj h ▸ hset

theorem enableGateway_sameTelemetry (c : Client) : SameTelemetry c c.enableGateway := by
  have h₀ : SameTelemetry c ({ c with gatewayMode := true }.resetPush .gateway) :=
    ⟨fun _ _ => rfl, fun _ => rfl, rfl, rfl, rfl, rfl, rfl⟩
  exact h₀.trans (Client.resetNativeNotifications_frame _ true).sameTelemetry

theorem disableGateway_sameTelemetry (c : Client) : SameTelemetry c c.disableGateway := by
  have h₀ : SameTelemetry c ({ c with gatewayMode := false }.resetPush .mqtt) :=
    ⟨fun _ _ => rfl, fun _ => rfl, rfl, rfl, rfl, rfl, rfl⟩
  have h₁ := h₀.trans (Client.resetNativeNotifications_frame _ true).sameTelemetry
  exact h₁.trans ⟨fun _ _ => rfl, fun _ => rfl, rfl, rfl, rfl, rfl, rfl⟩

theorem Stored.reflagged {c c₁ c₂ : Client} {parts : List String} {payload : Payload}
    (h : Stored c parts payload c₁) (hov : Overlaid c₁ c₂) (frames : List Frame) :
    Reflagged frames c c₂ := by
  refine ⟨c₁, c₂, h.owned, fun f _ hk => Or.inl ?_, hov, SameTelemetry.refl c₂⟩
  have hst : c₁.state = c.initCerboMaps.state := by rw [h.frame]
  rw [hst, c.initCerboMaps_sameTelemetry.flags] at hk
  exact hk

theorem commitState_reflagged {c c' : Client} {data : Frame} {retained : Bool} {now : Time}
    (hexact : ExactFlags data) (h : c.commitState data retained now = some c') :
    Reflagged [data] c c' := by
  obtain ⟨c₂, hmerge, hsame⟩ := commitState_telemetry h
  have hrec : Lowered c (c.receiveState data retained now) := ⟨fun _ _ hk => hk, rfl, rfl, rfl⟩
  exact ((mergeDaemonState_reflagged hexact hmerge).of_lowered hrec).then hsame

end Client

/-! ## The sections of a run -/

/-- The state frame of a section. -/
def Section.received : Section → List Frame
  | .controller false data => [data]
  | _ => []

/-- The state frame a callback accepts. -/
def FedEvent.received (c : Client) : FedEvent → List Frame
  | .controller payload _ generation session false =>
    if c.sourceCurrent generation session then (decodeControllerState payload).toList else []
  | _ => []

/-- A commit lowers flags, or reduces with the flags of what it carries. -/
theorem flags_commit {r : NativeScalars} {c : Client} {retained : Bool} {now : Time}
    {sec : Section} {res : Client × Bool} (hexact : ∀ data ∈ sec.received, ExactFlags data)
    (h : sec.commit r c retained now = some res) :
    c.Lowered res.1 ∨ c.Reflagged sec.received res.1 := by
  cases sec with
  | portal p =>
    simp only [Section.commit] at h
    left
    split_ifs at h <;> exact Option.some.inj h ▸ ⟨fun _ _ hk => hk, rfl, rfl, rfl⟩
  | platform u =>
    exact Or.inl (Option.some.inj h ▸ (c.commitPlatform_frame r u).sameTelemetry.lowered)
  | alarm parts payload =>
    exact Or.inl (Option.some.inj h ▸ (c.commitAlarm_frame r parts payload).sameTelemetry.lowered)
  | notification n =>
    exact Or.inl (Option.some.inj h ▸ (c.commitNotification_frame n).sameTelemetry.lowered)
  | device parts payload =>
    obtain ⟨⟨c₁, changed⟩, hc₁, rfl⟩ := Option.map_eq_some_iff.mp h
    obtain ⟨c₂, changed₂, hc₂, hspec⟩ := c.handleCerboDevice_spec parts payload now
    obtain ⟨rfl, rfl⟩ := Prod.mk.inj (Option.some.inj (hc₂.symm.trans hc₁))
    have hobs := c₂.updateWaterModeObservation_sameTelemetry parts changed₂ retained now
    rcases hspec with ⟨-, rfl | rfl⟩ | ⟨-, c₀, hst, hov⟩
    · exact Or.inl hobs.lowered
    · exact Or.inl (c.initCerboMaps_sameTelemetry.trans hobs).lowered
    · exact Or.inr ((hst.reflagged hov _).then hobs)
  | controller override data =>
    obtain ⟨c₁, hc₁, rfl⟩ := Option.map_eq_some_iff.mp h
    cases override with
    | true =>
      obtain rfl := Option.some.inj hc₁
      exact Or.inl (c.observeControllerCommands_spec data retained now).sameTelemetry.lowered
    | false => exact Or.inr (Client.commitState_reflagged (hexact data List.mem_cons_self) hc₁)

/-- A section of the MQTT side lowers flags, or reduces with the flags of what it carries, or
empties the telemetry. -/
theorem flags_next {r : NativeScalars} {c c' : Client} {now : Time} {e : FedEvent}
    (hexact : ∀ data ∈ e.received c, ExactFlags data) (happly : ∀ st, e ≠ .apply st)
    (h : Fed.next r c now e = some c') :
    c.Lowered c' ∨ c.Reflagged (e.received c) c' ∨ e = .invalidate ∧ c.Emptied c' := by
  have hsame : c.SameTelemetry c' → c.Lowered c' ∨ c.Reflagged (e.received c) c' ∨
      e = .invalidate ∧ c.Emptied c' := fun h => Or.inl h.lowered
  cases e with
  | apply st => exact absurd rfl (happly st)
  | connected v => exact Or.inl (Client.setGatewayConnected_lowered h)
  | native parts payload retained generation session =>
    rcases Client.applyCerboMessage_spec h with rfl | ⟨c₁, hc₁, -, -, -, -, hn⟩
    · exact hsame (Client.SameTelemetry.refl _)
    · have h₁ : c.SameTelemetry c₁ := by
        rcases hc₁ with ⟨rfl, -⟩ | ⟨-, rfl⟩
        · exact Client.SameTelemetry.refl _
        · exact ⟨fun _ _ => rfl, fun _ => rfl, rfl, rfl, rfl, rfl, rfl⟩
      cases hn.told h₁ with
      | kept h => exact hsame h
      | device h₀ hst hov h₂ =>
        exact Or.inr (Or.inl (((hst.reflagged hov _).of_lowered h₀.lowered).then h₂))
  | controller payload retained generation session override =>
    simp only [Fed.next, Client.applyControllerMessage] at h
    cases hd : Client.controllerFrame override payload with
    | none =>
      rw [hd] at h
      exact hsame (Option.some.inj h ▸ Client.SameTelemetry.refl c)
    | some data =>
      rw [hd] at h
      dsimp only at h
      split_ifs at h with hcur
      · obtain ⟨c₁, hc₁, rfl⟩ := Option.map_eq_some_iff.mp h
        have hlast : c₁.SameTelemetry { c₁ with lastStateTime := some now } :=
          ⟨fun _ _ => rfl, fun _ => rfl, rfl, rfl, rfl, rfl, rfl⟩
        cases override with
        | true =>
          obtain rfl := Option.some.inj hc₁
          exact hsame ((c.observeControllerCommands_spec data retained now).sameTelemetry.trans
            hlast)
        | false =>
          have hrec : FedEvent.received c (.controller payload retained generation session false) =
              [data] := by
            have hd : decodeControllerState payload = some data := hd
            rw [FedEvent.received, if_pos hcur, hd]
            rfl
          rw [hrec] at hexact ⊢
          exact Or.inr (Or.inl ((Client.commitState_reflagged (hexact data List.mem_cons_self)
            hc₁).then hlast))
      · exact hsame (Option.some.inj h ▸ Client.SameTelemetry.refl c)
  | notification payload generation session =>
    exact hsame (Option.some.inj h ▸
      (c.applyNotificationMessage_frame payload generation session).sameTelemetry)
  | portal p generation session =>
    exact hsame (Option.some.inj h ▸ c.applyPortalMessage_sameTelemetry p generation session)
  | camera p => exact hsame (Option.some.inj h ▸ c.onCameraMessage_sameTelemetry p)
  | advance => exact hsame (Option.some.inj h ▸ c.advanceMQTTSession_sameTelemetry)
  | resetPush => exact hsame (Option.some.inj h ▸ c.resetMQTTPush_sameTelemetry)
  | overlay =>
    refine Or.inr (Or.inl ⟨_, c', fun f hf => ?_, fun f _ hk => Or.inl ?_,
      Client.overlaid_of_eq_some h, Client.SameTelemetry.refl c'⟩)
    · exact hf
    · exact hk
  | startKeepalive sent => exact hsame (Option.some.inj h ▸ c.startKeepalive_sameTelemetry sent)
  | refresh sent =>
    refine hsame (Option.some.inj h ▸ ?_)
    unfold Client.publishKeepalive
    split_ifs <;> exact ⟨fun _ _ => rfl, fun _ => rfl, rfl, rfl, rfl, rfl, rfl⟩
  | stopKeepalive =>
    exact hsame (Option.some.inj h ▸ ⟨fun _ _ => rfl, fun _ => rfl, rfl, rfl, rfl, rfl, rfl⟩)
  | invalidate => exact Or.inr (Or.inr ⟨rfl, Client.invalidateState_emptied h⟩)
  | connection opened enabled =>
    exact hsame (Option.some.inj h ▸ ⟨fun _ _ => rfl, fun _ => rfl, rfl, rfl, rfl, rfl, rfl⟩)
  | expire => exact Or.inl (Client.expire_lowered h)
  | tick ms => exact hsame (Option.some.inj h ▸ Client.SameTelemetry.refl c)

/-- A stage of a command lowers flags at most. -/
theorem lowered_advance {t t' : CommandCall} {c c' : Client} {now : Time} {rest : List Stage}
    {stage : Stage} (h : t.advance c now rest stage = some (c', t')) : c.Lowered c' := by
  have hrefl : ∀ {t'' : CommandCall}, some (c, t'') = some (c', t') → c.Lowered c' := by
    intro t'' heq
    obtain ⟨rfl, -⟩ := Prod.mk.inj (Option.some.inj heq)
    exact (Client.SameTelemetry.refl c).lowered
  cases stage with
  | permission =>
    obtain ⟨res, hres, heq⟩ := Option.map_eq_some_iff.mp h
    obtain ⟨rfl, -⟩ := Prod.mk.inj heq
    unfold CommandCall.permits at hres
    split at hres
    · exact Option.some.inj hres ▸ (Client.SameTelemetry.refl c).lowered
    · obtain ⟨c₁, hc₁, rfl⟩ := Option.map_eq_some_iff.mp hres
      exact Client.expire_lowered hc₁
    · obtain ⟨c₁, hc₁, rfl⟩ := Option.map_eq_some_iff.mp hres
      exact Client.expire_lowered hc₁
    · exact Option.some.inj hres ▸ (Client.SameTelemetry.refl c).lowered
  | captureGeneration => exact hrefl h
  | captureSession => exact hrefl h
  | readMode => exact hrefl h
  | connected => exact hrefl h
  | route => exact hrefl h
  | dispatch => exact hrefl h

/-! ## The system -/

/-- The switching client, and the state frames it received since the later of the last
`invalidateCerbo` and the last `DisableGatewayMode`, the latest first. -/
structure Flagging where
  base : Switching
  log : List Frame

namespace Flagging

/-- The frames an event receives. -/
def received (s : Flagging) : SwitchingEvent → List Frame
  | .commit sec _ _ _ => sec.received
  | .side e => e.received s.base.client
  | _ => []

/-- `invalidateCerbo`, or the start of `DisableGatewayMode`. -/
def resets (s : Flagging) : SwitchingEvent → Bool
  | .side .invalidate => true
  | .switching j => (s.base.switches[j]?).any fun t => !t.gateway && !t.between
  | _ => false

/-- One event. -/
def step (r : NativeScalars) (s : Flagging) (e : SwitchingEvent) : Option Flagging :=
  (s.base.step r e).map fun b => ⟨b, if s.resets e then [] else s.received e ++ s.log⟩

/-- A new client. -/
def Init (s : Flagging) : Prop := s.base.Init ∧ s.log = []

/-- The client is in LAN mode, and no switch is between its sections. -/
def lan (s : Flagging) : Bool :=
  !s.base.client.gatewayMode && s.base.switches.all fun t => !t.between

/-- A frame since the last reset carried a member. -/
def carried (s : Flagging) (f : Field) : Bool := s.log.any fun data => carries data f

/-- A flag is that of an output, or of a member that was carried. -/
def sourced (s : Flagging) (f : Field) : Bool :=
  (s.base.client.overlay.val f).isSome || s.carried f

/-- Every flag that is set has a source on LAN. -/
def Sound (s : Flagging) : Prop :=
  ∀ f ∈ directFields, s.base.client.state.available f.jsonName = true → s.sourced f = true

/-- When `DisableGatewayMode` clears, every flag it does not take back has a source on LAN; and no
frame spells the flags in another way. -/
def Swept (s : Flagging) (e : SwitchingEvent) : Prop :=
  (∀ data ∈ s.received e, ExactFlags data) ∧
  match e with
  | .switching j => (s.base.switches[j]?).any SwitchCall.between = true →
      s.base.client.gatewayMode = false → ∀ f ∈ directFields, f ∉ Client.optionalFields →
        s.base.client.state.available f.jsonName = true → s.sourced f = true
  | _ => True

instance (s : Flagging) (e : SwitchingEvent) : Decidable (s.Swept e) :=
  match e with
  | .switching _ => inferInstanceAs (Decidable (_ ∧ (_ → _ → ∀ f ∈ directFields,
      f ∉ Client.optionalFields → s.base.client.state.available f.jsonName = true →
        s.sourced f = true)))
  | .side _ | .commit .. | .apply _ | .publisher _ | .switch _ | .command .. | .commanding _ =>
    inferInstanceAs (Decidable (_ ∧ True))

/-! ## The invariant -/

/-- The outputs of a cache that is not empty are claimed, and in LAN mode a flag is that of a
claimed output or of a member that was carried. -/
structure Inv (s : Flagging) : Prop where
  claimed : s.base.client.cerboLeaves = ∅ ∨
    ∀ f, (s.base.client.overlay.val f).isSome → s.base.client.cerboOwned.has f = true
  flags : s.lan = true → ∀ f ∈ directFields, s.base.client.state.available f.jsonName = true →
    (s.base.client.cerboOwned.has f = true ∧ (s.base.client.overlay.val f).isSome) ∨
      s.carried f = true

/-- What lowers flags and keeps the log and the mode keeps the invariant. -/
theorem Inv.of_lowered {s s' : Flagging} (h : s.Inv) (hlow : s.base.client.Lowered s'.base.client)
    (hlog : ∀ data ∈ s.log, data ∈ s'.log) (hlan : s'.lan = true → s.lan = true) : s'.Inv := by
  refine ⟨?_, fun hl f hf hk => ?_⟩
  · rw [hlow.leaves, hlow.overlay, hlow.owned]
    exact h.claimed
  · rw [hlow.owned, hlow.overlay]
    refine (h.flags (hlan hl) f hf (hlow.flags f hf hk)).imp id fun hc => ?_
    obtain ⟨data, hmem, hdata⟩ := List.any_eq_true.mp hc
    exact List.any_eq_true.mpr ⟨data, hlog data hmem, hdata⟩

/-- A reduction makes every flag one of an output, of an earlier frame or of a new one. -/
theorem Inv.of_reflagged {s s' : Flagging} {frames : List Frame} (h : s.Inv)
    (href : s.base.client.Reflagged frames s'.base.client) (hlog : s'.log = frames ++ s.log)
    (hlan : s'.lan = true → s.lan = true) : s'.Inv := by
  obtain ⟨c₁, c₂, howned, hflags, hov, hsame⟩ := href
  have hover : s'.base.client.overlay = c₁.overlay := hsame.overlay.trans hov.overlay_eq
  refine ⟨Or.inr fun f hout => ?_, fun hl f hf hk => ?_⟩
  · rw [hsame.owned, hov.owned, ← hover, hout, Bool.or_true]
  · rw [hsame.flags, hov.avail] at hk
    rw [hsame.owned, hover]
    split_ifs at hk with ho
    · exact Or.inl ⟨ho, hk⟩
    · right
      have hold : ∀ data, data ∈ frames ∨ data ∈ s.log → carries data f = true →
          s'.carried f = true := fun data hmem hdata =>
        List.any_eq_true.mpr ⟨data, hlog ▸ List.mem_append.mpr hmem, hdata⟩
      rcases hflags f hf hk with hk | ⟨data, hmem, hdata⟩
      · rcases h.flags (hlan hl) f hf hk with ⟨hown, -⟩ | hc
        · exact absurd (hov.owned_of_owned (howned f hown)) ho
        · obtain ⟨data, hmem, hdata⟩ := List.any_eq_true.mp hc
          exact hold data (Or.inr hmem) hdata
      · exact hold data (Or.inl hmem) hdata

/-- After `invalidateCerbo` nothing is flagged. -/
theorem inv_of_emptied {s s' : Flagging} (he : s.base.client.Emptied s'.base.client) : s'.Inv := by
  refine ⟨Or.inl he.leaves, fun _ f hf hk => ?_⟩
  rw [he.flags f hf] at hk
  cases hk

/-- An output that `DisableGatewayMode` does not take back the flag of is one of a leaf. -/
theorem Inv.owned_of_output {s : Flagging} (h : s.Inv) {f : Field} (hf : f ∉ Client.optionalFields)
    (hout : (s.base.client.overlay.val f).isSome) : s.base.client.cerboOwned.has f = true := by
  rcases h.claimed with hempty | hclaimed
  · exfalso
    have hne : f ≠ .discoveredWaterEV ∧ f ≠ .evPresent ∧ f ≠ .evChargerPresent := by
      refine ⟨?_, ?_, ?_⟩ <;> rintro rfl <;> exact hf (by decide)
    rw [Client.overlay, hempty, cerboOverlay_empty, Overlay.put_val_ne _ hne.2.2,
      Overlay.put_val_ne _ hne.2.1, Overlay.put_val_ne _ hne.1] at hout
    cases hout
  · exact hclaimed f hout

theorem Inv.sound {s : Flagging} (h : s.Inv) (hl : s.lan = true) : s.Sound := by
  intro f hf hk
  unfold sourced
  rcases h.flags hl f hf hk with ⟨-, hout⟩ | hc
  · rw [hout, Bool.true_or]
  · rw [hc, Bool.or_true]

theorem inv_of_init {s : Flagging} (h : s.Init) : s.Inv := by
  obtain ⟨⟨⟨cfg, hc⟩, -⟩, -⟩ := h
  refine ⟨Or.inl (by rw [hc]; rfl), fun _ f hf hk => ?_⟩
  rw [hc] at hk
  have hnone : newState.available f.jsonName = false := by
    rw [State.available, newState, State.set_field_self, Client.emptyAvailability_find]
  rw [show (newClient cfg).state.available f.jsonName = false from hnone] at hk
  cases hk

/-! ## Steps -/

/-- A section of a switch keeps the invariant: behind the first one nothing is said, and what the
second one does not clear has a source. -/
theorem inv_switching {s : Flagging} {b : Switching} {j : ℕ} {t : SwitchCall} (h : s.Inv)
    (hok : s.Swept (.switching j)) (ht : s.base.switches[j]? = some t)
    (hs : s.base.stepSwitch j t = some b) :
    Inv ⟨b, if s.resets (.switching j) then [] else s.received (.switching j) ++ s.log⟩ := by
  unfold Switching.stepSwitch at hs
  by_cases hb : t.between = true
  · rw [if_pos hb] at hs
    obtain ⟨c, hc, rfl⟩ := Option.map_eq_some_iff.mp hs
    obtain ⟨hlow, hopt⟩ := Client.clearSource_lowered hc
    have hreset : s.resets (.switching j) = false := by simp [resets, ht, hb]
    rw [hreset, if_neg Bool.false_ne_true]
    refine ⟨?_, fun hl f hf hk => ?_⟩
    · show c.cerboLeaves = ∅ ∨ ∀ f, (c.overlay.val f).isSome → c.cerboOwned.has f = true
      rw [hlow.leaves, hlow.overlay, hlow.owned]
      exact h.claimed
    · have hk : c.state.available f.jsonName = true := hk
      have hmode : s.base.client.gatewayMode = false := by
        obtain ⟨c', hc', hst, -⟩ := s.base.client.clearSource_spec
        obtain rfl := Option.some.inj (hc'.symm.trans hc)
        have hl : (!c'.gatewayMode) = true := (Bool.and_eq_true_iff.mp hl).1
        rw [← hst.gateway]
        simpa using hl
      have hnot : f ∉ Client.optionalFields := fun hmem => by
        rw [hopt f hmem] at hk
        cases hk
      have hsrc := hok.2 (by simp [ht, hb]) hmode f hf hnot (hlow.flags f hf hk)
      show (c.cerboOwned.has f = true ∧ (c.overlay.val f).isSome) ∨ _
      rw [hlow.owned, hlow.overlay]
      rcases Bool.or_eq_true_iff.mp hsrc with hout | hcar
      · exact Or.inl ⟨h.owned_of_output hnot hout, hout⟩
      · exact Or.inr hcar
  · rw [if_neg hb] at hs
    obtain rfl := Option.some.inj hs
    have hsame : s.base.client.SameTelemetry
        (if t.gateway then s.base.client.enableGateway else s.base.client.disableGateway) := by
      split_ifs
      · exact s.base.client.enableGateway_sameTelemetry
      · exact s.base.client.disableGateway_sameTelemetry
    refine ⟨?_, fun hl => ?_⟩
    · dsimp only
      rw [hsame.leaves, hsame.overlay, hsame.owned]
      exact h.claimed
    · exfalso
      obtain ⟨hj, -⟩ := List.getElem?_eq_some_iff.mp ht
      have hall := (Bool.and_eq_true_iff.mp hl).2
      have := List.all_eq_true.mp hall { t with between := true } (List.mem_set hj _)
      cases this

/-- What keeps the mode and the switches stays in LAN mode. -/
theorem lan_eq {s : Flagging} {b : Switching} (log : List Frame)
    (hmode : b.client.gatewayMode = s.base.client.gatewayMode)
    (hswitch : b.switches = s.base.switches) : lan ⟨b, log⟩ = s.lan := by
  rw [lan, lan, hmode, hswitch]

/-- **Step.** Every event that is swept keeps the invariant.

**Proof sketch.** A section of the MQTT side or of a command lowers flags, reduces with the flags of
a received frame, or empties the telemetry. `ApplyState` runs in gateway mode only, where nothing is
said, and the switches are `inv_switching`. -/
theorem inv_step {r : NativeScalars} {s s' : Flagging} {e : SwitchingEvent} (h : s.Inv)
    (hok : s.Swept e) (hs : s.step r e = some s') : s'.Inv := by
  obtain ⟨b, hb, rfl⟩ := Option.map_eq_some_iff.mp hs
  cases e with
  | side e =>
    by_cases hticks : ∃ ms, e = .tick ms
    · obtain ⟨ms, rfl⟩ := hticks
      obtain rfl := Option.some.inj hb
      exact h.of_lowered (Client.SameTelemetry.refl _).lowered (fun _ hmem => hmem) id
    · by_cases happly : ∃ st, e = .apply st
      · obtain ⟨st, rfl⟩ := happly
        cases hb
      · have hmap : (Fed.next r s.base.client s.base.now e).map s.base.onLan = some b := by
          cases e <;> first | exact hb | exact absurd ⟨_, rfl⟩ hticks | exact absurd ⟨_, rfl⟩ happly
        obtain ⟨c, hc, rfl⟩ := Option.map_eq_some_iff.mp hmap
        have hlan : ∀ log, lan ⟨s.base.onLan c, log⟩ = true → s.lan = true := fun log hl =>
          lan_eq (s := s) (b := s.base.onLan c) log (Switching.gatewayMode_next hc) rfl ▸ hl
        rcases flags_next hok.1 (fun st heq => happly ⟨st, heq⟩) hc with hlow | href | ⟨rfl, he⟩
        · by_cases hinv : e = .invalidate
          · subst hinv
            exact inv_of_emptied (Client.invalidateState_emptied hc)
          · have hreset : s.resets (.side e) = false := by
              cases e <;> first | rfl | exact absurd rfl hinv
            rw [hreset, if_neg Bool.false_ne_true]
            exact h.of_lowered hlow (fun _ hmem => List.mem_append_right _ hmem) (hlan _)
        · by_cases hinv : e = .invalidate
          · subst hinv
            exact inv_of_emptied (Client.invalidateState_emptied hc)
          · have hreset : s.resets (.side e) = false := by
              cases e <;> first | rfl | exact absurd rfl hinv
            rw [hreset, if_neg Bool.false_ne_true]
            exact h.of_reflagged href rfl (hlan _)
        · exact inv_of_emptied he
  | commit sec retained generation session =>
    simp only [Switching.step] at hb
    split_ifs at hb
    obtain ⟨res, hres, rfl⟩ := Option.map_eq_some_iff.mp hb
    have hlan : ∀ log, lan ⟨s.base.onLan res.1, log⟩ = true → s.lan = true := fun log hl =>
      lan_eq (s := s) (b := s.base.onLan res.1) log (Fenced.commit_sameTransport hres).gateway
        rfl ▸ hl
    rcases flags_commit hok.1 hres with hlow | href
    · exact h.of_lowered hlow (fun data hmem => List.mem_append_right _ hmem) (hlan _)
    · exact h.of_reflagged href rfl (hlan _)
  | apply st =>
    simp only [Switching.step] at hb
    split_ifs at hb with hmode
    obtain rfl := Option.some.inj hb
    have ht := Fenced.applyState_sameTransport s.base.client st s.base.now
    have hcache : (s.base.client.applyState st s.base.now).cerboLeaves =
        s.base.client.cerboLeaves ∧
        (s.base.client.applyState st s.base.now).cerboOwned = s.base.client.cerboOwned := by
      unfold Client.applyState
      dsimp only
      split <;> exact ⟨rfl, rfl⟩
    have hover : (s.base.client.applyState st s.base.now).overlay = s.base.client.overlay := by
      rw [Client.overlay, Client.overlay, hcache.1, ht.options]
    refine ⟨?_, fun hl => ?_⟩
    · show (s.base.client.applyState st s.base.now).cerboLeaves = ∅ ∨ ∀ f,
        ((s.base.client.applyState st s.base.now).overlay.val f).isSome →
          (s.base.client.applyState st s.base.now).cerboOwned.has f = true
      rw [hcache.1, hcache.2, hover]
      exact h.claimed
    · exfalso
      have hoff : (!(s.base.client.applyState st s.base.now).gatewayMode) = true :=
        (Bool.and_eq_true_iff.mp hl).1
      rw [ht.gateway, hmode] at hoff
      cases hoff
  | publisher present =>
    obtain rfl := Option.some.inj hb
    exact h.of_lowered ⟨fun _ _ hk => hk, rfl, rfl, rfl⟩ (fun _ hmem => hmem) id
  | switch gateway =>
    obtain rfl := Option.some.inj hb
    refine h.of_lowered (Client.SameTelemetry.refl _).lowered (fun _ hmem => hmem) fun hl => ?_
    have hl : (!s.base.client.gatewayMode &&
        (s.base.switches ++ [({ gateway := gateway } : SwitchCall)]).all fun t => !t.between) =
        true := hl
    rw [List.all_append, ← Bool.and_assoc] at hl
    exact (Bool.and_eq_true_iff.mp hl).1
  | switching j =>
    obtain ⟨t, ht, hb⟩ := Option.bind_eq_some_iff.mp hb
    exact inv_switching h hok ht hb
  | command cmd encodedLen =>
    simp only [Switching.step] at hb
    split_ifs at hb
    obtain rfl := Option.some.inj hb
    exact h.of_lowered ⟨fun _ _ hk => hk, rfl, rfl, rfl⟩ (fun _ hmem => hmem) id
  | commanding k =>
    obtain ⟨t, ht, hb⟩ := Option.bind_eq_some_iff.mp hb
    unfold Switching.stepCommand at hb
    split at hb
    · cases hb
    · obtain ⟨⟨c, t'⟩, hc, rfl⟩ := Option.map_eq_some_iff.mp hb
      have hlow : s.base.client.Lowered c := lowered_advance hc
      refine h.of_lowered hlow (fun _ hmem => hmem) fun hl => ?_
      have hmode : c.gatewayMode = s.base.client.gatewayMode :=
        (Switching.sameTransport_advance hc).gateway
      have hl : (!c.gatewayMode && s.base.switches.all fun t => !t.between) = true := hl
      rw [hmode] at hl
      exact hl

/-- **Run.** In every run whose switches are swept, the flags of LAN mode are sound. -/
theorem sound_of_reachable {r : NativeScalars} {s : Flagging}
    (h : Transition.Reachable (step r) Swept Init s) : s.lan = true → s.Sound :=
  fun hl => (h.invariant (fun _ => inv_of_init) fun _ _ _ hi hok hs => inv_step hi hok hs).sound hl

/-- A gateway feeds the client with these flags up and is left, as the recovery probe does it. -/
def gatewayRun (flags : StrMap Bool) : List SwitchingEvent :=
  [.switch true, .switching 0, .switching 0,
    .apply (State.zero.set .telemetryAvailable (some flags)),
    .side (.connection true true), .side .advance, .side .resetPush, .side .overlay,
    .side (.startKeepalive true), .switch false, .switching 0, .switching 0]

/-- A new client, before any event. -/
def fresh : Flagging := ⟨Switching.idle, []⟩

theorem init_fresh : fresh.Init := ⟨Switching.init_idle, rfl⟩

theorem sound_of_reachable_vehicle : ∃ s,
    Transition.Reachable (step Lan.noScalars) Swept Init s ∧ s.lan = true ∧
      s.base.client.state.available "battery_power" = true ∧ s.Sound := by
  obtain ⟨s, hs, hp⟩ := Transition.Reachable.exists_of_run (step Lan.noScalars) Swept
    (gatewayRun ((∅ : StrMap Bool).insert "ev_power" true) ++
      [.commit (.controller false [("battery_power", .float64 100)]) false 2 1])
    (fun s => s.lan && s.base.client.state.available "battery_power") init_fresh
    (by decide +kernel) (by decide +kernel)
  obtain ⟨hl, hk⟩ := Bool.and_eq_true_iff.mp hp
  exact ⟨s, hs, hl, hk, sound_of_reachable hs hl⟩

/-- A gateway snapshot flags the charge of the battery. Back on LAN, without a leaf or a frame, it
is still flagged. -/
theorem flag_outlives_gateway : ∃ s,
    Transition.Reachable (step Lan.noScalars) (fun _ _ => True) Init s ∧ s.lan = true ∧
      s.base.client.state.available (Field.jsonName .batterySOC) = true ∧ s.log = [] ∧
      s.base.client.overlay.val .batterySOC = none ∧ ¬ s.Sound := by
  obtain ⟨s, hs, hp⟩ := Transition.Reachable.exists_of_run (step Lan.noScalars) (fun _ _ => True)
    (gatewayRun ((∅ : StrMap Bool).insert "battery_soc" true))
    (fun s => s.lan && s.base.client.state.available (Field.jsonName .batterySOC) &&
      s.log.isEmpty && (s.base.client.overlay.val .batterySOC).isNone)
    init_fresh (Transition.Allowed.of_forall (fun _ _ => trivial) fresh) (by decide)
  simp only [Bool.and_eq_true, List.isEmpty_iff, Option.isNone_iff_eq_none] at hp
  obtain ⟨⟨⟨hl, hk⟩, hlog⟩, hnone⟩ := hp
  refine ⟨s, hs, hl, hk, hlog, hnone, fun hsound => ?_⟩
  have hsrc := hsound .batterySOC (by decide) hk
  unfold sourced carried at hsrc
  rw [hnone, hlog] at hsrc
  cases hsrc

end Flagging

end Dashboard
