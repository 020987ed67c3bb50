import InverterDashboard.Lan.System

set_option relaxedAutoImplicit false
set_option autoImplicit false

/-!
# The client in gateway mode

While a gateway feeds the client, messages and connection handlers of the MQTT side still run, in
any order with the polls. Message callbacks are fenced by the gateway mode; two sections of the
connection handlers are not: the overlay of `Subscribe` and the state section of
`invalidateCerbo`.

## Main definitions

* `Dashboard.GatewayView` — two states agree on what the gateway installed.
* `Dashboard.Fed`, `Dashboard.FedEvent`, `Dashboard.Fed.step` — a client in gateway mode.
* `Dashboard.FedEvent.Fenced` — the event is none of the two sections.

## Main results

* `Dashboard.Fed.isolated_step` — a fenced event of the MQTT side keeps the view.
* `Dashboard.Fed.view_of_reachable` — in runs of fenced events the view is the installed one.
-/

namespace Dashboard

open Go

/-- The members a gateway snapshot owns. -/
def gatewayFields : List Field :=
  directFields ++ controllerFields ++ [.inverterAvailable, .notifications]

/-- Two states agree on what the gateway installed. -/
structure GatewayView (st st' : State) : Prop where
  field : ∀ f ∈ gatewayFields, st'.field f = st.field f
  flags : ∀ f ∈ directFields, st'.available f.jsonName = st.available f.jsonName

namespace GatewayView

theorem refl (st : State) : GatewayView st st := ⟨fun _ _ => rfl, fun _ _ => rfl⟩

theorem trans {a b c : State} (h : GatewayView a b) (h' : GatewayView b c) : GatewayView a c :=
  ⟨fun f hf => (h'.field f hf).trans (h.field f hf),
    fun f hf => (h'.flags f hf).trans (h.flags f hf)⟩

end GatewayView

/-- A client in gateway mode and the state that the gateway side left last. -/
structure Fed where
  client : Client
  now : Time
  installed : State

/-- What can happen to a client in gateway mode. The sections of `Subscribe` and of the
connection-lost handler are events of their own, so that they interleave with everything else. -/
inductive FedEvent where
  /-- `ApplyState` with the snapshot of a poll. -/
  | apply (st : State)
  /-- `SetGatewayConnected`. -/
  | connected (v : Bool)
  /-- A native message, by a callback that captured these tokens. -/
  | native (parts : List String) (payload : Payload) (retained : Bool) (generation session : ℕ)
  /-- A message on `inverter/state` or `inverter/setpoint_override`. -/
  | controller (payload : Payload) (retained : Bool) (generation session : ℕ) (override : Bool)
  /-- A message on `inverter/notifications`. -/
  | notification (payload : Payload) (generation session : ℕ)
  /-- A message on `inverter/portal`. -/
  | portal (p : PortalText) (generation session : ℕ)
  /-- A message on the camera topic. -/
  | camera (p : CameraText)
  /-- `advanceMQTTSession`, of either handler. -/
  | advance
  /-- `resetMQTTPush`, of either handler. -/
  | resetPush
  /-- The overlay section of `Subscribe`. -/
  | overlay
  /-- `startKeepalive`, at the end of `Subscribe`. -/
  | startKeepalive (sent : Bool)
  /-- `publishKeepalive(false)`: the refresh after the portal was found. -/
  | refresh (sent : Bool)
  /-- `stopKeepalive`. -/
  | stopKeepalive
  /-- The state section of `invalidateCerbo`. -/
  | invalidate
  /-- The connection opens or closes; `Subscribe` enables its subscriptions. -/
  | connection (opened enabled : Bool)
  /-- Telemetry is checked for expiry. -/
  | expire
  /-- The clock advances. -/
  | tick (ms : ℕ)

/-- The event is neither of the two sections that ignore the gateway mode. -/
def FedEvent.Fenced : FedEvent → Prop
  | .overlay | .invalidate => False
  | _ => True

/-- The event is one of the gateway side. -/
def FedEvent.ofGateway : FedEvent → Bool
  | .apply _ | .connected _ => true
  | _ => false

namespace Fed

/-- The client after an event. -/
def next (r : NativeScalars) (c : Client) (now : Time) : FedEvent → Option Client
  | .apply st => some (c.applyState st now)
  | .connected v => c.setGatewayConnected v
  | .native parts payload retained generation session =>
    c.applyCerboMessage r parts payload retained generation session now
  | .controller payload retained generation session override =>
    c.applyControllerMessage payload retained session generation override now
  | .notification payload generation session =>
    some (c.applyNotificationMessage payload generation session)
  | .portal p generation session => some (c.applyPortalMessage p generation session)
  | .camera p => some (c.onCameraMessage p)
  | .advance => some c.advanceMQTTSession
  | .resetPush => some c.resetMQTTPush
  | .overlay => c.subscribeOverlay
  | .startKeepalive sent => some (c.startKeepalive sent)
  | .refresh sent => some (c.publishKeepalive sent)
  | .stopKeepalive => some c.stopKeepalive
  | .invalidate => c.invalidateState
  | .connection opened enabled =>
    some { c with connectionOpen := opened, subscriptionsEnabled := enabled }
  | .expire => c.expireOptionalTelemetry now
  | .tick _ => some c

/-- One event. -/
def step (r : NativeScalars) (s : Fed) (e : FedEvent) : Option Fed :=
  (next r s.client s.now e).map fun c =>
    { client := c
      now := match e with
        | .tick ms => s.now + ms
        | _ => s.now
      installed := if e.ofGateway then c.state else s.installed }

/-- A client whose switch to the gateway has completed, with its first snapshot. -/
def Init (s : Fed) : Prop :=
  ∃ (c : Client) (st : State), c.gatewayMode = true ∧ c.controllerLastSeen = none ∧
    s.client = c.applyState st s.now ∧ s.installed = s.client.state

/-! ## Fenced events -/

/-- A callback does not commit in gateway mode. -/
theorem sourceCurrent_of_gateway {c : Client} (h : c.gatewayMode = true) (generation session : ℕ) :
    c.sourceCurrent generation session = false := by
  simp [Client.sourceCurrent, h]

theorem acceptPortal_of_gateway {c : Client} (h : c.gatewayMode = true) (portal : String)
    (generation session : ℕ) : c.acceptPortal portal generation session = (c, false) := by
  simp [Client.acceptPortal, sourceCurrent_of_gateway h]

/-- What every event keeps: the mode, and that no controller of this side was seen. -/
structure Kept (c c' : Client) : Prop where
  gateway : c'.gatewayMode = c.gatewayMode
  seen : c.controllerLastSeen = none → c'.controllerLastSeen = none

theorem Kept.refl (c : Client) : Kept c c := ⟨rfl, fun h => h⟩

theorem Kept.trans {a b c : Client} (h : Kept a b) (h' : Kept b c) : Kept a c :=
  ⟨h'.gateway.trans h.gateway, fun hs => h'.seen (h.seen hs)⟩

/-- A fenced event of the MQTT side keeps what the gateway installed. -/
theorem isolated_next {r : NativeScalars} {c c' : Client} {now : Time} {e : FedEvent}
    (hg : c.gatewayMode = true) (hseen : c.controllerLastSeen = none) (hf : e.Fenced)
    (hside : e.ofGateway = false) (h : next r c now e = some c') :
    GatewayView c.state c'.state ∧ Kept c c' := by
  cases e with
  | apply st => cases hside
  | connected v => cases hside
  | overlay => exact hf.elim
  | invalidate => exact hf.elim
  | native parts payload retained generation session =>
    simp only [next, Client.applyCerboMessage, acceptPortal_of_gateway hg, Bool.not_false,
      Bool.true_or, if_true] at h
    split_ifs at h
    · exact Option.some.inj h ▸ ⟨GatewayView.refl _, Kept.refl _⟩
    · exact Option.some.inj h ▸ ⟨GatewayView.refl _, Kept.refl _⟩
    · exact Option.some.inj h ▸ ⟨GatewayView.refl _, Kept.refl _⟩
  | controller payload retained generation session override =>
    simp only [next, Client.applyControllerMessage, sourceCurrent_of_gateway hg] at h
    cases hd : Client.controllerFrame override payload with
    | none =>
      rw [hd] at h
      exact Option.some.inj h ▸ ⟨GatewayView.refl _, Kept.refl _⟩
    | some data =>
      rw [hd] at h
      exact Option.some.inj h ▸ ⟨GatewayView.refl _, Kept.refl _⟩
  | notification payload generation session =>
    simp only [next, Client.applyNotificationMessage, sourceCurrent_of_gateway hg] at h
    obtain rfl := Option.some.inj h
    cases Client.decodeNotification payload <;> exact ⟨GatewayView.refl _, Kept.refl _⟩
  | portal p generation session =>
    simp only [next, Client.applyPortalMessage, acceptPortal_of_gateway hg, ite_self] at h
    exact Option.some.inj h ▸ ⟨GatewayView.refl _, Kept.refl _⟩
  | camera p =>
    obtain rfl := Option.some.inj h
    refine ⟨⟨fun f hf => State.set_field_ne _ ?_ _, fun f _ => ?_⟩, ⟨rfl, fun h => h⟩⟩
    · rintro rfl
      revert hf
      decide
    · rw [State.available, Client.onCameraMessage, State.set_field_ne _ (by decide)]
      rfl
  | advance =>
    obtain rfl := Option.some.inj h
    have hreset : c.advanceMQTTSession = { c with
        mqttSession := c.mqttSession + 1
        platformSlots := ∅
        platformNotifsSeen := false
        alarmValues := ∅ } := by
      simp [Client.advanceMQTTSession, Client.resetNativeNotifications, hg]
    rw [hreset]
    exact ⟨GatewayView.refl _, ⟨rfl, fun h => h⟩⟩
  | resetPush =>
    simp only [next, Client.resetMQTTPush, hg, if_true] at h
    exact Option.some.inj h ▸ ⟨GatewayView.refl _, Kept.refl _⟩
  | startKeepalive sent =>
    obtain rfl := Option.some.inj h
    unfold Client.startKeepalive Client.publishKeepalive
    split_ifs <;> exact ⟨GatewayView.refl _, ⟨rfl, fun h => h⟩⟩
  | refresh sent =>
    obtain rfl := Option.some.inj h
    unfold Client.publishKeepalive
    split_ifs <;> exact ⟨GatewayView.refl _, ⟨rfl, fun h => h⟩⟩
  | stopKeepalive =>
    obtain rfl := Option.some.inj h
    exact ⟨GatewayView.refl _, ⟨rfl, fun h => h⟩⟩
  | connection opened enabled =>
    obtain rfl := Option.some.inj h
    exact ⟨GatewayView.refl _, ⟨rfl, fun h => h⟩⟩
  | expire =>
    obtain ⟨hinit, -, hfield, havail, -⟩ := c.initCerboMaps_spec
    have hlast : c.initCerboMaps.controllerLastSeen = none := by
      rw [hinit]
      exact hseen
    simp only [next, Client.expireOptionalTelemetry, hlast] at h
    obtain rfl := Option.some.inj h
    refine ⟨⟨fun f hf => hfield f ?_, fun f _ => havail _⟩, ?_, fun _ => hlast⟩
    · rintro rfl
      revert hf
      decide
    · rw [hinit]
  | tick ms =>
    exact Option.some.inj h ▸ ⟨GatewayView.refl _, Kept.refl _⟩

/-- Clearing the optional telemetry forgets the controller and keeps the mode. -/
theorem kept_of_clearOptionalTelemetry {c c' : Client} (h : c.clearOptionalTelemetry = some c') :
    Kept c c' := by
  obtain ⟨c'', hc'', ht, -⟩ := c.clearOptionalTelemetry_spec
  obtain rfl := Option.some.inj (hc''.symm.trans h)
  refine ⟨ht.gateway, fun _ => ?_⟩
  simp only [Client.clearOptionalTelemetry, Option.bind_eq_bind, Option.bind_eq_some_iff,
    Option.pure_def, Option.some.injEq] at h
  obtain ⟨st₁, -, st₂, -, rfl⟩ := h
  rfl

/-- The gateway side keeps its mode, and has not seen a controller of this side. -/
theorem kept_next {r : NativeScalars} {c c' : Client} {now : Time} {e : FedEvent}
    (hside : e.ofGateway = true) (h : next r c now e = some c') : Kept c c' := by
  cases e with
  | apply st =>
    obtain rfl := Option.some.inj h
    unfold Client.applyState
    dsimp only
    split
    · exact ⟨rfl, fun _ => rfl⟩
    · exact ⟨rfl, fun h => h⟩
  | connected v =>
    simp only [next, Client.setGatewayConnected] at h
    have hreset : ∀ c₁ : Client,
        Kept c₁ (if c₁.gatewayMode then c₁.resetPush .gateway else c₁) := by
      intro c₁
      split_ifs
      · exact ⟨rfl, fun h => h⟩
      · exact Kept.refl c₁
    have hset : Kept c { c with gatewayConnected := v } := ⟨rfl, fun h => h⟩
    by_cases hch : (c.gatewayConnected != v) = true
    · rw [if_pos hch] at h
      have hk := hset.trans (hreset { c with gatewayConnected := v })
      cases v with
      | true => exact Option.some.inj h ▸ hk
      | false => exact hk.trans (kept_of_clearOptionalTelemetry h)
    · rw [if_neg hch] at h
      exact Option.some.inj h ▸ hset
  | _ => cases hside

/-- **Step.** A fenced event keeps the mode and the installed view. -/
theorem isolated_step {r : NativeScalars} {s s' : Fed} {e : FedEvent}
    (hg : s.client.gatewayMode = true) (hseen : s.client.controllerLastSeen = none)
    (hv : GatewayView s.installed s.client.state) (hf : e.Fenced) (h : s.step r e = some s') :
    s'.client.gatewayMode = true ∧ s'.client.controllerLastSeen = none ∧
      GatewayView s'.installed s'.client.state := by
  obtain ⟨c', hc', rfl⟩ := Option.map_eq_some_iff.mp h
  cases hside : e.ofGateway with
  | true =>
    have hk := kept_next hside hc'
    exact ⟨hk.gateway.trans hg, hk.seen hseen, by simpa using GatewayView.refl _⟩
  | false =>
    obtain ⟨hview, hk⟩ := isolated_next hg hseen hf hside hc'
    exact ⟨hk.gateway.trans hg, hk.seen hseen, by simpa using hv.trans hview⟩

/-- In a run of fenced events, no event of the MQTT side changes what the gateway installed. -/
theorem view_of_reachable (r : NativeScalars) {s : Fed}
    (h : Transition.Reachable (Fed.step r) (fun _ e => e.Fenced) Fed.Init s) :
    GatewayView s.installed s.client.state := by
  refine (h.invariant (I := fun s => s.client.gatewayMode = true ∧
    s.client.controllerLastSeen = none ∧ GatewayView s.installed s.client.state) ?_ ?_).2.2
  · rintro s ⟨c, st, hg, hseen, hc, hi⟩
    have hk : Kept c s.client := by
      rw [hc]
      exact kept_next (e := .apply st) (r := ⟨fun _ => none, fun _ => none, fun _ => ""⟩) rfl rfl
    exact ⟨hk.gateway.trans hg, hk.seen hseen, hi ▸ GatewayView.refl _⟩
  · exact fun s e s' hi hf hs => isolated_step hi.1 hi.2.1 hi.2.2 hf hs

/-- A client that a gateway has fed with an available controller. -/
def fedOnce : Fed :=
  let c := (newClient {}).enableGateway.applyState
    (State.zero.set .inverterAvailable (some true)) 5000
  ⟨c, 5000, c.state⟩

theorem init_fedOnce : fedOnce.Init :=
  ⟨(newClient {}).enableGateway, State.zero.set .inverterAvailable (some true), rfl, rfl, rfl, rfl⟩

/-- Messages of a session, a reconnect up to its unfenced section, and expiry. -/
def fencedRun : List FedEvent :=
  [.controller .empty false 1 0 false, .native ["N", "c0", "pump", "0", "Mode"] .empty false 1 0,
    .advance, .stopKeepalive, .resetPush, .tick 200000, .expire]

instance (e : FedEvent) : Decidable e.Fenced :=
  match e with
  | .overlay | .invalidate => isFalse id
  | .apply _ | .connected _ | .native .. | .controller .. | .notification .. | .portal ..
  | .camera _ | .advance | .resetPush | .startKeepalive _ | .refresh _ | .stopKeepalive
  | .connection .. | .expire | .tick _ => isTrue trivial

theorem view_of_reachable_fencedRun : ∃ s,
    Transition.Reachable (Fed.step Lan.noScalars) (fun _ e => e.Fenced) Fed.Init s ∧
      GatewayView s.installed s.client.state ∧
      s.client.state.field .inverterAvailable = some true := by
  obtain ⟨s, hs, hp⟩ := Transition.Reachable.exists_of_run (Fed.step Lan.noScalars)
    (fun _ e => e.Fenced) fencedRun
    (fun s => s.client.state.field .inverterAvailable == some true)
    init_fedOnce (by decide) (by decide)
  exact ⟨s, hs, view_of_reachable Lan.noScalars hs, beq_iff_eq.mp hp⟩

/-- The two unfenced sections change what the gateway installed: the connection-lost handler takes
the controller away, and `Subscribe` makes the inventory of an empty cache available. -/
theorem gateway_state_overwritten :
    (∃ s, Transition.Reachable (Fed.step Lan.noScalars) (fun _ _ => True) Fed.Init s ∧
        s.installed.field .inverterAvailable = some true ∧
        s.client.state.field .inverterAvailable = some false) ∧
      ∃ s, Transition.Reachable (Fed.step Lan.noScalars) (fun _ _ => True) Fed.Init s ∧
        s.installed.available "discovered_water_ev" = false ∧
        s.client.state.available "discovered_water_ev" = true := by
  constructor
  · obtain ⟨s, hs, hp⟩ := Transition.Reachable.exists_of_run (Fed.step Lan.noScalars)
      (fun _ _ => True) [.advance, .stopKeepalive, .resetPush, .invalidate]
      (fun s => s.installed.field .inverterAvailable == some true &&
        s.client.state.field .inverterAvailable == some false)
      init_fedOnce (by decide) (by decide)
    obtain ⟨h₁, h₂⟩ := Bool.and_eq_true_iff.mp hp
    exact ⟨s, hs, beq_iff_eq.mp h₁, beq_iff_eq.mp h₂⟩
  · obtain ⟨s, hs, hp⟩ := Transition.Reachable.exists_of_run (Fed.step Lan.noScalars)
      (fun _ _ => True) [.connection true true, .advance, .resetPush, .overlay]
      (fun s => !s.installed.available "discovered_water_ev" &&
        s.client.state.available "discovered_water_ev")
      init_fedOnce (by decide) (by decide)
    obtain ⟨h₁, h₂⟩ := Bool.and_eq_true_iff.mp hp
    exact ⟨s, hs, by simpa using h₁, h₂⟩

end Fed

end Dashboard
