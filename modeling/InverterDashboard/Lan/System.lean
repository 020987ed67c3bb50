import InverterDashboard.Mqtt.Withdraw
import InverterDashboard.Lib.Transition

set_option relaxedAutoImplicit false
set_option autoImplicit false

/-!
# Runs of the client on LAN

The client without a gateway: messages are delivered to callbacks that some `Subscribe` bound, the
clock advances, telemetry expires, and a connection is lost before the next `Subscribe`. Beside the
client a run keeps the messages delivered in the current session, the latest first.

## Main definitions

* `Dashboard.newClient` — `NewClient` with the configured portal and instances.
* `Dashboard.Receipt`, `Dashboard.Lan`, `Dashboard.LanEvent` — the state and the events of a run.
* `Dashboard.Lan.step` — one event.
* `Dashboard.Receipt.stateFrame`, `overrideStatus`, `uiConfig`, `modePayload` — the data a message
  carries.
-/

namespace Dashboard

open Go

/-! ## The new client -/

/-- The configured identity of the Cerbo and its devices. -/
structure Config where
  portalID : String := ""
  tank : ℤ := 0
  pump : ℤ := 0
  valve : ℤ := 0
  ev : ℤ := -1
  evcharger : ℤ := -1

/-- The state `NewClient` starts with. -/
def newState : State :=
  (((((State.zero.set .booleans (some ∅)).set .features (some ∅)).set .dashboardVersion "dev").set
    .version "0.0.0").set .console (GoSlice.ofList [])).set .telemetryAvailable
      (some emptyAvailability)

/-- `NewClient`, `SetWaterConfig` and `SetEVConfig`. -/
def newClient (cfg : Config) : Client :=
  { state := newState
    portalID := trimSpace cfg.portalID
    tankInstance := cfg.tank
    pumpInstance := cfg.pump
    valveInstance := cfg.valve
    evInstance := cfg.ev
    evchargerInstance := cfg.evcharger }

/-! ## Receipts -/

/-- A message delivered to a callback of the current session. -/
structure Receipt where
  time : Time
  retained : Bool
  message : Message

namespace Receipt

/-- The payload of a message on `inverter/state`. -/
def statePayload (r : Receipt) : Option Payload :=
  match r.message with
  | .state payload => some payload
  | _ => none

/-- The frame of a message on `inverter/state` that decodes. -/
def stateFrame (r : Receipt) : Option Frame :=
  match r.message with
  | .state payload => decodeControllerState payload
  | _ => none

/-- The override status a message carries: absent, or what it parses to. -/
def overrideStatus (r : Receipt) : Option (Option SetpointOverrideStatus) :=
  match r.message with
  | .state payload => (decodeControllerState payload).bind Client.carriedStatus
  | .override payload => (Client.controllerFrame true payload).bind Client.carriedStatus
  | _ => none

/-- The `ui_config` entry a message carries. -/
def uiConfig (r : Receipt) : Option Any := r.stateFrame.bind fun data => entry data "ui_config"

/-- The payload of a message of the `Mode` leaf of an instance on a portal. -/
def modePayload (r : Receipt) (portal : String) (inst : ℤ) : Option Payload :=
  match r.message with
  | .native parts payload =>
    if parts = ["N", portal, "pump", itoa inst, "Mode"] then some payload else none
  | _ => none

end Receipt

/-! ## The system -/

/-- A run on LAN: the client, the clock, the messages of the current session, the sessions that
callbacks are bound to, and whether the current one is subscribed. -/
structure Lan where
  client : Client
  now : Time
  log : List Receipt
  bound : List ℕ
  subscribed : Bool

/-- What can happen on LAN. -/
inductive LanEvent where
  /-- A callback bound to a session runs. -/
  | deliver (session : ℕ) (retained : Bool) (m : Message)
  /-- The clock advances. -/
  | tick (ms : ℕ)
  /-- Telemetry is checked for expiry, by the keepalive loop or by a query. -/
  | expire
  /-- The connection is open again. -/
  | opened
  /-- The connection-lost handler runs. -/
  | lost
  /-- `Subscribe` runs. -/
  | subscribe (o : Client.SubscribeOutcome)

namespace Lan

/-- One event. A callback runs only if it was bound, and `Subscribe` runs once for each
connection. -/
def step (r : NativeScalars) (s : Lan) : LanEvent → Option Lan
  | .deliver session retained m =>
    if session ∈ s.bound then
      (s.client.deliver r session retained m s.now).map fun c =>
        { s with
          client := c
          log := if s.client.mqttSession = session then ⟨s.now, retained, m⟩ :: s.log else s.log }
    else none
  | .tick ms => some { s with now := s.now + ms }
  | .expire => (s.client.expireOptionalTelemetry s.now).map fun c => { s with client := c }
  | .opened => some { s with client := { s.client with connectionOpen := true } }
  | .lost => s.client.connectionLost.map fun c =>
    { s with client := c, log := [], subscribed := false }
  | .subscribe o =>
    if s.subscribed then none
    else (s.client.subscribe o).map fun res =>
      if s.client.canSubscribe then
        { s with
          client := res.1
          log := []
          bound := res.1.mqttSession :: s.bound
          subscribed := true }
      else { s with client := res.1 }

/-- The start of a run. -/
def Init (s : Lan) : Prop :=
  ∃ cfg, s.client = newClient cfg ∧ s.log = [] ∧ s.bound = [] ∧ s.subscribed = false

end Lan

/-- A state frame has exact keys; other events are not restricted. -/
def LanEvent.Exact : LanEvent → Prop
  | .deliver _ _ (.state payload) => ∀ data ∈ decodeControllerState payload, ExactKeys data
  | _ => True

instance (e : LanEvent) : Decidable e.Exact :=
  match e with
  | .deliver _ _ (.state payload) =>
    inferInstanceAs (Decidable (∀ data ∈ decodeControllerState payload, ExactKeys data))
  | .deliver _ _ (.native _ _) | .deliver _ _ (.override _) | .deliver _ _ (.notification _)
  | .deliver _ _ (.portal _) | .deliver _ _ (.camera _) | .tick _ | .expire | .opened | .lost
  | .subscribe _ => isTrue trivial

/-! ## One event, case by case -/

namespace Lan

/-- What an event did. -/
inductive Moved (r : NativeScalars) (s : Lan) : LanEvent → Lan → Prop
  /-- A callback of the current session ran. -/
  | delivered {retained : Bool} {m : Message} {c' : Client} :
      s.client.mqttSession ∈ s.bound →
      s.client.deliver r s.client.mqttSession retained m s.now = some c' →
      Moved r s (.deliver s.client.mqttSession retained m)
        { s with client := c', log := ⟨s.now, retained, m⟩ :: s.log }
  /-- A callback of another session ran, without effect on permissions. -/
  | stale {session : ℕ} {retained : Bool} {m : Message} {c' : Client} :
      s.client.SameView c' → s.client.SameTransport c' → c'.portalID = s.client.portalID →
      Moved r s (.deliver session retained m) { s with client := c' }
  /-- The clock advanced. -/
  | ticked {ms : ℕ} : Moved r s (.tick ms) { s with now := s.now + ms }
  /-- Nothing expired, or the controller did. -/
  | expired {c' : Client} : s.client.SameTransport c' → c'.portalID = s.client.portalID →
      (s.client.SameView c' ∨ s.client.Withdrawn c' ∧
        c'.waterModeObserved = s.client.waterModeObserved ∧
        c'.cerboLeaves = s.client.cerboLeaves ∧ c'.controllerESSMode = none ∧
        c'.controllerESSObserved = none ∧ c'.controllerLiveAt = none) →
      Moved r s .expire { s with client := c' }
  /-- The connection opened. -/
  | opened : Moved r s .opened { s with client := { s.client with connectionOpen := true } }
  /-- The connection was lost. -/
  | lost {c' : Client} : s.client.Withdrawn c' → c'.portalID = s.client.portalID →
      c'.cerboLeaves = ∅ → c'.mqttSession = s.client.mqttSession + 1 →
      c'.gatewayMode = s.client.gatewayMode →
      c'.controllerESSMode = s.client.controllerESSMode →
      c'.controllerESSObserved = s.client.controllerESSObserved →
      Moved r s .lost { s with client := c', log := [], subscribed := false }
  /-- `Subscribe` failed its checks. -/
  | refused {o : Client.SubscribeOutcome} {c' : Client} : s.subscribed = false →
      s.client.SameView c' → c'.portalID = s.client.portalID →
      c'.mqttSession = s.client.mqttSession → c'.gatewayMode = s.client.gatewayMode →
      Moved r s (.subscribe o) { s with client := c' }
  /-- `Subscribe` bound callbacks to a new session. -/
  | subscribed {o : Client.SubscribeOutcome} {c₁ c₂ c' : Client} : s.subscribed = false →
      Client.SameView { s.client with cerboLeaves := ∅ } c₁ → c₁.Overlaid c₂ → c₂.SameView c' →
      c'.portalID = s.client.portalID → c'.mqttSession = s.client.mqttSession + 1 →
      c'.gatewayMode = s.client.gatewayMode →
      Moved r s (.subscribe o)
        { s with client := c', log := [], bound := c'.mqttSession :: s.bound, subscribed := true }

/-- A callback of another session changes no permission and no portal. -/
theorem deliver_stale {c c' : Client} {r : NativeScalars} {session : ℕ} {retained : Bool}
    {m : Message} {now : Time} (hne : c.mqttSession ≠ session)
    (h : c.deliver r session retained m now = some c') :
    c.SameView c' ∧ c'.portalID = c.portalID := by
  cases m with
  | portal p =>
    obtain rfl := Option.some.inj h
    refine ⟨c.applyPortalMessage_sameView p _ _, ?_⟩
    have hcur : ∀ g, c.sourceCurrent g session = false := by
      intro g
      simp [Client.sourceCurrent, hne]
    unfold Client.applyPortalMessage Client.acceptPortal
    split_ifs with h₁ h₂
    · rfl
    · rfl
    · rw [hcur, Bool.not_false, Bool.or_true] at h₂
      exact absurd rfl h₂
  | camera p =>
    obtain rfl := Option.some.inj h
    exact ⟨c.onCameraMessage_sameView p, rfl⟩
  | native parts payload =>
    simp only [Client.deliver, if_neg hne] at h
    exact Option.some.inj h ▸ ⟨Client.SameView.refl c, rfl⟩
  | state payload =>
    simp only [Client.deliver, if_neg hne] at h
    exact Option.some.inj h ▸ ⟨Client.SameView.refl c, rfl⟩
  | override payload =>
    simp only [Client.deliver, if_neg hne] at h
    exact Option.some.inj h ▸ ⟨Client.SameView.refl c, rfl⟩
  | notification payload =>
    simp only [Client.deliver, if_neg hne] at h
    exact Option.some.inj h ▸ ⟨Client.SameView.refl c, rfl⟩

/-- The inversion of a step. -/
theorem step_cases {r : NativeScalars} {s s' : Lan} {e : LanEvent} (hs : s.step r e = some s') :
    Moved r s e s' := by
  cases e with
  | deliver session retained m =>
    rw [step] at hs
    by_cases hmem : session ∈ s.bound
    · rw [if_pos hmem] at hs
      obtain ⟨c', hc', rfl⟩ := Option.map_eq_some_iff.mp hs
      by_cases heq : s.client.mqttSession = session
      · subst heq
        rw [if_pos rfl]
        exact .delivered hmem hc'
      · rw [if_neg heq]
        obtain ⟨hv, hp⟩ := deliver_stale heq hc'
        exact .stale hv (Client.deliver_sameTransport hc') hp
    · rw [if_neg hmem] at hs
      cases hs
  | tick ms => exact Option.some.inj hs ▸ .ticked
  | expire =>
    obtain ⟨c', hc', rfl⟩ := Option.map_eq_some_iff.mp hs
    obtain ⟨c'', hc'', ht, hp, hcases⟩ := s.client.expireOptionalTelemetry_spec s.now
    obtain rfl := Option.some.inj (hc''.symm.trans hc')
    exact .expired ht hp hcases
  | opened => exact Option.some.inj hs ▸ .opened
  | lost =>
    obtain ⟨c', hc', rfl⟩ := Option.map_eq_some_iff.mp hs
    obtain ⟨c'', hc'', hw, hp, hl, hsess, hgate, hm, ho⟩ := s.client.connectionLost_spec
    obtain rfl := Option.some.inj (hc''.symm.trans hc')
    exact .lost hw hp hl hsess hgate hm ho
  | subscribe o =>
    rw [step] at hs
    by_cases hsub : s.subscribed = true
    · rw [if_pos hsub] at hs
      cases hs
    · rw [if_neg hsub] at hs
      have hsub : s.subscribed = false := by simpa using hsub
      obtain ⟨res, hres, rfl⟩ := Option.map_eq_some_iff.mp hs
      obtain ⟨c', ok, hc', hp, hgate, hcases⟩ := s.client.subscribe_spec o
      obtain rfl := Option.some.inj (hc'.symm.trans hres)
      rcases hcases with ⟨hcan, hv, hsess, -⟩ | ⟨hcan, hsess, c₁, c₂, h₁, h₂, h₃⟩
      · rw [hcan]
        exact .refused hsub hv hp hsess hgate
      · rw [hcan]
        exact .subscribed hsub h₁ h₂ h₃ hp hsess hgate

/-! ## Sessions of a run -/

/-- Callbacks are bound to past sessions or the current one, the current one only while it is
subscribed, and nothing is delivered before that. -/
structure Sessions (s : Lan) : Prop where
  bound : ∀ n ∈ s.bound, n ≤ s.client.mqttSession
  current : s.subscribed = false → s.client.mqttSession ∉ s.bound ∧ s.log = []
  lan : s.client.gatewayMode = false

theorem sessions_of_init {s : Lan} (h : s.Init) : s.Sessions := by
  obtain ⟨cfg, hc, hlog, hbound, -⟩ := h
  refine ⟨by simp [hbound], fun _ => ⟨by simp [hbound], hlog⟩, by rw [hc]; rfl⟩

/-- **Step.** Every event keeps the sessions in order. -/
theorem sessions_step {r : NativeScalars} {s s' : Lan} {e : LanEvent} (h : s.Sessions)
    (hs : s.step r e = some s') : s'.Sessions := by
  cases step_cases hs with
  | delivered hmem hc' =>
    have ht := Client.deliver_sameTransport hc'
    exact ⟨fun n hn => ht.session ▸ h.bound n hn, fun hsub => absurd hmem (h.current hsub).1,
      ht.gateway.trans h.lan⟩
  | stale _ ht _ =>
    exact ⟨fun n hn => ht.session ▸ h.bound n hn,
      fun hsub => ⟨ht.session ▸ (h.current hsub).1, (h.current hsub).2⟩, ht.gateway.trans h.lan⟩
  | ticked => exact ⟨h.bound, h.current, h.lan⟩
  | expired ht _ _ =>
    exact ⟨fun n hn => ht.session ▸ h.bound n hn,
      fun hsub => ⟨ht.session ▸ (h.current hsub).1, (h.current hsub).2⟩, ht.gateway.trans h.lan⟩
  | opened => exact ⟨h.bound, h.current, h.lan⟩
  | @lost c' _ _ _ hsess hgate _ _ =>
    refine ⟨fun n hn => ?_, fun _ => ⟨fun hmem => ?_, rfl⟩, hgate.trans h.lan⟩
    · have := h.bound n hn
      show n ≤ c'.mqttSession
      omega
    · have : c'.mqttSession ≤ s.client.mqttSession := h.bound _ hmem
      omega
  | refused hsub _ _ hsess hgate =>
    exact ⟨fun n hn => hsess ▸ h.bound n hn,
      fun _ => ⟨hsess ▸ (h.current hsub).1, (h.current hsub).2⟩, hgate.trans h.lan⟩
  | @subscribed o c₁ c₂ c' hsub _ _ _ _ hsess hgate =>
    refine ⟨fun n hn => ?_, fun hf => (by cases hf), hgate.trans h.lan⟩
    show n ≤ c'.mqttSession
    rcases List.mem_cons.mp hn with rfl | hn
    · exact le_refl _
    · have := h.bound n hn
      omega

/-! ## A run to start from -/

/-- Readers of native scalars that accept nothing. -/
def noScalars : NativeScalars := ⟨fun _ => none, fun _ => none, fun _ => ""⟩

/-- A client on LAN whose portal is configured. -/
def configured : Lan := ⟨newClient { portalID := "c0" }, 5000, [], [], false⟩

theorem init_configured : configured.Init := ⟨{ portalID := "c0" }, rfl, rfl, rfl, rfl⟩

end Lan

end Dashboard
