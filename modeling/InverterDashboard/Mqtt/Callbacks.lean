import InverterDashboard.Mqtt.Merge

set_option relaxedAutoImplicit false
set_option autoImplicit false

/-!
# The subscribed callbacks

The handlers `Subscribe` installs (`bindControllerCallback`, `bindPushCallback`,
`bindPortalCallback`, `onCameraMessage`), each run to completion, and what a delivery cannot
change.

## Main definitions

* `Dashboard.Message` — a message by the callback it is routed to.
* `Dashboard.Client.deliver` — the callback bound to a session.
* `Dashboard.Client.SameTransport` — tokens, switches and configuration agree.
* `Dashboard.Client.Native` — what a native message did.

## Main results

* `Dashboard.Client.deliver_sameTransport` — a delivery changes no token and no switch.
* `Dashboard.Client.applyCerboMessage_spec` — the native callback, case by case.
-/

namespace Dashboard

open Go

/-- A payload on the camera topic: its trimmed text, and the members when it is a JSON object of
the right shape. -/
structure CameraText where
  text : String
  parsed : Option (String × String × String)

/-- The event of a camera payload. -/
def cameraEventOf (p : CameraText) : CameraEvent :=
  match p.parsed with
  | some (agentName, videoURL, timestamp) =>
    if agentName = "" ∧ videoURL = "" then { camera := "Camera", url := p.text }
    else
      { camera := if agentName = "" then "Camera" else agentName
        url := videoURL
        ts := timestamp }
  | none => { camera := "Camera", url := p.text }

/-- A message by the callback it is routed to. Lines on `inverter/console` only reach the console
buffer, which is not part of the state. -/
inductive Message where
  | native (parts : List String) (payload : Payload)
  | state (payload : Payload)
  | override (payload : Payload)
  | notification (payload : Payload)
  | portal (p : PortalText)
  | camera (p : CameraText)

namespace Client

/-- `applyNotificationMessage`. -/
def applyNotificationMessage (c : Client) (payload : Payload) (generation session : ℕ) :
    Client :=
  match decodeNotification payload with
  | none => c
  | some n => if c.sourceCurrent generation session then c.commitNotification n else c

/-- A notification message changes banners only. -/
theorem applyNotificationMessage_frame (c : Client) (payload : Payload)
    (generation session : ℕ) :
    BannersOnly c (c.applyNotificationMessage payload generation session) := by
  unfold applyNotificationMessage
  cases decodeNotification payload with
  | none => exact bannersOnly_refl c
  | some n =>
    dsimp only
    split_ifs
    · exact c.commitNotification_frame n
    · exact bannersOnly_refl c

/-- `onCameraMessage`. -/
def onCameraMessage (c : Client) (p : CameraText) : Client :=
  { c with state := c.state.set .cameraEvent (some (cameraEventOf p)) }

/-- The callback of a message that was bound to a session, run to completion. The generation is
captured when it starts. -/
def deliver (c : Client) (r : NativeScalars) (session : ℕ) (retained : Bool) (m : Message)
    (now : Time) : Option Client :=
  match m with
  | .native parts payload =>
    if c.mqttSession = session then
      c.applyCerboMessage r parts payload retained c.pushGeneration session now
    else some c
  | .state payload =>
    if c.mqttSession = session then
      c.applyControllerMessage payload retained session c.pushGeneration false now
    else some c
  | .override payload =>
    if c.mqttSession = session then
      c.applyControllerMessage payload retained session c.pushGeneration true now
    else some c
  | .notification payload =>
    if c.mqttSession = session then
      some (c.applyNotificationMessage payload c.pushGeneration session)
    else some c
  | .portal p => some (c.applyPortalMessage p c.pushGeneration session)
  | .camera p => some (c.onCameraMessage p)

/-! ## What no delivery changes -/

/-- The tokens, the switches and the configuration agree. -/
structure SameTransport (c c' : Client) : Prop where
  generation : c'.pushGeneration = c.pushGeneration
  session : c'.mqttSession = c.mqttSession
  opened : c'.connectionOpen = c.connectionOpen
  gateway : c'.gatewayMode = c.gatewayMode
  connected : c'.gatewayConnected = c.gatewayConnected
  publish : c'.gatewayPublish = c.gatewayPublish
  keepalive : c'.keepaliveStop = c.keepaliveStop
  options : c'.options = c.options

namespace SameTransport

theorem refl (c : Client) : SameTransport c c := ⟨rfl, rfl, rfl, rfl, rfl, rfl, rfl, rfl⟩

theorem trans {a b c : Client} (h : SameTransport a b) (h' : SameTransport b c) :
    SameTransport a c :=
  ⟨h'.generation.trans h.generation, h'.session.trans h.session, h'.opened.trans h.opened,
    h'.gateway.trans h.gateway, h'.connected.trans h.connected, h'.publish.trans h.publish,
    h'.keepalive.trans h.keepalive, h'.options.trans h.options⟩

end SameTransport

theorem BannersOnly.sameTransport {c c' : Client} (h : BannersOnly c c') : SameTransport c c' := by
  obtain ⟨l, slots, seen, alarms, rfl⟩ := h
  exact ⟨rfl, rfl, rfl, rfl, rfl, rfl, rfl, rfl⟩

theorem BannersOnly.portalID {c c' : Client} (h : BannersOnly c c') : c'.portalID = c.portalID := by
  obtain ⟨l, slots, seen, alarms, rfl⟩ := h
  rfl

theorem Overlaid.sameTransport {c c' : Client} (h : Overlaid c c') : SameTransport c c' := by
  rw [h.frame]
  exact ⟨rfl, rfl, rfl, rfl, rfl, rfl, rfl, rfl⟩

theorem initCerboMaps_sameTransport (c : Client) : SameTransport c c.initCerboMaps := by
  rw [c.initCerboMaps_spec.1]
  exact ⟨rfl, rfl, rfl, rfl, rfl, rfl, rfl, rfl⟩

theorem Stored.sameTransport {c c₁ : Client} {parts : List String} {payload : Payload}
    (h : Stored c parts payload c₁) : SameTransport c c₁ := by
  rw [h.frame]
  exact ⟨rfl, rfl, rfl, rfl, rfl, rfl, rfl, rfl⟩

theorem commitController_sameTransport {c c' : Client} {override : Bool} {data : Frame}
    {retained : Bool} {now : Time} (h : c.commitController override data retained now = some c') :
    SameTransport c c' := by
  rw [commitController_frame h]
  exact ⟨rfl, rfl, rfl, rfl, rfl, rfl, rfl, rfl⟩

theorem applyControllerMessage_sameTransport {c c' : Client} {payload : Payload}
    {retained override : Bool} {session generation : ℕ} {now : Time}
    (h : c.applyControllerMessage payload retained session generation override now = some c') :
    SameTransport c c' := by
  rcases applyControllerMessage_cases h with rfl | ⟨data, c₁, -, -, hc₁, rfl⟩
  · exact SameTransport.refl _
  · exact (commitController_sameTransport hc₁).trans ⟨rfl, rfl, rfl, rfl, rfl, rfl, rfl, rfl⟩

/-! ## The native callback -/

/-- What the native callback did to the client it found: nothing, the discovery of the portal
`portal`, a banner commit, or a device message whose receipt is `waterModeObserved`. -/
inductive Native (c : Client) (parts : List String) (payload : Payload) (retained : Bool)
    (now : Time) : Client → Prop
  /-- The message was ignored. -/
  | ignored : Native c parts payload retained now c
  /-- Banners or their caches changed. -/
  | banners {c' : Client} : BannersOnly c c' → Native c parts payload retained now c'
  /-- A device message was handled. -/
  | device {c₁ c' : Client} {changed : Bool} : hasInnerLevel parts "Alarms" = false →
      (changed = false ∧ (c₁ = c ∨ c₁ = c.initCerboMaps) ∨
        changed = true ∧ ∃ c₀, Stored c parts payload c₀ ∧ Overlaid c₀ c₁) →
      c' = (if changed then
          { c₁.updateWaterModeObservation parts changed retained now with
            lastStateTime := some now }
        else c₁.updateWaterModeObservation parts changed retained now) →
      Native c parts payload retained now c'

theorem commitNative_spec {c c' : Client} {r : NativeScalars} {parts : List String}
    {payload : Payload} {retained : Bool} {now : Time}
    (h : c.commitNative r parts payload retained now = some c') :
    Native c parts payload retained now c' := by
  unfold commitNative at h
  split_ifs at h
  · exact Option.some.inj h ▸ .ignored
  · cases hu : decodePlatformNotification r parts payload with
    | none =>
      rw [hu] at h
      exact Option.some.inj h ▸ .ignored
    | some u =>
      rw [hu] at h
      exact Option.some.inj h ▸ .banners (c.commitPlatform_frame r u)
  · exact Option.some.inj h ▸ .banners (c.commitAlarm_frame r parts payload)
  · obtain ⟨c₁, changed, hc₁, hspec⟩ := c.handleCerboDevice_spec parts payload now
    rw [commitDevice, hc₁] at h
    exact .device (by simpa using ‹¬hasInnerLevel parts "Alarms" = true›) hspec
      (Option.some.inj h).symm

/-- The native callback: it is ignored, or the portal is settled and the message is committed. A
settled portal stays. -/
theorem applyCerboMessage_spec {c c' : Client} {r : NativeScalars} {parts : List String}
    {payload : Payload} {retained : Bool} {generation session : ℕ} {now : Time}
    (h : c.applyCerboMessage r parts payload retained generation session now = some c') :
    c' = c ∨ ∃ c₁, (c₁ = c ∧ c.portalID ≠ "" ∨
        c.portalID = "" ∧ c₁ = { c with portalID := parts.getD 1 "" }) ∧
      c₁.portalID = parts.getD 1 "" ∧ validPortal (parts.getD 1 "") = true ∧
      c.sourceCurrent generation session = true ∧ parts.getD 0 "" = "N" ∧
      Native c₁ parts payload retained now c' := by
  unfold applyCerboMessage at h
  split_ifs at h with hguard hvalid
  · exact Or.inl (Option.some.inj h).symm
  · exact Or.inl (Option.some.inj h).symm
  · obtain ⟨-, -, hN⟩ : generation = c.pushGeneration ∧ ¬ parts.length < 3 ∧
        parts.getD 0 "" = "N" := by simpa [not_or] using hguard
    unfold acceptPortal at h
    by_cases hbad : (!validPortal (parts.getD 1 "") || !c.sourceCurrent generation session) = true
    · rw [if_pos hbad] at h
      exact Or.inl (Option.some.inj h).symm
    · rw [if_neg hbad] at h
      have hok : validPortal (parts.getD 1 "") = true ∧ c.sourceCurrent generation session = true :=
        by simpa using hbad
      by_cases hportal : c.portalID ≠ ""
      · rw [if_pos hportal] at h
        dsimp only at h
        split_ifs at h with hmatch
        · exact Or.inl (Option.some.inj h).symm
        · have heq : c.portalID = parts.getD 1 "" := by
            cases hb : c.portalID == parts.getD 1 "" with
            | true => exact beq_iff_eq.mp hb
            | false => simp only [hb, Bool.not_false, Bool.true_or, not_true_eq_false] at hmatch
          exact Or.inr ⟨c, Or.inl ⟨rfl, hportal⟩, heq, hok.1, hok.2, hN, commitNative_spec h⟩
      · rw [if_neg hportal] at h
        have hempty : c.portalID = "" := by simpa using hportal
        have hcur : ({ c with portalID := parts.getD 1 "" } : Client).sourceCurrent generation
            session = true := hok.2
        dsimp only at h
        rw [hcur] at h
        exact Or.inr ⟨_, Or.inr ⟨hempty, rfl⟩, rfl, hok.1, hok.2, hN, commitNative_spec h⟩

theorem Native.sameTransport {c c' : Client} {parts : List String} {payload : Payload}
    {retained : Bool} {now : Time} (h : Native c parts payload retained now c') :
    SameTransport c c' := by
  cases h with
  | ignored => exact SameTransport.refl c
  | banners h => exact h.sameTransport
  | @device c₁ c' changed _ h hc' =>
    have h₁ : SameTransport c c₁ := by
      rcases h with ⟨-, rfl | rfl⟩ | ⟨-, c₀, hst, hov⟩
      · exact SameTransport.refl c₁
      · exact c.initCerboMaps_sameTransport
      · exact hst.sameTransport.trans hov.sameTransport
    refine h₁.trans ?_
    rw [hc']
    split_ifs <;> exact ⟨rfl, rfl, rfl, rfl, rfl, rfl, rfl, rfl⟩

/-- A delivery changes no token, no switch and no configuration. -/
theorem deliver_sameTransport {c c' : Client} {r : NativeScalars} {session : ℕ}
    {retained : Bool} {m : Message} {now : Time}
    (h : c.deliver r session retained m now = some c') : SameTransport c c' := by
  cases m with
  | native parts payload =>
    simp only [deliver] at h
    split_ifs at h
    · rcases applyCerboMessage_spec h with rfl | ⟨c₁, hc₁, -, -, -, -, hn⟩
      · exact SameTransport.refl _
      · refine SameTransport.trans ?_ hn.sameTransport
        rcases hc₁ with ⟨rfl, -⟩ | ⟨-, rfl⟩
        · exact SameTransport.refl _
        · exact ⟨rfl, rfl, rfl, rfl, rfl, rfl, rfl, rfl⟩
    · exact Option.some.inj h ▸ SameTransport.refl c
  | state payload =>
    simp only [deliver] at h
    split_ifs at h
    · exact applyControllerMessage_sameTransport h
    · exact Option.some.inj h ▸ SameTransport.refl c
  | override payload =>
    simp only [deliver] at h
    split_ifs at h
    · exact applyControllerMessage_sameTransport h
    · exact Option.some.inj h ▸ SameTransport.refl c
  | notification payload =>
    simp only [deliver] at h
    split_ifs at h
    · exact Option.some.inj h ▸ (c.applyNotificationMessage_frame payload _ _).sameTransport
    · exact Option.some.inj h ▸ SameTransport.refl c
  | portal p =>
    simp only [deliver, applyPortalMessage, acceptPortal] at h
    obtain rfl := Option.some.inj h
    split_ifs <;> exact ⟨rfl, rfl, rfl, rfl, rfl, rfl, rfl, rfl⟩
  | camera p =>
    obtain rfl := Option.some.inj h
    exact ⟨rfl, rfl, rfl, rfl, rfl, rfl, rfl, rfl⟩

end Client

end Dashboard
