import InverterDashboard.Lan.System
import InverterDashboard.Lib.RWMutex

set_option relaxedAutoImplicit false
set_option autoImplicit false

/-!
# The fence between callbacks and retirements

Every subscribed callback is broken into its atomic steps: it captures the generation, checks its
session, decodes, and then runs one or two sections, each of which takes the read side of
`gatewayMu`, checks the tokens, commits and releases. Sessions, generations and the mode change
only under the write side.

## Main definitions

* `Dashboard.Section` — a section of a callback and its commit.
* `Dashboard.Callback`, `Dashboard.Retirement` — threads with their program counters.
* `Dashboard.Fenced.step` — one atomic step of one thread.

## Main results

* `Dashboard.Fenced.inv_step` — the lock is held as the program counters say, and a checked
  callback has the current tokens.
* `Dashboard.Fenced.current_of_commit` — a callback changes the client only with current tokens.
-/

namespace Dashboard

open Go

/-! ## Callbacks -/

/-- A section of a callback under the read side of `gatewayMu`. -/
inductive Section where
  /-- `acceptPortal`. -/
  | portal (p : String)
  /-- `applyPlatformNotification`. -/
  | platform (u : PlatformUpdate)
  /-- `applyCerboAlarm`. -/
  | alarm (parts : List String) (payload : Payload)
  /-- `applyCerboDeviceMessage`. -/
  | device (parts : List String) (payload : Payload)
  /-- `applyControllerMessage`, for a state or an override frame. -/
  | controller (override : Bool) (data : Frame)
  /-- `applyNotificationMessage`. -/
  | notification (n : Notification)

/-- The commit of a section, with whether the callback goes on. The time of the last message, which
is kept for health reports, is set behind the lock and left out. -/
def Section.commit (r : NativeScalars) (c : Client) (retained : Bool) (now : Time) :
    Section → Option (Client × Bool)
  | .portal p =>
    if c.portalID ≠ "" then some (c, c.portalID == p) else some ({ c with portalID := p }, true)
  | .platform u => some (c.commitPlatform r u, true)
  | .alarm parts payload => some (c.commitAlarm r parts payload, true)
  | .device parts payload => (c.handleCerboDevice parts payload now).map fun res =>
    (res.1.updateWaterModeObservation parts res.2 retained now, true)
  | .controller override data =>
    (c.commitController override data retained now).map fun c => (c, true)
  | .notification n => some (c.commitNotification n, true)

/-- The section of a native message behind the portal check. -/
def bodySections (r : NativeScalars) (parts : List String) (payload : Payload) : List Section :=
  if parts.length = 3 then []
  else if parts.getD 2 "" = "platform" ∧ Client.hasInnerLevel parts "Notifications" then
    ((decodePlatformNotification r parts payload).map Section.platform).toList
  else if Client.hasInnerLevel parts "Alarms" then [.alarm parts payload]
  else [.device parts payload]

/-- The sections of a native message. -/
def nativeSections (r : NativeScalars) (c : Client) (parts : List String) (payload : Payload) :
    List Section :=
  if parts.length < 3 ∨ parts.getD 0 "" ≠ "N" then []
  else if !c.validateCerboMessagePayload parts payload || !validPortal (parts.getD 1 "") then []
  else .portal (parts.getD 1 "") :: bodySections r parts payload

/-- What decoding makes of a message. The camera callback is not fenced and has no section. -/
def Message.sections (r : NativeScalars) (c : Client) : Message → List Section
  | .native parts payload => nativeSections r c parts payload
  | .state payload => ((Client.controllerFrame false payload).map (Section.controller false)).toList
  | .override payload =>
    ((Client.controllerFrame true payload).map (Section.controller true)).toList
  | .notification payload => ((Client.decodeNotification payload).map Section.notification).toList
  | .portal p =>
    let portal := p.quoted.getD (trimSpace p.text)
    if c.portalID ≠ "" ∨ !validPortal portal then [] else [.portal portal]
  | .camera _ => []

/-- The sections of a callback in a row, as long as it goes on. -/
def commitAll (r : NativeScalars) (retained : Bool) (now : Time) :
    List Section → Client → Option Client
  | [], c => some c
  | sec :: rest, c => (sec.commit r c retained now).bind fun res =>
    if res.2 then commitAll r retained now rest res.1 else some res.1

/-- Everything but the time of the last message. -/
def Client.sansTime (c : Client) : Client := { c with lastStateTime := none }

theorem commitNative_sections (r : NativeScalars) (c : Client) (parts : List String)
    (payload : Payload) (retained : Bool) (now : Time) :
    (c.commitNative r parts payload retained now).map Client.sansTime =
      (commitAll r retained now (bodySections r parts payload) c).map Client.sansTime := by
  unfold Client.commitNative bodySections
  split_ifs
  · rfl
  · cases decodePlatformNotification r parts payload with
    | none => rfl
    | some u => rfl
  · rfl
  · obtain ⟨c₁, changed, hc₁, -⟩ := c.handleCerboDevice_spec parts payload now
    simp only [Client.commitDevice, commitAll, Section.commit, hc₁]
    cases changed <;> rfl

/-- An uninterrupted callback with current tokens is `deliver`, up to the time of the last
message. -/
theorem deliver_eq_commitAll (r : NativeScalars) (c : Client) (retained : Bool) (m : Message)
    (now : Time) (hm : ∀ p, m ≠ .camera p) (hlan : c.gatewayMode = false) :
    (c.deliver r c.mqttSession retained m now).map Client.sansTime =
      (commitAll r retained now (m.sections r c) c).map Client.sansTime := by
  have hcur : ∀ p, ({ c with portalID := p } : Client).sourceCurrent c.pushGeneration
      c.mqttSession = true := by
    intro p
    simp [Client.sourceCurrent, hlan]
  have hcur' := hcur c.portalID
  cases m with
  | camera p => exact absurd rfl (hm p)
  | native parts payload =>
    simp only [Client.deliver, Message.sections, if_true, Client.applyCerboMessage, nativeSections,
      ne_eq, not_true_eq_false, false_or]
    by_cases hshape : parts.length < 3 ∨ ¬parts.getD 0 "" = "N"
    · rw [if_pos hshape, if_pos hshape]
      rfl
    rw [if_neg hshape, if_neg hshape]
    cases hvalid : c.validateCerboMessagePayload parts payload with
    | false => rfl
    | true =>
      generalize parts.getD 1 "" = portal
      cases hportal : validPortal portal with
      | false => simp [Client.acceptPortal, hportal, commitAll]
      | true =>
        by_cases hknown : c.portalID = ""
        · simp [Client.acceptPortal, hportal, commitAll, Section.commit, hcur, hknown,
            commitNative_sections]
        · cases hsame : c.portalID == portal with
          | false => simp [Client.acceptPortal, hportal, commitAll, Section.commit, hcur', hknown,
              hsame]
          | true => simp [Client.acceptPortal, hportal, commitAll, Section.commit, hcur', hknown,
              hsame, commitNative_sections]
  | state payload =>
    simp only [Client.deliver, Message.sections, if_true, Client.applyControllerMessage]
    cases Client.controllerFrame false payload with
    | none => rfl
    | some data =>
      simp only [Option.map_some, Option.toList_some, commitAll, Section.commit]
      rw [if_pos (hcur c.portalID)]
      cases c.commitController false data retained now <;> rfl
  | override payload =>
    simp only [Client.deliver, Message.sections, if_true, Client.applyControllerMessage]
    cases Client.controllerFrame true payload with
    | none => rfl
    | some data =>
      simp only [Option.map_some, Option.toList_some, commitAll, Section.commit]
      rw [if_pos (hcur c.portalID)]
      cases c.commitController true data retained now <;> rfl
  | notification payload =>
    simp only [Client.deliver, Message.sections, if_true, Client.applyNotificationMessage]
    cases Client.decodeNotification payload with
    | none => rfl
    | some n =>
      dsimp only
      rw [if_pos (hcur c.portalID)]
      rfl
  | portal p =>
    simp only [Client.deliver, Message.sections, Client.applyPortalMessage]
    by_cases hknown : c.portalID = ""
    · cases hportal : validPortal (p.quoted.getD (trimSpace p.text)) with
      | false => simp [Client.acceptPortal, hknown, hportal, commitAll]
      | true => simp [Client.acceptPortal, hknown, hportal, commitAll, Section.commit, hcur']
    · simp [hknown, commitAll]
/-- Whether the callback compares its session before it decodes. -/
def Message.checksSession : Message → Bool
  | .portal _ | .camera _ => false
  | _ => true

/-- Whether the callback compares its generation before it decodes. -/
def Message.checksGeneration : Message → Bool
  | .native .. | .notification _ => true
  | _ => false

/-- Where a callback stands. -/
inductive CallbackPC where
  /-- Routed, nothing read yet. -/
  | started
  /-- The generation is captured. -/
  | captured
  /-- The session was the current one. -/
  | admitted
  /-- Before a section. -/
  | ready (sections : List Section)
  /-- Inside the read side, before the check. -/
  | locked (section_ : Section) (rest : List Section)
  /-- Inside the read side, the tokens were current. -/
  | checked (section_ : Section) (rest : List Section)
  /-- Inside the read side, behind the commit. -/
  | committed (rest : List Section)
  /-- Returned. -/
  | finished

/-- A callback: the session it is bound to, its message and its program counter. -/
structure Callback where
  session : ℕ
  retained : Bool
  message : Message
  generation : ℕ := 0
  pc : CallbackPC := .started

namespace Callback

/-- Whether the callback is inside the read side. -/
def holds (b : Callback) : Bool :=
  match b.pc with
  | .locked .. | .checked .. | .committed .. => true
  | _ => false

/-- Whether the callback has checked its tokens and not committed yet. -/
def isChecked (b : Callback) : Bool :=
  match b.pc with
  | .checked .. => true
  | _ => false

end Callback

/-! ## Retirements -/

/-- A change of the tokens or of what they guard, under the write side of `gatewayMu`. -/
inductive Mutation where
  | session
  | banners (always : Bool)
  | mode (gateway : Bool)
  | generation (source : PushSource)
  | mqttGeneration
  | disconnect

/-- The change of the client. -/
def Mutation.apply (c : Client) : Mutation → Client
  | .session => { c with mqttSession := c.mqttSession + 1 }
  | .banners always => c.resetNativeNotifications (always || !c.gatewayMode)
  | .mode gateway => { c with gatewayMode := gateway }
  | .generation source => c.resetPush source
  | .mqttGeneration => c.resetMQTTPush
  | .disconnect => { c with gatewayConnected := false }

/-- The functions that retire a session or a source. -/
inductive RetirementKind where
  | advanceMQTTSession
  | resetMQTTPush
  | enableGatewayMode
  | disableGatewayMode

namespace RetirementKind

/-- The changes of a retirement, in order. -/
def mutations : RetirementKind → List Mutation
  | .advanceMQTTSession => [.session, .banners false]
  | .resetMQTTPush => [.mqttGeneration]
  | .enableGatewayMode => [.mode true, .generation .gateway, .banners true]
  | .disableGatewayMode => [.mode false, .generation .mqtt, .banners true, .disconnect]

/-- Whether the observations are cleared behind the lock. -/
def clears : RetirementKind → Bool
  | .enableGatewayMode | .disableGatewayMode => true
  | _ => false

/-- The changes of a retirement are those of the function. -/
theorem foldl_mutations (c : Client) (k : RetirementKind) :
    k.mutations.foldl Mutation.apply c =
      match k with
      | .advanceMQTTSession => c.advanceMQTTSession
      | .resetMQTTPush => c.resetMQTTPush
      | .enableGatewayMode => c.enableGateway
      | .disableGatewayMode => c.disableGateway := by
  cases k <;> rfl

end RetirementKind

/-- Where a retirement stands. -/
inductive RetirementPC where
  | waiting
  | inside (rest : List Mutation)
  | clearing
  | finished

/-- A running retirement. -/
structure Retirement where
  kind : RetirementKind
  pc : RetirementPC := .waiting

/-- Whether the retirement is inside the write side. -/
def Retirement.holds (t : Retirement) : Bool :=
  match t.pc with
  | .inside _ => true
  | _ => false

/-! ## The system -/

/-- The client with its transport lock and the running threads. -/
structure Fenced where
  client : Client
  now : Time
  gatewayMu : RWMutex ℕ ℕ
  callbacks : ℕ → Option Callback
  retirements : ℕ → Option Retirement

/-- A step: a thread starts or goes on, or a section that changes no token runs. -/
inductive FencedEvent where
  /-- A callback of a subscription is routed. -/
  | route (i : ℕ) (session : ℕ) (retained : Bool) (m : Message)
  /-- A callback takes its next step. -/
  | callback (i : ℕ)
  /-- A retirement starts. -/
  | retire (j : ℕ) (kind : RetirementKind)
  /-- A retirement takes its next step. -/
  | retirement (j : ℕ)
  /-- Telemetry is checked for expiry. -/
  | expire
  /-- The state section of `Subscribe`. -/
  | overlay
  /-- The state section of `invalidateCerbo`. -/
  | invalidate
  /-- `ApplyState`. -/
  | apply (st : State)
  /-- The camera callback. -/
  | camera (p : CameraText)
  /-- The clock advances. -/
  | tick (ms : ℕ)

namespace Fenced

/-- The system with the callback `i` replaced. -/
def setCallback (s : Fenced) (i : ℕ) (b : Callback) : Fenced :=
  { s with callbacks := Function.update s.callbacks i (some b) }

/-- The system with the retirement `j` replaced. -/
def setRetirement (s : Fenced) (j : ℕ) (t : Retirement) : Fenced :=
  { s with retirements := Function.update s.retirements j (some t) }

/-- The next step of the callback `i`. -/
def stepCallback (r : NativeScalars) (s : Fenced) (i : ℕ) (b : Callback) : Option Fenced :=
  match b.pc with
  | .started =>
    some (s.setCallback i { b with generation := s.client.pushGeneration, pc := .captured })
  | .captured =>
    some (s.setCallback i
      { b with pc :=
          if b.message.checksSession && s.client.mqttSession != b.session then .finished
          else .admitted })
  | .admitted =>
    some (s.setCallback i
      { b with pc :=
          if b.message.checksGeneration && s.client.pushGeneration != b.generation then .finished
          else .ready (b.message.sections r s.client) })
  | .ready [] => some (s.setCallback i { b with pc := .finished })
  | .ready (sec :: rest) => (s.gatewayMu.rLock i).map fun m =>
    { s with gatewayMu := m }.setCallback i { b with pc := .locked sec rest }
  | .locked sec rest =>
    if s.client.sourceCurrent b.generation b.session then
      some (s.setCallback i { b with pc := .checked sec rest })
    else some (s.setCallback i { b with pc := .committed [] })
  | .checked sec rest => (sec.commit r s.client b.retained s.now).map fun res =>
    { s with client := res.1 }.setCallback i
      { b with pc := .committed (if res.2 then rest else []) }
  | .committed rest =>
    some ({ s with gatewayMu := s.gatewayMu.rUnlock i }.setCallback i { b with pc := .ready rest })
  | .finished => none

/-- The next step of the retirement `j`. -/
def stepRetirement (s : Fenced) (j : ℕ) (t : Retirement) : Option Fenced :=
  match t.pc with
  | .waiting => (s.gatewayMu.lock j).map fun m =>
    { s with gatewayMu := m }.setRetirement j { t with pc := .inside t.kind.mutations }
  | .inside (m :: rest) =>
    some ({ s with client := m.apply s.client }.setRetirement j { t with pc := .inside rest })
  | .inside [] =>
    some ({ s with gatewayMu := s.gatewayMu.unlock }.setRetirement j
      { t with pc := if t.kind.clears then .clearing else .finished })
  | .clearing => s.client.clearSource.map fun c =>
    { s with client := c }.setRetirement j { t with pc := .finished }
  | .finished => none

/-- One step of the system. -/
def step (r : NativeScalars) (s : Fenced) : FencedEvent → Option Fenced
  | .route i session retained m =>
    if s.callbacks i = none then some (s.setCallback i { session, retained, message := m })
    else none
  | .callback i => (s.callbacks i).bind (s.stepCallback r i)
  | .retire j kind =>
    if s.retirements j = none then some (s.setRetirement j { kind }) else none
  | .retirement j => (s.retirements j).bind (s.stepRetirement j)
  | .expire => (s.client.expireOptionalTelemetry s.now).map fun c => { s with client := c }
  | .overlay => s.client.subscribeOverlay.map fun c => { s with client := c }
  | .invalidate => s.client.invalidateState.map fun c => { s with client := c }
  | .apply st => some { s with client := s.client.applyState st s.now }
  | .camera p => some { s with client := s.client.onCameraMessage p }
  | .tick ms => some { s with now := s.now + ms }

/-- No thread runs and nobody holds the lock. -/
def Init (s : Fenced) : Prop :=
  s.gatewayMu = RWMutex.free ∧ (∀ i, s.callbacks i = none) ∧ ∀ j, s.retirements j = none

/-! ## The invariant -/

/-- The lock is held as the program counters say, and a checked callback has current tokens. -/
structure Inv (s : Fenced) : Prop where
  readers : ∀ i, i ∈ s.gatewayMu.readers ↔ ∃ b, s.callbacks i = some b ∧ b.holds = true
  writer : ∀ j t, s.retirements j = some t → t.holds = true → s.gatewayMu.writer = some j
  checked : ∀ i b, s.callbacks i = some b → b.isChecked = true →
    s.client.sourceCurrent b.generation b.session = true

theorem inv_of_init {s : Fenced} (h : s.Init) : s.Inv := by
  obtain ⟨hm, hc, hr⟩ := h
  refine ⟨fun i => ?_, fun j t ht => ?_, fun i b hb => ?_⟩
  · simp [hm, hc, RWMutex.free]
  · rw [hr] at ht
    cases ht
  · rw [hc] at hb
    cases hb

/-- The same tokens admit the same callbacks. -/
theorem sourceCurrent_of_sameTransport {c c' : Client} (h : c.SameTransport c')
    (generation session : ℕ) :
    c'.sourceCurrent generation session = c.sourceCurrent generation session := by
  rw [Client.sourceCurrent, h.gateway, h.session, h.generation, Client.sourceCurrent]

/-- A section that changes no token keeps the invariant. -/
theorem Inv.of_client {s : Fenced} (h : s.Inv) {c : Client} (ht : s.client.SameTransport c)
    (now : Time) : Inv { s with client := c, now := now } :=
  ⟨h.readers, h.writer, fun i b hb hc => by
    rw [sourceCurrent_of_sameTransport ht]
    exact h.checked i b hb hc⟩

/-- A step of a callback keeps the invariant when it holds the lock as its counter says and
checked its tokens. -/
theorem Inv.of_callback {s : Fenced} (h : s.Inv) {i : ℕ} {b : Callback} {m : RWMutex ℕ ℕ}
    {c : Client} (ht : s.client.SameTransport c)
    (hreaders : ∀ k, k ∈ m.readers ↔ if k = i then b.holds = true else k ∈ s.gatewayMu.readers)
    (hwriter : m.writer = s.gatewayMu.writer)
    (hchecked : b.isChecked = true → c.sourceCurrent b.generation b.session = true) :
    Inv ({ s with client := c, gatewayMu := m }.setCallback i b) := by
  refine ⟨fun k => ?_, fun j t hj hh => ?_, fun k b' hb' hc => ?_⟩
  · show k ∈ m.readers ↔ ∃ b', Function.update s.callbacks i (some b) k = some b' ∧ b'.holds = true
    rw [hreaders k]
    by_cases hk : k = i
    · subst hk
      simp
    · rw [if_neg hk, Function.update_of_ne hk, h.readers k]
  · exact hwriter.trans (h.writer j t hj hh)
  · replace hb' : Function.update s.callbacks i (some b) k = some b' := hb'
    by_cases hk : k = i
    · subst hk
      rw [Function.update_self] at hb'
      obtain rfl := Option.some.inj hb'
      exact hchecked hc
    · rw [Function.update_of_ne hk] at hb'
      show c.sourceCurrent _ _ = true
      rw [sourceCurrent_of_sameTransport ht]
      exact h.checked k b' hb' hc

/-- The commit of a section changes no token. -/
theorem commit_sameTransport {r : NativeScalars} {c : Client} {retained : Bool} {now : Time}
    {sec : Section} {res : Client × Bool} (h : sec.commit r c retained now = some res) :
    c.SameTransport res.1 := by
  cases sec with
  | portal p =>
    simp only [Section.commit] at h
    split_ifs at h
    · exact Option.some.inj h ▸ Client.SameTransport.refl c
    · exact Option.some.inj h ▸ ⟨rfl, rfl, rfl, rfl, rfl, rfl, rfl, rfl⟩
  | platform u => exact Option.some.inj h ▸ (c.commitPlatform_frame r u).sameTransport
  | alarm parts payload =>
    exact Option.some.inj h ▸ (c.commitAlarm_frame r parts payload).sameTransport
  | notification n => exact Option.some.inj h ▸ (c.commitNotification_frame n).sameTransport
  | device parts payload =>
    obtain ⟨⟨c₁, changed⟩, hc₁, rfl⟩ := Option.map_eq_some_iff.mp h
    obtain ⟨c₂, changed₂, hc₂, hspec⟩ := c.handleCerboDevice_spec parts payload now
    obtain ⟨rfl, rfl⟩ := Prod.mk.inj (Option.some.inj (hc₂.symm.trans hc₁))
    have h₁ : c.SameTransport c₂ := by
      rcases hspec with ⟨-, rfl | rfl⟩ | ⟨-, c₀, hst, hov⟩
      · exact Client.SameTransport.refl c₂
      · exact c.initCerboMaps_sameTransport
      · exact hst.sameTransport.trans hov.sameTransport
    exact h₁.trans ⟨rfl, rfl, rfl, rfl, rfl, rfl, rfl, rfl⟩
  | controller override data =>
    obtain ⟨c₁, hc₁, rfl⟩ := Option.map_eq_some_iff.mp h
    exact Client.commitController_sameTransport hc₁

/-- A callback that does not hold the lock is not among the readers. -/
theorem Inv.mem_readers_iff {s : Fenced} (h : s.Inv) {i : ℕ} {b : Callback}
    (hb : s.callbacks i = some b) : i ∈ s.gatewayMu.readers ↔ b.holds = true := by
  rw [h.readers i, hb]
  simp

/-- **Step of a callback.** -/
theorem inv_stepCallback {r : NativeScalars} {s s' : Fenced} {i : ℕ} {b : Callback} (h : s.Inv)
    (hb : s.callbacks i = some b) (hs : s.stepCallback r i b = some s') : s'.Inv := by
  have hmem := h.mem_readers_iff hb
  -- The lock is not touched, and the callback stays on its side of it.
  have hsame : ∀ b' : Callback, b'.holds = b.holds → ∀ k,
      k ∈ s.gatewayMu.readers ↔ if k = i then b'.holds = true else k ∈ s.gatewayMu.readers := by
    intro b' hh k
    by_cases hk : k = i
    · subst hk
      rw [if_pos rfl, hmem, hh]
    · rw [if_neg hk]
  obtain ⟨session, retained, message, generation, pc⟩ := b
  cases pc with
  | started =>
    obtain rfl := Option.some.inj hs
    exact h.of_callback (Client.SameTransport.refl _) (hsame _ rfl) rfl fun hc => by cases hc
  | captured =>
    obtain rfl := Option.some.inj hs
    refine h.of_callback (Client.SameTransport.refl _) (hsame _ ?_) rfl ?_
    · dsimp only
      split_ifs <;> rfl
    · dsimp only
      split_ifs <;> exact fun hc => by cases hc
  | admitted =>
    obtain rfl := Option.some.inj hs
    refine h.of_callback (Client.SameTransport.refl _) (hsame _ ?_) rfl ?_
    · dsimp only
      split_ifs <;> rfl
    · dsimp only
      split_ifs <;> exact fun hc => by cases hc
  | ready sections =>
    cases sections with
    | nil =>
      obtain rfl := Option.some.inj hs
      exact h.of_callback (Client.SameTransport.refl _) (hsame _ rfl) rfl fun hc => by cases hc
    | cons sec rest =>
      obtain ⟨m, hm, rfl⟩ := Option.map_eq_some_iff.mp hs
      obtain ⟨hw, hw', hreaders⟩ := RWMutex.rLock_eq_some hm
      refine h.of_callback (Client.SameTransport.refl _) (fun k => ?_) (hw'.trans hw.symm)
        fun hc => by cases hc
      rw [hreaders k]
      by_cases hk : k = i
      · simp [hk, Callback.holds]
      · simp [hk]
  | locked sec rest =>
    simp only [stepCallback] at hs
    split_ifs at hs with hcur
    · obtain rfl := Option.some.inj hs
      exact h.of_callback (Client.SameTransport.refl _) (hsame _ rfl) rfl fun _ => hcur
    · obtain rfl := Option.some.inj hs
      exact h.of_callback (Client.SameTransport.refl _) (hsame _ rfl) rfl fun hc => by cases hc
  | checked sec rest =>
    obtain ⟨res, hres, rfl⟩ := Option.map_eq_some_iff.mp hs
    exact h.of_callback (commit_sameTransport hres) (hsame _ rfl) rfl fun hc => by cases hc
  | committed rest =>
    obtain rfl := Option.some.inj hs
    refine h.of_callback (Client.SameTransport.refl _) (fun k => ?_) rfl fun hc => by cases hc
    rw [RWMutex.mem_rUnlock]
    by_cases hk : k = i
    · simp [hk, Callback.holds]
    · simp [hk]
  | finished => cases hs

/-- A checked callback is inside the read side. -/
theorem holds_of_isChecked {b : Callback} (h : b.isChecked = true) : b.holds = true := by
  unfold Callback.isChecked at h
  unfold Callback.holds
  split at h
  · rename_i heq
    rw [heq]
  · cases h

/-- While a retirement is inside, no callback is. -/
theorem Inv.not_holds {s : Fenced} (h : s.Inv) {j : ℕ} {t : Retirement}
    (ht : s.retirements j = some t) (hh : t.holds = true) {i : ℕ} {b : Callback}
    (hb : s.callbacks i = some b) : b.holds = false := by
  by_contra hc
  have hmem := (h.mem_readers_iff hb).mpr (by simpa using hc)
  exact RWMutex.not_mem_readers_of_writer (h.writer j t ht hh) i hmem

/-- A step of a retirement keeps the invariant when nobody is inside the read side, or the tokens
stay. -/
theorem Inv.of_retirement {s : Fenced} (h : s.Inv) {j : ℕ} {t : Retirement} {m : RWMutex ℕ ℕ}
    {c : Client} (hreaders : m.readers = s.gatewayMu.readers)
    (hwriter : ∀ j' t', Function.update s.retirements j (some t) j' = some t' → t'.holds = true →
      m.writer = some j')
    (hchecked : ∀ i b, s.callbacks i = some b → b.isChecked = true →
      c.sourceCurrent b.generation b.session = true) :
    Inv ({ s with client := c, gatewayMu := m }.setRetirement j t) := by
  refine ⟨fun i => ?_, hwriter, hchecked⟩
  show i ∈ m.readers ↔ _
  rw [hreaders]
  exact h.readers i

/-- **Step of a retirement.** -/
theorem inv_stepRetirement {s s' : Fenced} {j : ℕ} {t : Retirement} (h : s.Inv)
    (ht : s.retirements j = some t) (hs : s.stepRetirement j t = some s') : s'.Inv := by
  obtain ⟨kind, pc⟩ := t
  cases pc with
  | waiting =>
    obtain ⟨m, hm, rfl⟩ := Option.map_eq_some_iff.mp hs
    obtain ⟨hw, hr, hw', hr'⟩ := RWMutex.lock_eq_some hm
    refine h.of_retirement (hr'.trans hr.symm) (fun j' t' hj' hh => ?_) h.checked
    by_cases hj : j' = j
    · rw [hw', hj]
    · rw [Function.update_of_ne hj] at hj'
      rw [h.writer j' t' hj' hh] at hw
      cases hw
  | inside rest =>
    have hinside : ∀ i b, s.callbacks i = some b → b.isChecked = true → False := by
      intro i b hb hc
      have hno := h.not_holds ht rfl hb
      rw [holds_of_isChecked hc] at hno
      cases hno
    have hwriter := h.writer j _ ht rfl
    cases rest with
    | nil =>
      obtain rfl := Option.some.inj hs
      refine h.of_retirement rfl (fun j' t' hj' hh => ?_)
        fun i b hb hc => (hinside i b hb hc).elim
      by_cases hj : j' = j
      · subst hj
        rw [Function.update_self] at hj'
        obtain rfl := Option.some.inj hj'
        dsimp only at hh
        split_ifs at hh <;> cases hh
      · rw [Function.update_of_ne hj] at hj'
        have heq := (h.writer j' t' hj' hh).symm.trans hwriter
        exact absurd (Option.some.inj heq) hj
    | cons m rest =>
      obtain rfl := Option.some.inj hs
      refine h.of_retirement rfl (fun j' t' hj' hh => ?_)
        fun i b hb hc => (hinside i b hb hc).elim
      by_cases hj : j' = j
      · rw [hj]
        exact hwriter
      · rw [Function.update_of_ne hj] at hj'
        exact h.writer j' t' hj' hh
  | clearing =>
    obtain ⟨c, hc, rfl⟩ := Option.map_eq_some_iff.mp hs
    obtain ⟨c', hc', htr, -⟩ := s.client.clearSource_spec
    obtain rfl := Option.some.inj (hc'.symm.trans hc)
    refine h.of_retirement rfl (fun j' t' hj' hh => ?_) fun i b hb hchk => ?_
    · by_cases hj : j' = j
      · subst hj
        rw [Function.update_self] at hj'
        obtain rfl := Option.some.inj hj'
        cases hh
      · rw [Function.update_of_ne hj] at hj'
        exact h.writer j' t' hj' hh
    · rw [sourceCurrent_of_sameTransport htr]
      exact h.checked i b hb hchk
  | finished => cases hs

/-- `ApplyState` changes no token. -/
theorem applyState_sameTransport (c : Client) (st : State) (now : Time) :
    c.SameTransport (c.applyState st now) := by
  unfold Client.applyState
  dsimp only
  split <;> exact ⟨rfl, rfl, rfl, rfl, rfl, rfl, rfl, rfl⟩

/-- The sections of the other events change no token. -/
theorem environment_sameTransport {r : NativeScalars} {s s' : Fenced} {e : FencedEvent}
    (he : ∀ i, e ≠ .callback i) (hr : ∀ j, e ≠ .retirement j) (hs : s.step r e = some s') :
    s.client.SameTransport s'.client := by
  cases e with
  | callback i => exact absurd rfl (he i)
  | retirement j => exact absurd rfl (hr j)
  | route i session retained m =>
    simp only [step] at hs
    split_ifs at hs
    exact Option.some.inj hs ▸ Client.SameTransport.refl _
  | retire j kind =>
    simp only [step] at hs
    split_ifs at hs
    exact Option.some.inj hs ▸ Client.SameTransport.refl _
  | expire =>
    obtain ⟨c, hc, rfl⟩ := Option.map_eq_some_iff.mp hs
    obtain ⟨c', hc', ht, -⟩ := s.client.expireOptionalTelemetry_spec s.now
    exact Option.some.inj (hc'.symm.trans hc) ▸ ht
  | overlay =>
    obtain ⟨c, hc, rfl⟩ := Option.map_eq_some_iff.mp hs
    exact (Client.SameTransport.trans (b := { s.client with cerboLeaves := ∅ })
      ⟨rfl, rfl, rfl, rfl, rfl, rfl, rfl, rfl⟩ (Client.overlaid_of_eq_some hc).sameTransport)
  | invalidate =>
    obtain ⟨c, hc, rfl⟩ := Option.map_eq_some_iff.mp hs
    obtain ⟨c', hc', ht, -⟩ := s.client.invalidateState_spec
    exact Option.some.inj (hc'.symm.trans hc) ▸ ht
  | apply st => exact Option.some.inj hs ▸ applyState_sameTransport _ _ _
  | camera p => exact Option.some.inj hs ▸ ⟨rfl, rfl, rfl, rfl, rfl, rfl, rfl, rfl⟩
  | tick ms => exact Option.some.inj hs ▸ Client.SameTransport.refl _

/-- **Step.** Every atomic step of every thread keeps the invariant. -/
theorem inv_step {r : NativeScalars} {s s' : Fenced} {e : FencedEvent} (h : s.Inv)
    (hs : s.step r e = some s') : s'.Inv := by
  cases e with
  | callback i =>
    obtain ⟨b, hb, hs⟩ := Option.bind_eq_some_iff.mp hs
    exact inv_stepCallback h hb hs
  | retirement j =>
    obtain ⟨t, ht, hs⟩ := Option.bind_eq_some_iff.mp hs
    exact inv_stepRetirement h ht hs
  | route i session retained m =>
    simp only [step] at hs
    split_ifs at hs with hnone
    obtain rfl := Option.some.inj hs
    refine h.of_callback (Client.SameTransport.refl _) (fun k => ?_) rfl fun hc => by cases hc
    by_cases hk : k = i
    · subst hk
      rw [if_pos rfl, h.readers k, hnone]
      simp [Callback.holds]
    · rw [if_neg hk]
  | retire j kind =>
    simp only [step] at hs
    split_ifs at hs with hnone
    obtain rfl := Option.some.inj hs
    refine h.of_retirement rfl (fun j' t' hj' hh => ?_) h.checked
    by_cases hj : j' = j
    · subst hj
      rw [Function.update_self] at hj'
      obtain rfl := Option.some.inj hj'
      cases hh
    · rw [Function.update_of_ne hj] at hj'
      exact h.writer j' t' hj' hh
  | expire =>
    have ht := environment_sameTransport (fun _ => by simp) (fun _ => by simp) hs
    obtain ⟨c, -, rfl⟩ := Option.map_eq_some_iff.mp hs
    exact h.of_client ht s.now
  | overlay =>
    have ht := environment_sameTransport (fun _ => by simp) (fun _ => by simp) hs
    obtain ⟨c, -, rfl⟩ := Option.map_eq_some_iff.mp hs
    exact h.of_client ht s.now
  | invalidate =>
    have ht := environment_sameTransport (fun _ => by simp) (fun _ => by simp) hs
    obtain ⟨c, -, rfl⟩ := Option.map_eq_some_iff.mp hs
    exact h.of_client ht s.now
  | apply st =>
    obtain rfl := Option.some.inj hs
    exact h.of_client (applyState_sameTransport _ _ _) s.now
  | camera p =>
    have ht := environment_sameTransport (fun _ => by simp) (fun _ => by simp) hs
    obtain rfl := Option.some.inj hs
    exact h.of_client ht s.now
  | tick ms =>
    obtain rfl := Option.some.inj hs
    exact h.of_client (Client.SameTransport.refl _) (s.now + ms)

/-- **Run.** The invariant of every reachable state. -/
theorem inv_of_reachable {r : NativeScalars} {s : Fenced}
    (h : Transition.Reachable (Fenced.step r) (fun _ _ => True) Fenced.Init s) : s.Inv :=
  h.invariant (fun _ hs => inv_of_init hs) fun _ _ _ hi _ hs => inv_step hi hs

/-! ## Commits -/

/-- A step of a callback changes the client in its commit only. -/
theorem client_of_stepCallback {r : NativeScalars} {s s' : Fenced} {i : ℕ} {b : Callback}
    (hs : s.stepCallback r i b = some s') : s'.client = s.client ∨ b.isChecked = true := by
  obtain ⟨session, retained, message, generation, pc⟩ := b
  cases pc with
  | checked sec rest => exact Or.inr rfl
  | ready sections =>
    left
    cases sections with
    | nil => exact Option.some.inj hs ▸ rfl
    | cons sec rest =>
      obtain ⟨m, -, rfl⟩ := Option.map_eq_some_iff.mp hs
      rfl
  | locked sec rest =>
    left
    simp only [stepCallback] at hs
    split_ifs at hs <;> exact Option.some.inj hs ▸ rfl
  | finished => cases hs
  | started => exact Or.inl (Option.some.inj hs ▸ rfl)
  | captured => exact Or.inl (Option.some.inj hs ▸ rfl)
  | admitted => exact Or.inl (Option.some.inj hs ▸ rfl)
  | committed rest => exact Or.inl (Option.some.inj hs ▸ rfl)

/-! ## Retired tokens -/

/-- The tokens of a callback and the counters only grow. -/
structure Later (s s' : Fenced) : Prop where
  session : s.client.mqttSession ≤ s'.client.mqttSession
  generation : s.client.pushGeneration ≤ s'.client.pushGeneration
  bound : ∀ i b, s.callbacks i = some b → ∃ b', s'.callbacks i = some b' ∧
    b'.session = b.session ∧ (b.pc ≠ .started → b'.pc ≠ .started ∧ b'.generation = b.generation)

theorem Later.refl (s : Fenced) : Later s s :=
  ⟨le_refl _, le_refl _, fun _ b hb => ⟨b, hb, rfl, fun h => ⟨h, rfl⟩⟩⟩

theorem Later.trans {a b c : Fenced} (h : Later a b) (h' : Later b c) : Later a c := by
  refine ⟨h.session.trans h'.session, h.generation.trans h'.generation, fun i x hx => ?_⟩
  obtain ⟨y, hy, hys, hyg⟩ := h.bound i x hx
  obtain ⟨z, hz, hzs, hzg⟩ := h'.bound i y hy
  refine ⟨z, hz, hzs.trans hys, fun hst => ?_⟩
  obtain ⟨hyst, hyg⟩ := hyg hst
  obtain ⟨hzst, hzg⟩ := hzg hyst
  exact ⟨hzst, hzg.trans hyg⟩

/-- The tokens agree. -/
theorem Later.of_sameTransport {s s' : Fenced} (ht : s.client.SameTransport s'.client)
    (hc : s'.callbacks = s.callbacks) : Later s s' :=
  ⟨ht.session.ge, ht.generation.ge, fun _ b hb => ⟨b, hc ▸ hb, rfl, fun h => ⟨h, rfl⟩⟩⟩

/-- A mutation never takes a counter back. -/
theorem counters_apply (c : Client) (m : Mutation) :
    c.mqttSession ≤ (m.apply c).mqttSession ∧ c.pushGeneration ≤ (m.apply c).pushGeneration := by
  cases m with
  | session => exact ⟨Nat.le_succ _, le_refl _⟩
  | banners always =>
    have ht := (c.resetNativeNotifications_frame (always || !c.gatewayMode)).sameTransport
    exact ⟨ht.session.ge, ht.generation.ge⟩
  | mode gateway => exact ⟨le_refl _, le_refl _⟩
  | generation source => exact ⟨le_refl _, Nat.le_succ _⟩
  | mqttGeneration =>
    show c.mqttSession ≤ c.resetMQTTPush.mqttSession ∧ _ ≤ c.resetMQTTPush.pushGeneration
    unfold Client.resetMQTTPush
    split_ifs
    · exact ⟨le_refl _, le_refl _⟩
    · exact ⟨le_refl _, Nat.le_succ _⟩
  | disconnect => exact ⟨le_refl _, le_refl _⟩

/-- The callback that moves keeps its session, and its generation once it is captured. -/
theorem later_setCallback {s : Fenced} {i : ℕ} {b b' : Callback} {m : RWMutex ℕ ℕ} {c : Client}
    (hb : s.callbacks i = some b) (ht : s.client.SameTransport c) (hsess : b'.session = b.session)
    (hgen : b.pc ≠ .started → b'.pc ≠ .started ∧ b'.generation = b.generation) :
    Later s ({ s with client := c, gatewayMu := m }.setCallback i b') := by
  refine ⟨ht.session.ge, ht.generation.ge, fun k x hx => ?_⟩
  show ∃ y, Function.update s.callbacks i (some b') k = some y ∧ _
  by_cases hk : k = i
  · subst hk
    obtain rfl := Option.some.inj (hb.symm.trans hx)
    exact ⟨b', Function.update_self _ _ _, hsess, hgen⟩
  · exact ⟨x, by rw [Function.update_of_ne hk]; exact hx, rfl, fun h => ⟨h, rfl⟩⟩

theorem later_stepCallback {r : NativeScalars} {s s' : Fenced} {i : ℕ} {b : Callback}
    (hb : s.callbacks i = some b) (hs : s.stepCallback r i b = some s') : Later s s' := by
  have hrefl := Client.SameTransport.refl s.client
  obtain ⟨session, retained, message, generation, pc⟩ := b
  cases pc with
  | started =>
    exact Option.some.inj hs ▸ later_setCallback hb hrefl rfl fun h => absurd rfl h
  | captured =>
    refine Option.some.inj hs ▸ later_setCallback hb hrefl rfl fun _ => ⟨?_, rfl⟩
    dsimp only
    split_ifs <;> simp
  | admitted =>
    refine Option.some.inj hs ▸ later_setCallback hb hrefl rfl fun _ => ⟨?_, rfl⟩
    dsimp only
    split_ifs <;> simp
  | ready sections =>
    cases sections with
    | nil => exact Option.some.inj hs ▸ later_setCallback hb hrefl rfl fun _ => ⟨by simp, rfl⟩
    | cons sec rest =>
      obtain ⟨m, -, rfl⟩ := Option.map_eq_some_iff.mp hs
      exact later_setCallback hb hrefl rfl fun _ => ⟨by simp, rfl⟩
  | locked sec rest =>
    simp only [stepCallback] at hs
    split_ifs at hs <;>
      exact Option.some.inj hs ▸ later_setCallback hb hrefl rfl fun _ => ⟨by simp, rfl⟩
  | checked sec rest =>
    obtain ⟨res, hres, rfl⟩ := Option.map_eq_some_iff.mp hs
    exact later_setCallback hb (commit_sameTransport hres) rfl fun _ => ⟨by simp, rfl⟩
  | committed rest =>
    exact Option.some.inj hs ▸ later_setCallback hb hrefl rfl fun _ => ⟨by simp, rfl⟩
  | finished => cases hs

theorem later_stepRetirement {s s' : Fenced} {j : ℕ} {t : Retirement}
    (hs : s.stepRetirement j t = some s') : Later s s' := by
  have hkeep : ∀ i b, s.callbacks i = some b → ∃ b', s.callbacks i = some b' ∧
      b'.session = b.session ∧ (b.pc ≠ .started → b'.pc ≠ .started ∧
        b'.generation = b.generation) := (Later.refl s).bound
  obtain ⟨kind, pc⟩ := t
  cases pc with
  | waiting =>
    obtain ⟨m, -, rfl⟩ := Option.map_eq_some_iff.mp hs
    exact ⟨le_refl _, le_refl _, hkeep⟩
  | inside rest =>
    cases rest with
    | nil => exact Option.some.inj hs ▸ ⟨le_refl _, le_refl _, hkeep⟩
    | cons m rest =>
      obtain ⟨h₁, h₂⟩ := counters_apply s.client m
      exact Option.some.inj hs ▸ ⟨h₁, h₂, hkeep⟩
  | clearing =>
    obtain ⟨c, hc, rfl⟩ := Option.map_eq_some_iff.mp hs
    obtain ⟨c', hc', ht, -⟩ := s.client.clearSource_spec
    obtain rfl := Option.some.inj (hc'.symm.trans hc)
    exact ⟨ht.session.ge, ht.generation.ge, hkeep⟩
  | finished => cases hs

theorem later_step {r : NativeScalars} {s s' : Fenced} {e : FencedEvent}
    (hs : s.step r e = some s') : Later s s' := by
  cases e with
  | callback i =>
    obtain ⟨b, hb, hs⟩ := Option.bind_eq_some_iff.mp hs
    exact later_stepCallback hb hs
  | retirement j =>
    obtain ⟨t, -, hs⟩ := Option.bind_eq_some_iff.mp hs
    exact later_stepRetirement hs
  | route i session retained m =>
    simp only [step] at hs
    split_ifs at hs with hnone
    obtain rfl := Option.some.inj hs
    refine ⟨le_refl _, le_refl _, fun k b hb => ⟨b, ?_, rfl, fun h => ⟨h, rfl⟩⟩⟩
    have hk : k ≠ i := by
      rintro rfl
      rw [hnone] at hb
      cases hb
    exact (Function.update_of_ne hk _ _).trans hb
  | retire j kind =>
    simp only [step] at hs
    split_ifs at hs
    exact Option.some.inj hs ▸ ⟨le_refl _, le_refl _, (Later.refl s).bound⟩
  | expire =>
    have ht := environment_sameTransport (fun _ => by simp) (fun _ => by simp) hs
    obtain ⟨c, -, rfl⟩ := Option.map_eq_some_iff.mp hs
    exact Later.of_sameTransport ht rfl
  | overlay =>
    have ht := environment_sameTransport (fun _ => by simp) (fun _ => by simp) hs
    obtain ⟨c, -, rfl⟩ := Option.map_eq_some_iff.mp hs
    exact Later.of_sameTransport ht rfl
  | invalidate =>
    have ht := environment_sameTransport (fun _ => by simp) (fun _ => by simp) hs
    obtain ⟨c, -, rfl⟩ := Option.map_eq_some_iff.mp hs
    exact Later.of_sameTransport ht rfl
  | apply st =>
    obtain rfl := Option.some.inj hs
    exact Later.of_sameTransport (applyState_sameTransport _ _ _) rfl
  | camera p =>
    have ht := environment_sameTransport (fun _ => by simp) (fun _ => by simp) hs
    obtain rfl := Option.some.inj hs
    exact Later.of_sameTransport ht rfl
  | tick ms =>
    obtain rfl := Option.some.inj hs
    exact Later.of_sameTransport (Client.SameTransport.refl _) rfl

/-- The callback belongs to a session or a source that was retired. -/
def Retired (s : Fenced) (b : Callback) : Prop :=
  b.session < s.client.mqttSession ∨ b.pc ≠ .started ∧ b.generation < s.client.pushGeneration

/-- The counter a mutation advances retires what was current before it. -/
theorem retired_of_apply {s : Fenced} {m : Mutation} {b : Callback}
    (hs : b.session ≤ s.client.mqttSession)
    (hg : b.pc ≠ .started ∧ b.generation ≤ s.client.pushGeneration)
    (hm : m = .session ∨ (∃ source, m = .generation source) ∨
      m = .mqttGeneration ∧ s.client.gatewayMode = false) :
    Retired { s with client := m.apply s.client } b := by
  rcases hm with rfl | ⟨source, rfl⟩ | ⟨rfl, hmode⟩
  · exact Or.inl (Nat.lt_succ_of_le hs)
  · exact Or.inr ⟨hg.1, Nat.lt_succ_of_le hg.2⟩
  · refine Or.inr ⟨hg.1, ?_⟩
    show b.generation < s.client.resetMQTTPush.pushGeneration
    rw [Client.resetMQTTPush, hmode]
    exact Nat.lt_succ_of_le hg.2

/-- The callback `i` commits in a step from `s` to `s'`: it is behind its check, or the client
changes. -/
def Commits (s s' : Fenced) (i : ℕ) : Prop :=
  (∃ b, s.callbacks i = some b ∧ b.isChecked = true) ∨ s'.client ≠ s.client

/-- A commit of a reachable state has current tokens. -/
theorem sourceCurrent_of_commits {r : NativeScalars} {s s' : Fenced}
    (h : Transition.Reachable (Fenced.step r) (fun _ _ => True) Fenced.Init s) {i : ℕ}
    {b : Callback} (hb : s.callbacks i = some b) (hs : s.step r (.callback i) = some s')
    (hc : s.Commits s' i) : s.client.sourceCurrent b.generation b.session = true := by
  obtain ⟨b', hb', hs⟩ := Option.bind_eq_some_iff.mp hs
  obtain rfl := Option.some.inj (hb.symm.trans hb')
  refine (inv_of_reachable h).checked i b hb ?_
  rcases hc with ⟨b', hb', hc⟩ | hne
  · obtain rfl := Option.some.inj (hb.symm.trans hb')
    exact hc
  · exact (client_of_stepCallback hs).resolve_left hne

theorem tokens_of_sourceCurrent {c : Client} {generation session : ℕ}
    (h : c.sourceCurrent generation session = true) :
    session = c.mqttSession ∧ generation = c.pushGeneration ∧ c.gatewayMode = false := by
  simp only [Client.sourceCurrent, Bool.and_eq_true, Bool.not_eq_true', beq_iff_eq] at h
  exact ⟨h.1.2.symm, h.2.symm, h.1.1⟩

/-- **The fence.** A callback commits only at an instant when its session and its generation are
the current ones and the gateway mode is off; and once one of them is retired, it never commits
again.

**Proof sketch.** A commit is behind the check, and from the check on the callback holds the read
side, so no retirement has run since. The counters only grow, so a retired callback never has
current tokens again. -/
theorem current_of_commit (r : NativeScalars) {s : Fenced}
    (h : Transition.Reachable (Fenced.step r) (fun _ _ => True) Fenced.Init s) {i : ℕ}
    {b : Callback} (hb : s.callbacks i = some b) :
    (∀ s', s.step r (.callback i) = some s' → s.Commits s' i →
        b.session = s.client.mqttSession ∧ b.generation = s.client.pushGeneration ∧
          s.client.gatewayMode = false) ∧
      (s.Retired b → ∀ s₁ s₂,
        Transition.Reachable (Fenced.step r) (fun _ _ => True) (· = s) s₁ →
        s₁.step r (.callback i) = some s₂ → ¬ s₁.Commits s₂ i) := by
  refine ⟨fun s' hs hc => tokens_of_sourceCurrent (sourceCurrent_of_commits h hb hs hc), ?_⟩
  intro hret s₁ s₂ h₁ hs₂ hc
  have hlater : Later s s₁ := h₁.invariant (fun _ heq => heq ▸ Later.refl s)
    fun _ _ _ hi _ hs => hi.trans (later_step hs)
  obtain ⟨b₁, hb₁, hsess, hgen⟩ := hlater.bound i b hb
  have hcur := sourceCurrent_of_commits (h.trans h₁) hb₁ hs₂ hc
  obtain ⟨h₁, h₂, -⟩ := tokens_of_sourceCurrent hcur
  rcases hret with hlt | ⟨hst, hlt⟩
  · have := hlater.session
    omega
  · have hg := (hgen hst).2
    have := hlater.generation
    omega

/-- A client that has not discovered its portal. -/
def idle : Fenced := ⟨newClient {}, 0, RWMutex.free, fun _ => none, fun _ => none⟩

theorem init_idle : idle.Init := ⟨rfl, fun _ => rfl, fun _ => rfl⟩

/-- The portal is about to be committed. -/
def discovering : List FencedEvent :=
  [.route 0 0 false (.portal ⟨"c0", none⟩), .callback 0, .callback 0, .callback 0, .callback 0,
    .callback 0]

theorem current_of_commit_discovering : ∃ s b s',
    Transition.Reachable (Fenced.step Lan.noScalars) (fun _ _ => True) Fenced.Init s ∧
      s.callbacks 0 = some b ∧ s.step Lan.noScalars (.callback 0) = some s' ∧ s.Commits s' 0 ∧
      b.session = s.client.mqttSession ∧ b.generation = s.client.pushGeneration := by
  obtain ⟨s, hs, hp⟩ := Transition.Reachable.exists_of_run (Fenced.step Lan.noScalars)
    (fun _ _ => True) discovering
    (fun s => (s.callbacks 0).any Callback.isChecked &&
      (s.step Lan.noScalars (.callback 0)).isSome) init_idle (Transition.Allowed.of_forall
        (fun _ _ => trivial) idle) (by decide)
  obtain ⟨hb, hs'⟩ := Bool.and_eq_true_iff.mp hp
  obtain ⟨b, hb, hchk⟩ := (Option.any_eq_true _ _).mp hb
  obtain ⟨s', hs'⟩ := Option.isSome_iff_exists.mp hs'
  have hc : s.Commits s' 0 := Or.inl ⟨b, hb, hchk⟩
  have htok := (current_of_commit Lan.noScalars hs hb).1 s' hs' hc
  exact ⟨s, b, s', hs, hb, hs', hc, htok.1, htok.2.1⟩

end Fenced

end Dashboard
