import InverterDashboard.Lan.System

set_option relaxedAutoImplicit false
set_option autoImplicit false

/-!
# Connection handlers in any order

The connection-lost handler and the on-connect handler each run in a goroutine of their own. Only
`Subscribe` takes `subscribeMu`, so the steps of a late connection-lost handler fall anywhere
between and behind those of the next `Subscribe`. A run remembers whether one of them advanced the
session behind the last `Subscribe`, and whether one of them stopped the keepalive behind its start.

## Main definitions

* `Dashboard.LostStage`, `Dashboard.SubscribePC` — the atomic steps of the handlers.
* `Dashboard.Reconnecting`, `Dashboard.Reconnecting.step` — the system.
* `Dashboard.Reconnecting.Quiet`, `Heard` — all handlers have finished; messages are accepted and
  the keepalive runs.

## Main results

* `Dashboard.connectionLost_eq`, `Dashboard.subscribe_eq` — handlers that are not interrupted.
* `Dashboard.Reconnecting.inv_step` — what is bound, and what runs, after every step.
* `Dashboard.Reconnecting.heard_iff` — a quiet connection is heard exactly if no late handler
  overtook the last `Subscribe`.
-/

namespace Dashboard

open Go

/-! ## The handlers -/

/-- The steps of the connection-lost handler. -/
inductive LostStage where
  | advance
  | stopKeepalive
  | resetPush
  | invalidate
  deriving DecidableEq

namespace LostStage

/-- The handler. -/
def all : List LostStage := [.advance, .stopKeepalive, .resetPush, .invalidate]

/-- A step of the handler. -/
def apply (c : Client) : LostStage → Option Client
  | .advance => some c.advanceMQTTSession
  | .stopKeepalive => some c.stopKeepalive
  | .resetPush => some c.resetMQTTPush
  | .invalidate => c.invalidateState

end LostStage

/-- A connection-lost handler that is not interrupted. -/
theorem connectionLost_eq (c : Client) :
    LostStage.all.foldlM LostStage.apply { c with connectionOpen := false } = c.connectionLost := by
  have hclosed : ({ c with connectionOpen := false } : Client).advanceMQTTSession.stopKeepalive =
      { c.advanceMQTTSession.stopKeepalive with connectionOpen := false } := by
    unfold Client.advanceMQTTSession Client.resetNativeNotifications
    dsimp only
    split_ifs <;> rfl
  show ({ c with connectionOpen := false } :
    Client).advanceMQTTSession.stopKeepalive.invalidateCerbo
    >>= pure = _
  rw [hclosed, bind_pure]
  rfl

/-- Where a call of `Subscribe` stands behind `subscribeMu`. -/
inductive SubscribePC where
  | check
  | advance
  | resetPush
  | overlay
  | request
  | stopKeepalive
  | startKeepalive
  deriving DecidableEq

/-- A call of `Subscribe` that holds `subscribeMu`, with the session it binds. -/
structure SubscribeCall where
  pc : SubscribePC := .check
  session : ℕ := 0

/-! ## The system -/

/-- The client and its handlers: on-connect handlers that have not started, calls of `Subscribe`
before `subscribeMu`, the call behind it, and connection-lost handlers with the steps they have
left. `bound` is the session of the last subscriptions, `result` what the last `Subscribe` returned.
The last two members are the order of the steps that decides. -/
structure Reconnecting where
  client : Client
  now : Time
  connecting : ℕ
  waiting : ℕ
  subscribing : Option SubscribeCall
  lost : List (List LostStage)
  bound : Option ℕ
  result : Option Bool
  /-- A connection-lost handler has advanced the session since the last `Subscribe` did. -/
  advancedLate : Bool
  /-- A connection-lost handler has stopped the keepalive since the last `Subscribe` started it. -/
  stoppedLate : Bool

/-- What can happen. -/
inductive ReconnectingEvent where
  /-- The connection breaks: its handler is started. -/
  | broken
  /-- The connection is open again: its handler is started. -/
  | opened
  /-- An on-connect handler looks whether to subscribe. -/
  | connect
  /-- `Subscribe` is called by the start of the dashboard or by a recovery probe. -/
  | subscribe
  /-- A call gets `subscribeMu`. -/
  | enter
  /-- The call behind `subscribeMu` takes its next step. -/
  | subscribing (o : Client.SubscribeOutcome)
  /-- A connection-lost handler takes its next step. -/
  | losing (i : ℕ)
  /-- A callback runs. -/
  | deliver (session : ℕ) (retained : Bool) (m : Message)
  /-- Telemetry is checked for expiry. -/
  | expire
  /-- The clock advances. -/
  | tick (ms : ℕ)

namespace Reconnecting

/-- The next step of `Subscribe`. -/
def stepSubscribe (s : Reconnecting) (o : Client.SubscribeOutcome) (t : SubscribeCall) :
    Option Reconnecting :=
  match t.pc with
  | .check =>
    some (if s.client.canSubscribe then { s with subscribing := some { t with pc := .advance } }
      else { s with subscribing := none, result := some false })
  | .advance =>
    let c := s.client.advanceMQTTSession
    some { s with
      client := c
      subscribing := some { pc := .resetPush, session := c.mqttSession }
      advancedLate := false }
  | .resetPush =>
    some { s with
      client := s.client.resetMQTTPush
      subscribing := some { t with pc := .overlay } }
  | .overlay => s.client.subscribeOverlay.map fun c =>
    { s with client := c, subscribing := some { t with pc := .request } }
  | .request =>
    some (if o.granted then
        { s with
          subscribing := some { t with pc := .stopKeepalive }
          bound := some t.session }
      else { s with subscribing := none, result := some false })
  | .stopKeepalive =>
    some { s with
      client := s.client.stopKeepalive
      subscribing := some { t with pc := .startKeepalive } }
  | .startKeepalive =>
    some { s with
      client := s.client.startKeepalive o.sent
      subscribing := none
      result := some true
      stoppedLate := false }

/-- The next step of the connection-lost handler `i`. -/
def stepLost (s : Reconnecting) (i : ℕ) : List LostStage → Option Reconnecting
  | [] => none
  | stage :: rest => (stage.apply s.client).map fun c =>
    { s with
      client := c
      lost := s.lost.set i rest
      advancedLate := s.advancedLate || decide (stage = .advance)
      stoppedLate := s.stoppedLate || decide (stage = .stopKeepalive) }

/-- One event. -/
def step (r : NativeScalars) (s : Reconnecting) : ReconnectingEvent → Option Reconnecting
  | .broken => some { s with
      client := { s.client with connectionOpen := false }
      lost := s.lost ++ [LostStage.all] }
  | .opened => some { s with
      client := { s.client with connectionOpen := true }
      connecting := s.connecting + 1 }
  | .connect =>
    if s.connecting = 0 then none
    else some { s with
      connecting := s.connecting - 1
      waiting := if s.client.subscriptionsEnabled then s.waiting + 1 else s.waiting }
  | .subscribe => some { s with
      client := { s.client with subscriptionsEnabled := true }
      waiting := s.waiting + 1 }
  | .enter =>
    if s.waiting = 0 ∨ s.subscribing.isSome then none
    else some { s with waiting := s.waiting - 1, subscribing := some {} }
  | .subscribing o => s.subscribing.bind (s.stepSubscribe o)
  | .losing i => (s.lost[i]?).bind (s.stepLost i)
  | .deliver session retained m =>
    (s.client.deliver r session retained m s.now).map fun c => { s with client := c }
  | .expire => (s.client.expireOptionalTelemetry s.now).map fun c => { s with client := c }
  | .tick ms => some { s with now := s.now + ms }

/-- A call of `Subscribe` that is granted and not interrupted. -/
theorem subscribe_eq (r : NativeScalars) {s : Reconnecting} {o : Client.SubscribeOutcome}
    (hs : s.subscribing = some {}) (hcan : s.client.canSubscribe = true)
    (henabled : s.client.subscriptionsEnabled = true) (ho : o.granted = true) :
    (Transition.run (step r) s (List.replicate 7 (.subscribing o))).map Reconnecting.client =
      (s.client.subscribe o).map Prod.fst := by
  have hc : { s.client with subscriptionsEnabled := true } = s.client := by rw [← henabled]
  simp only [List.replicate, Transition.run, step, hs, Option.bind_some, stepSubscribe, hcan,
    if_true, ho, Client.subscribe, hc, Bool.not_true]
  cases s.client.advanceMQTTSession.resetMQTTPush.subscribeOverlay with
  | none => rfl
  | some c =>
    simp only [Option.map_some, Option.bind_some, stepSubscribe, ho, if_true]
    rfl

/-- A new client without handlers. -/
def Init (s : Reconnecting) : Prop :=
  (∃ cfg, s.client = newClient cfg) ∧ s.connecting = 0 ∧ s.waiting = 0 ∧ s.subscribing = none ∧
    s.lost = [] ∧ s.bound = none ∧ s.result = none ∧ s.advancedLate = false ∧
    s.stoppedLate = false

/-- All handlers have finished, the connection is open, and the last `Subscribe` returned nil. -/
structure Quiet (s : Reconnecting) : Prop where
  connecting : s.connecting = 0
  waiting : s.waiting = 0
  subscribing : s.subscribing = none
  lost : ∀ stages ∈ s.lost, stages = []
  opened : s.client.connectionOpen = true
  result : s.result = some true

/-- The subscribed callbacks accept messages, and a keepalive loop runs. -/
structure Heard (s : Reconnecting) : Prop where
  bound : s.bound = some s.client.mqttSession
  keepalive : s.client.keepaliveStop = true

/-! ## The invariant -/

/-- The session of the last `Subscribe` is the current one, or was left behind. -/
def Follows (s : Reconnecting) (session : ℕ) : Prop :=
  if s.advancedLate then session < s.client.mqttSession else session = s.client.mqttSession

/-- What a call of `Subscribe` has reached. -/
def Progress (s : Reconnecting) (t : SubscribeCall) : Prop :=
  match t.pc with
  | .check | .advance => True
  | .resetPush | .overlay | .request => s.Follows t.session
  | .stopKeepalive | .startKeepalive => s.Follows t.session ∧ s.bound = some t.session

/-- What is bound and what runs. -/
structure Inv (s : Reconnecting) : Prop where
  idle : s.subscribing = none → s.result = some true →
    (∃ b, s.bound = some b ∧ s.Follows b) ∧ s.client.keepaliveStop = !s.stoppedLate
  running : ∀ t, s.subscribing = some t → s.Progress t

/-- The session and the keepalive of the client agree. -/
def SameLink (c c' : Client) : Prop :=
  c'.mqttSession = c.mqttSession ∧ c'.keepaliveStop = c.keepaliveStop

theorem sameLink_of_sameTransport {c c' : Client} (h : c.SameTransport c') : SameLink c c' :=
  ⟨h.session, h.keepalive⟩

theorem sameLink_resetMQTTPush (c : Client) : SameLink c c.resetMQTTPush := by
  unfold Client.resetMQTTPush
  split_ifs <;> exact ⟨rfl, rfl⟩

theorem advanceMQTTSession_link (c : Client) :
    c.advanceMQTTSession.mqttSession = c.mqttSession + 1 ∧
      c.advanceMQTTSession.keepaliveStop = c.keepaliveStop := by
  have ht := (Client.resetNativeNotifications_frame { c with mqttSession := c.mqttSession + 1 }
    (!c.gatewayMode)).sameTransport
  exact ⟨ht.session, ht.keepalive⟩

theorem startKeepalive_link (c : Client) (sent : Bool) :
    (c.startKeepalive sent).mqttSession = c.mqttSession ∧
      (c.startKeepalive sent).keepaliveStop = true := by
  unfold Client.startKeepalive Client.publishKeepalive
  split_ifs <;> exact ⟨rfl, rfl⟩

theorem sameLink_subscribeOverlay {c c' : Client} (h : c.subscribeOverlay = some c') :
    SameLink c c' := by
  have ht := (Client.overlaid_of_eq_some h).sameTransport
  exact ⟨ht.session, ht.keepalive⟩

theorem Follows.of_session {s s' : Reconnecting} {n : ℕ} (h : s.Follows n)
    (hsess : s'.client.mqttSession = s.client.mqttSession)
    (hadv : s'.advancedLate = s.advancedLate) : s'.Follows n := by
  unfold Follows at h ⊢
  rw [hadv, hsess]
  exact h

theorem Progress.of_follows {s s' : Reconnecting} {t : SubscribeCall} (h : s.Progress t)
    (hfollows : ∀ n, s.Follows n → s'.Follows n) (hbound : s'.bound = s.bound) : s'.Progress t := by
  obtain ⟨pc, session⟩ := t
  cases pc with
  | check => trivial
  | advance => trivial
  | resetPush => exact hfollows _ h
  | overlay => exact hfollows _ h
  | request => exact hfollows _ h
  | stopKeepalive => exact ⟨hfollows _ h.1, hbound.trans h.2⟩
  | startKeepalive => exact ⟨hfollows _ h.1, hbound.trans h.2⟩

/-- What is still followed, and a keepalive that is still as the order of the steps says, keep the
invariant. -/
theorem Inv.of_follows {s s' : Reconnecting} (h : s.Inv)
    (hfollows : ∀ n, s.Follows n → s'.Follows n)
    (hkeep : s.client.keepaliveStop = (!s.stoppedLate) →
      s'.client.keepaliveStop = !s'.stoppedLate)
    (hsub : s'.subscribing = s.subscribing) (hbound : s'.bound = s.bound)
    (hresult : s'.result = s.result) : s'.Inv := by
  refine ⟨fun hnone htrue => ?_, fun t ht => ?_⟩
  · obtain ⟨⟨b, hb, hf⟩, hk⟩ := h.idle (hsub ▸ hnone) (hresult ▸ htrue)
    exact ⟨⟨b, hbound.trans hb, hfollows b hf⟩, hkeep hk⟩
  · exact (h.running t (hsub ▸ ht)).of_follows hfollows hbound

/-- What keeps the session and the keepalive keeps the invariant. -/
theorem Inv.of_sameLink {s s' : Reconnecting} (h : s.Inv) (hl : SameLink s.client s'.client)
    (hsub : s'.subscribing = s.subscribing) (hbound : s'.bound = s.bound)
    (hresult : s'.result = s.result) (hadv : s'.advancedLate = s.advancedLate)
    (hstop : s'.stoppedLate = s.stoppedLate) : s'.Inv :=
  h.of_follows (fun _ hn => hn.of_session hl.1 hadv) (fun hk => by rw [hl.2, hk, hstop]) hsub hbound
    hresult

/-- While `Subscribe` runs, only its progress counts. -/
theorem Inv.of_running {s : Reconnecting} {t : SubscribeCall} (ht : s.subscribing = some t)
    (hp : s.Progress t) : s.Inv := by
  refine ⟨fun hnone => ?_, fun t' ht' => ?_⟩
  · rw [ht] at hnone
    cases hnone
  · obtain rfl := Option.some.inj (ht.symm.trans ht')
    exact hp

/-- After a `Subscribe` that failed nothing is promised. -/
theorem Inv.of_failed {s : Reconnecting} (hnone : s.subscribing = none)
    (hresult : s.result = some false) : s.Inv := by
  refine ⟨fun _ htrue => ?_, fun t ht => ?_⟩
  · rw [hresult] at htrue
    cases htrue
  · rw [hnone] at ht
    cases ht

/-- A step of `Subscribe` keeps the invariant. -/
theorem inv_stepSubscribe {s s' : Reconnecting} {o : Client.SubscribeOutcome} {t : SubscribeCall}
    (h : s.Inv) (ht : s.subscribing = some t) (hs : s.stepSubscribe o t = some s') : s'.Inv := by
  have hp := h.running t ht
  obtain ⟨pc, session⟩ := t
  cases pc with
  | check =>
    obtain rfl := Option.some.inj hs
    split_ifs
    · exact Inv.of_running rfl trivial
    · exact Inv.of_failed rfl rfl
  | advance =>
    obtain rfl := Option.some.inj hs
    exact Inv.of_running rfl rfl
  | resetPush =>
    obtain rfl := Option.some.inj hs
    exact Inv.of_running rfl (hp.of_session (sameLink_resetMQTTPush s.client).1 rfl)
  | overlay =>
    obtain ⟨c, hc, rfl⟩ := Option.map_eq_some_iff.mp hs
    exact Inv.of_running rfl (hp.of_session (sameLink_subscribeOverlay hc).1 rfl)
  | request =>
    obtain rfl := Option.some.inj hs
    split_ifs
    · exact Inv.of_running rfl ⟨hp, rfl⟩
    · exact Inv.of_failed rfl rfl
  | stopKeepalive =>
    obtain rfl := Option.some.inj hs
    exact Inv.of_running rfl hp
  | startKeepalive =>
    obtain rfl := Option.some.inj hs
    obtain ⟨hsess, hkeep⟩ := startKeepalive_link s.client o.sent
    refine ⟨fun _ _ => ⟨⟨session, hp.2, hp.1.of_session hsess rfl⟩, hkeep⟩, fun t ht => ?_⟩
    cases ht

/-- A step of a connection-lost handler keeps the invariant. -/
theorem inv_stepLost {s s' : Reconnecting} {i : ℕ} {stages : List LostStage} (h : s.Inv)
    (hs : s.stepLost i stages = some s') : s'.Inv := by
  cases stages with
  | nil => cases hs
  | cons stage rest =>
    obtain ⟨c, hc, rfl⟩ := Option.map_eq_some_iff.mp hs
    cases stage with
    | advance =>
      obtain rfl := Option.some.inj hc
      obtain ⟨hsess, hkeep⟩ := advanceMQTTSession_link s.client
      -- Whatever was bound before is left behind now.
      refine h.of_follows (fun n hn => ?_) (fun hk => ?_) rfl rfl rfl
      · unfold Follows at hn
        show if (s.advancedLate || true) = true then _ else _
        rw [Bool.or_true, if_pos rfl, hsess]
        split_ifs at hn <;> omega
      · show s.client.advanceMQTTSession.keepaliveStop = !(s.stoppedLate || false)
        rw [hkeep, hk, Bool.or_false]
    | stopKeepalive =>
      obtain rfl := Option.some.inj hc
      refine h.of_follows (fun n hn => hn.of_session rfl (by simp)) (fun _ => ?_) rfl rfl rfl
      simp [Client.stopKeepalive]
    | resetPush =>
      obtain rfl := Option.some.inj hc
      exact h.of_sameLink (sameLink_resetMQTTPush s.client) rfl rfl rfl (by simp) (by simp)
    | invalidate =>
      obtain ⟨c', hc', ht, -⟩ := s.client.invalidateState_spec
      obtain rfl := Option.some.inj (hc'.symm.trans hc)
      exact h.of_sameLink (sameLink_of_sameTransport ht) rfl rfl rfl (by simp) (by simp)

/-- **Step.** Every step of every handler keeps the invariant. -/
theorem inv_step {r : NativeScalars} {s s' : Reconnecting} {e : ReconnectingEvent} (h : s.Inv)
    (hs : s.step r e = some s') : s'.Inv := by
  cases e with
  | broken =>
    obtain rfl := Option.some.inj hs
    exact h.of_sameLink ⟨rfl, rfl⟩ rfl rfl rfl rfl rfl
  | opened =>
    obtain rfl := Option.some.inj hs
    exact h.of_sameLink ⟨rfl, rfl⟩ rfl rfl rfl rfl rfl
  | connect =>
    simp only [step] at hs
    by_cases hc : s.connecting = 0
    · rw [if_pos hc] at hs
      cases hs
    · rw [if_neg hc] at hs
      obtain rfl := Option.some.inj hs
      exact h.of_sameLink ⟨rfl, rfl⟩ rfl rfl rfl rfl rfl
  | subscribe =>
    obtain rfl := Option.some.inj hs
    exact h.of_sameLink ⟨rfl, rfl⟩ rfl rfl rfl rfl rfl
  | enter =>
    simp only [step] at hs
    split_ifs at hs
    obtain rfl := Option.some.inj hs
    exact Inv.of_running rfl trivial
  | subscribing o =>
    obtain ⟨t, ht, hs⟩ := Option.bind_eq_some_iff.mp hs
    exact inv_stepSubscribe h ht hs
  | losing i =>
    obtain ⟨stages, -, hs⟩ := Option.bind_eq_some_iff.mp hs
    exact inv_stepLost h hs
  | deliver session retained m =>
    obtain ⟨c, hc, rfl⟩ := Option.map_eq_some_iff.mp hs
    have ht := Client.deliver_sameTransport hc
    exact h.of_sameLink (sameLink_of_sameTransport ht) rfl rfl rfl rfl rfl
  | expire =>
    obtain ⟨c, hc, rfl⟩ := Option.map_eq_some_iff.mp hs
    obtain ⟨c', hc', ht, -⟩ := s.client.expireOptionalTelemetry_spec s.now
    obtain rfl := Option.some.inj (hc'.symm.trans hc)
    exact h.of_sameLink (sameLink_of_sameTransport ht) rfl rfl rfl rfl rfl
  | tick ms =>
    obtain rfl := Option.some.inj hs
    exact h.of_sameLink ⟨rfl, rfl⟩ rfl rfl rfl rfl rfl

theorem inv_of_init {s : Reconnecting} (h : s.Init) : s.Inv := by
  obtain ⟨-, -, -, hsub, -, -, hresult, -, -⟩ := h
  refine ⟨fun _ htrue => ?_, fun t ht => ?_⟩
  · rw [hresult] at htrue
    cases htrue
  · rw [hsub] at ht
    cases ht

/-- When all handlers have finished on an open connection whose `Subscribe` returned nil, messages
are accepted and a keepalive loop runs exactly if no connection-lost handler advanced the session
after that `Subscribe` did, and none stopped the keepalive after it was started. -/
theorem heard_iff (r : NativeScalars) {s : Reconnecting}
    (h : Transition.Reachable (Reconnecting.step r) (fun _ _ => True) Reconnecting.Init s)
    (hq : s.Quiet) : s.Heard ↔ s.advancedLate = false ∧ s.stoppedLate = false := by
  have hinv : s.Inv := h.invariant (fun _ hs => inv_of_init hs) fun _ _ _ hi _ hs => inv_step hi hs
  obtain ⟨⟨b, hb, hf⟩, hk⟩ := hinv.idle hq.subscribing hq.result
  have hbound : s.bound = some s.client.mqttSession ↔ s.advancedLate = false := by
    rw [hb, Option.some_inj]
    unfold Follows at hf
    split_ifs at hf with hadv
    · simp only [hadv, Bool.true_eq_false, iff_false]
      omega
    · simpa [hf] using hadv
  constructor
  · rintro ⟨h₁, h₂⟩
    refine ⟨hbound.mp h₁, ?_⟩
    rw [h₂] at hk
    simpa using hk.symm
  · rintro ⟨h₁, h₂⟩
    refine ⟨hbound.mpr h₁, ?_⟩
    rw [hk, h₂]
    rfl

/-! ## Two orders of a reconnect -/

instance (s : Reconnecting) : Decidable s.Quiet :=
  decidable_of_iff (s.connecting = 0 ∧ s.waiting = 0 ∧ s.subscribing.isNone = true ∧
      (∀ stages ∈ s.lost, stages = []) ∧ s.client.connectionOpen = true ∧ s.result = some true)
    ⟨fun h => ⟨h.1, h.2.1, Option.isNone_iff_eq_none.mp h.2.2.1, h.2.2.2.1, h.2.2.2.2.1,
        h.2.2.2.2.2⟩,
      fun h => ⟨h.connecting, h.waiting, Option.isNone_iff_eq_none.mpr h.subscribing, h.lost,
        h.opened, h.result⟩⟩

/-- A new client. -/
def idle : Reconnecting := ⟨newClient {}, 0, 0, 0, none, [], none, none, false, false⟩

theorem init_idle : idle.Init := ⟨⟨{}, rfl⟩, rfl, rfl, rfl, rfl, rfl, rfl, rfl, rfl⟩

/-- A call of `Subscribe` gets `subscribeMu` and is granted. -/
def granted : List ReconnectingEvent := .enter :: List.replicate 7 (.subscribing ⟨true, true⟩)

/-- The connection is lost and opened again, and the handlers run one after the other. -/
def reconnect : List ReconnectingEvent :=
  [.opened, .connect, .subscribe] ++ granted ++ [.broken] ++ List.replicate 4 (.losing 0) ++
    [.opened, .connect] ++ granted

theorem heard_iff_reconnect : ∃ s,
    Transition.Reachable (Reconnecting.step Lan.noScalars) (fun _ _ => True) Reconnecting.Init s ∧
      s.Quiet ∧ s.advancedLate = false ∧ s.stoppedLate = false ∧ s.Heard := by
  obtain ⟨s, hs, hp⟩ := Transition.Reachable.exists_of_run (Reconnecting.step Lan.noScalars)
    (fun _ _ => True) reconnect
    (fun s => decide s.Quiet && decide (s.advancedLate = false ∧ s.stoppedLate = false)) init_idle
    (Transition.Allowed.of_forall (fun _ _ => trivial) idle) (by decide +kernel)
  obtain ⟨hq, hlate⟩ := Bool.and_eq_true_iff.mp hp
  have hq := of_decide_eq_true hq
  have hlate := of_decide_eq_true hlate
  exact ⟨s, hs, hq, hlate.1, hlate.2, (heard_iff Lan.noScalars hs hq).mpr hlate⟩

/-- The connection-lost handler runs behind the `Subscribe` of the next connection. -/
def overtaken : List ReconnectingEvent :=
  [.opened, .connect, .subscribe] ++ granted ++ [.broken, .opened, .connect] ++ granted ++
    List.replicate 4 (.losing 0)

/-- An open connection is deaf: its messages are of a retired session, and no keepalive is sent. -/
theorem deaf_after_overtaken : ∃ s,
    Transition.Reachable (Reconnecting.step Lan.noScalars) (fun _ _ => True) Reconnecting.Init s ∧
      s.Quiet ∧ s.bound ≠ some s.client.mqttSession ∧ s.client.keepaliveStop = false := by
  obtain ⟨s, hs, hp⟩ := Transition.Reachable.exists_of_run (Reconnecting.step Lan.noScalars)
    (fun _ _ => True) overtaken
    (fun s => decide s.Quiet && decide (s.bound ≠ some s.client.mqttSession ∧
      s.client.keepaliveStop = false)) init_idle
    (Transition.Allowed.of_forall (fun _ _ => trivial) idle) (by decide +kernel)
  obtain ⟨hq, hdeaf⟩ := Bool.and_eq_true_iff.mp hp
  have hdeaf := of_decide_eq_true hdeaf
  exact ⟨s, hs, of_decide_eq_true hq, hdeaf.1, hdeaf.2⟩

end Reconnecting

end Dashboard
