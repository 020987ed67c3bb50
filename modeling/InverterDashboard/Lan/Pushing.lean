import InverterDashboard.Lan.Alarms
import InverterDashboard.Mqtt.Push
import InverterDashboard.Push.Baselines

set_option relaxedAutoImplicit false
set_option autoImplicit false

/-!
# The push service on LAN

A run on LAN with the processor of push events beside the client. Every message hands over the
observation that its callback makes, and each end of a connection resets the processor.

## Main definitions

* `Dashboard.Client.pushOf` — the observation of a message.
* `Dashboard.Pushing`, `Dashboard.PushInput`, `Dashboard.Pushing.step` — the run with the processor.

## Main results

* `Dashboard.Client.deliver_keepsPush` — a delivery keeps the source and the slots under their keys.
* `Dashboard.Pushing.inv_step` — the invariant of the run.
-/

namespace Dashboard

open Go

namespace Client

/-! ## What a message hands over -/

/-- The observation that the callback of a session makes of a message. -/
def pushOf (c : Client) (r : NativeScalars) (parse : String → Push.Instant) (session : ℕ)
    (retained : Bool) (m : Message) (now : Time) : Option Push.Observation :=
  if c.mqttSession ≠ session ∨ c.pushSource ≠ some .mqtt ∨ c.gatewayMode = true then none
  else
    match m with
    | .native parts payload =>
      if c.admitsNative session parts payload then
        ({ c with portalID := parts.getD 1 "" } : Client).nativePush r parse parts payload
        retained now
      else none
    | .notification payload =>
      (decodeNotification payload).map fun n =>
        (c.commitNotification n).notificationPush parse retained
    | _ => none

/-- The source of push samples stays once it is the native one, and so do the keys of the slots. -/
structure KeepsPush (c c' : Client) : Prop where
  source : c.pushSource = some .mqtt → c'.pushSource = some .mqtt
  slots : KeyedSlots c.platformSlots → KeyedSlots c'.platformSlots

namespace KeepsPush

theorem refl (c : Client) : KeepsPush c c := ⟨id, id⟩

theorem trans {a b c : Client} (h : KeepsPush a b) (h' : KeepsPush b c) : KeepsPush a c :=
  ⟨h'.source ∘ h.source, h'.slots ∘ h.slots⟩

/-- Clients that agree on both. -/
theorem of_eq {c c' : Client} (hsource : c'.pushSource = c.pushSource)
    (hslots : c'.platformSlots = c.platformSlots) : KeepsPush c c' :=
  ⟨fun h => hsource.trans h, fun h => hslots ▸ h⟩

end KeepsPush

theorem Overlaid.keepsPush {c c' : Client} (h : Overlaid c c') : KeepsPush c c' := by
  refine .of_eq ?_ ?_ <;> rw [h.frame]

theorem initCerboMaps_keepsPush (c : Client) : KeepsPush c c.initCerboMaps := by
  refine .of_eq ?_ ?_ <;> rw [c.initCerboMaps_spec.1]

theorem commitDevice_keepsPush {c c' : Client} {parts : List String} {payload : Payload}
    {retained : Bool} {now : Time} (h : c.commitDevice parts payload retained now = some c') :
    KeepsPush c c' := by
  obtain ⟨⟨c₁, changed⟩, h₁, h₂⟩ := Option.bind_eq_some_iff.mp h
  obtain rfl := Option.some.inj h₂
  have hfirst : KeepsPush c c₁ := by
    obtain ⟨c'', changed', h', hcases⟩ := c.handleCerboDevice_spec parts payload now
    obtain ⟨rfl, rfl⟩ := Prod.mk.inj (Option.some.inj (h'.symm.trans h₁))
    rcases hcases with ⟨-, rfl | rfl⟩ | ⟨-, c₂, hst, hov⟩
    · exact .refl _
    · exact c.initCerboMaps_keepsPush
    · refine KeepsPush.trans (.of_eq ?_ ?_) hov.keepsPush <;> rw [hst.frame]
  refine hfirst.trans ?_
  split_ifs <;> exact .of_eq rfl rfl

theorem commitNative_keepsPush {c c' : Client} {r : NativeScalars} {parts : List String}
    {payload : Payload} {retained : Bool} {now : Time}
    (h : c.commitNative r parts payload retained now = some c') : KeepsPush c c' := by
  unfold commitNative at h
  split_ifs at h with h₁ h₂ h₃
  · exact Option.some.inj h ▸ .refl c
  · cases hd : decodePlatformNotification r parts payload with
    | none =>
      rw [hd] at h
      exact Option.some.inj h ▸ .refl c
    | some u =>
      rw [hd] at h
      obtain rfl := Option.some.inj h
      exact ⟨id, fun hk => keyedSlots_update hk r u⟩
  · obtain rfl := Option.some.inj h
    refine .of_eq ?_ (c.commitAlarm_platformSlots r parts payload)
    obtain ⟨l, slots, seen, alarms, heq⟩ := c.commitAlarm_frame r parts payload
    rw [heq]
  · exact commitDevice_keepsPush h

theorem applyControllerMessage_keepsPush {c c' : Client} {payload : Payload}
    {retained override : Bool} {session generation : ℕ} {now : Time}
    (h : c.applyControllerMessage payload retained session generation override now = some c') :
    KeepsPush c c' := by
  rcases applyControllerMessage_cases h with rfl | ⟨data, c₁, -, -, hc₁, rfl⟩
  · exact .refl _
  · have hcommit : KeepsPush c c₁ := by
      refine .of_eq ?_ ?_ <;> rw [commitController_frame hc₁]
    exact hcommit.trans (.of_eq rfl rfl)

/-- **Delivery.** No message changes the source, and every slot stays under its key. -/
theorem deliver_keepsPush {c c' : Client} {r : NativeScalars} {session : ℕ} {retained : Bool}
    {m : Message} {now : Time} (h : c.deliver r session retained m now = some c') :
    KeepsPush c c' := by
  cases m with
  | native parts payload =>
    simp only [deliver] at h
    split_ifs at h with hsession
    · subst hsession
      rw [applyCerboMessage_eq] at h
      split_ifs at h
      · have hportal : KeepsPush c { c with portalID := parts.getD 1 "" } := .of_eq rfl rfl
        exact hportal.trans (commitNative_keepsPush h)
      · exact Option.some.inj h ▸ .refl c
    · exact Option.some.inj h ▸ .refl c
  | state payload =>
    simp only [deliver] at h
    split_ifs at h
    · exact applyControllerMessage_keepsPush h
    · exact Option.some.inj h ▸ .refl c
  | override payload =>
    simp only [deliver] at h
    split_ifs at h
    · exact applyControllerMessage_keepsPush h
    · exact Option.some.inj h ▸ .refl c
  | notification payload =>
    simp only [deliver] at h
    split_ifs at h
    · obtain rfl := Option.some.inj h
      unfold applyNotificationMessage
      cases decodeNotification payload with
      | none => exact .refl c
      | some n =>
        dsimp only
        split_ifs <;> exact .of_eq rfl rfl
    · exact Option.some.inj h ▸ .refl c
  | portal p =>
    obtain rfl := Option.some.inj h
    unfold applyPortalMessage acceptPortal
    split_ifs <;> exact .of_eq rfl rfl
  | camera p =>
    obtain rfl := Option.some.inj h
    exact .of_eq rfl rfl

theorem expireOptionalTelemetry_keepsPush {c c' : Client} {now : Time}
    (h : c.expireOptionalTelemetry now = some c') : KeepsPush c c' := by
  have hinit := c.initCerboMaps_keepsPush
  unfold expireOptionalTelemetry at h
  dsimp only at h
  cases hseen : c.initCerboMaps.controllerLastSeen with
  | none =>
    rw [hseen] at h
    exact Option.some.inj h ▸ hinit
  | some seen =>
    rw [hseen] at h
    dsimp only at h
    split_ifs at h
    · obtain ⟨st₁, h₁, h⟩ := Option.bind_eq_some_iff.mp h
      obtain ⟨st₂, h₂, h⟩ := Option.bind_eq_some_iff.mp h
      obtain rfl := Option.some.inj h
      exact hinit.trans (.of_eq rfl rfl)
    · exact Option.some.inj h ▸ hinit

theorem advanceMQTTSession_keepsPush (c : Client) : KeepsPush c c.advanceMQTTSession := by
  unfold advanceMQTTSession resetNativeNotifications
  dsimp only
  split_ifs <;> exact ⟨id, fun _ => keyedSlots_empty⟩

/-- Resetting the push service on LAN makes the native source current. -/
theorem resetMQTTPush_source {c : Client} (h : c.gatewayMode = false) :
    c.resetMQTTPush.pushSource = some .mqtt := by
  unfold resetMQTTPush
  rw [if_neg (by rw [h]; exact Bool.false_ne_true)]
  rfl

theorem resetMQTTPush_keepsPush (c : Client) : KeepsPush c c.resetMQTTPush := by
  unfold resetMQTTPush
  split_ifs
  · exact .refl c
  · exact ⟨fun _ => rfl, id⟩

theorem connectionLost_keepsPush {c c' : Client} (h : c.connectionLost = some c') :
    KeepsPush c c' := by
  have h₁ : KeepsPush c { c.advanceMQTTSession.stopKeepalive with connectionOpen := false } :=
    c.advanceMQTTSession_keepsPush.trans (.of_eq rfl rfl)
  refine (h₁.trans (resetMQTTPush_keepsPush _)).trans ?_
  unfold connectionLost invalidateCerbo invalidateState at h
  obtain ⟨st₁, -, h⟩ := Option.bind_eq_some_iff.mp h
  obtain ⟨st₂, -, h⟩ := Option.bind_eq_some_iff.mp h
  obtain rfl := Option.some.inj h
  exact (initCerboMaps_keepsPush _).trans (.of_eq rfl rfl)

/-- `Subscribe` resets the push service exactly if it gets past its checks. -/
theorem subscribe_keepsPush {c : Client} {o : SubscribeOutcome} {res : Client × Bool}
    (h : c.subscribe o = some res) :
    KeepsPush c res.1 ∧
      (c.gatewayMode = false → c.canSubscribe = true → res.1.pushSource = some .mqtt) := by
  have hcan : ({ c with subscriptionsEnabled := true } : Client).canSubscribe = c.canSubscribe :=
      rfl
  unfold subscribe at h
  dsimp only at h
  rw [hcan] at h
  cases hc : c.canSubscribe with
  | false =>
    rw [hc] at h
    obtain rfl := Option.some.inj h
    exact ⟨.of_eq rfl rfl, fun _ hfalse => by cases hfalse⟩
  | true =>
    rw [hc] at h
    obtain ⟨c₁, h₁, h⟩ := Option.bind_eq_some_iff.mp h
    have hreset := resetMQTTPush_keepsPush
      ({ c with subscriptionsEnabled := true } : Client).advanceMQTTSession
    have hadvance := advanceMQTTSession_keepsPush { c with subscriptionsEnabled := true }
    have hempty : KeepsPush
        ({ c with subscriptionsEnabled := true } : Client).advanceMQTTSession.resetMQTTPush
        { ({ c with subscriptionsEnabled := true } : Client).advanceMQTTSession.resetMQTTPush with
          cerboLeaves := ∅ } := .of_eq rfl rfl
    have hover := hempty.trans (overlaid_of_eq_some h₁).keepsPush
    have henabled : KeepsPush c { c with subscriptionsEnabled := true } := .of_eq rfl rfl
    have hkeep : KeepsPush c c₁ := (henabled.trans hadvance).trans (hreset.trans hover)
    have hsource : c.gatewayMode = false → c₁.pushSource = some .mqtt := by
      intro hlan
      refine hover.source (resetMQTTPush_source ?_)
      obtain ⟨-, -, -, hg, -⟩ :=
        ({ c with subscriptionsEnabled := true } : Client).advanceMQTTSession_spec
      exact hg.trans hlan
    have hstart : ∀ sent, KeepsPush c₁ (c₁.startKeepalive sent) ∧
        (c₁.startKeepalive sent).pushSource = c₁.pushSource := by
      intro sent
      unfold startKeepalive publishKeepalive
      split_ifs <;> exact ⟨.of_eq rfl rfl, rfl⟩
    obtain rfl := Option.some.inj h
    split_ifs
    · exact ⟨hkeep.trans (hstart o.sent).1, fun hlan _ => (hstart o.sent).2.trans (hsource hlan)⟩
    · exact ⟨hkeep, fun hlan _ => hsource hlan⟩

theorem kind_of_mem_addSample {changed : List String} {kind : String} {service : Kind}
    {inst : String}
    {leaf : List String} {value : Option Any} {enabled : Bool} {minimum maximum : F64}
    {σ : Push.Sample}
    (h : σ ∈ addSample changed kind service inst leaf value enabled minimum maximum) :
    σ.kind = kind := by
  unfold addSample at h
  split_ifs at h
  · cases h
  · rw [List.mem_singleton.mp h]

/-- The samples are of the four kinds. -/
theorem mem_sampleKinds_of_mem {all : LeafMap} {o : CerboOptions} {changed : List String}
    {σ : Push.Sample} (h : σ ∈ nativePushSamples all o changed) : σ.kind ∈ Push.sampleKinds := by
  have hsoc : "soc" ∈ Push.sampleKinds := by decide
  have hev : "ev" ∈ Push.sampleKinds := by decide
  rw [nativePushSamples, List.mem_append, List.mem_append, List.mem_append, List.mem_append] at h
  rcases h with (((h | h) | h) | h) | h
  · rw [kind_of_mem_addSample h]
    decide
  · rw [kind_of_mem_addSample h]
    decide
  · unfold chargerSamples at h
    split at h
    · cases h
    · rw [kind_of_mem_addSample h]
      exact hev
  · unfold socSamples at h
    split at h
    · rw [kind_of_mem_addSample h]
      exact hsoc
    · split at h
      · split_ifs at h
        · rw [List.mem_singleton.mp h]
          exact hsoc
        · cases h
      · rw [kind_of_mem_addSample h]
        exact hsoc
  · unfold pathSamples at h
    rcases List.mem_append.mp h with h | h
    · split_ifs at h
      · rw [List.mem_singleton.mp h]
        exact hsoc
      · cases h
    · split at h
      · rcases List.mem_append.mp h with h | h
        · split_ifs at h
          · rw [List.mem_singleton.mp h]
            exact hev
          · cases h
        · split_ifs at h
          · rw [List.mem_singleton.mp h]
            exact hsoc
          · cases h
      · cases h

/-- The samples of a message on LAN are of the four kinds. -/
theorem mem_sampleKinds_of_pushOf {c : Client} {r : NativeScalars} {parse : String → Push.Instant}
    {session : ℕ} {retained : Bool} {m : Message} {now : Time} {ob : Push.Observation}
    (h : c.pushOf r parse session retained m now = some ob) :
    ∀ σ ∈ ob.samples, σ.kind ∈ Push.sampleKinds := by
  intro σ hσ
  unfold pushOf at h
  split_ifs at h
  cases m with
  | native parts payload =>
    dsimp only at h
    split_ifs at h
    unfold nativePush at h
    split_ifs at h
    · obtain ⟨u, -, rfl⟩ := Option.map_eq_some_iff.mp h
      cases hσ
    · obtain ⟨⟨c', changed⟩, -, rfl⟩ := Option.map_eq_some_iff.mp h
      obtain ⟨τ, hτ, rfl⟩ := List.mem_map.mp hσ
      have hkind := mem_sampleKinds_of_mem hτ
      split_ifs <;> exact hkind
  | notification payload =>
    obtain ⟨n, -, rfl⟩ := Option.map_eq_some_iff.mp h
    cases hσ
  | state _ | override _ | portal _ | camera _ => cases h

end Client

/-! ## The system -/

/-- What the push service gets beside a message: the time, the epoch that a reset draws, or none if
that fails, and which calls of `Enqueue` fail. -/
structure PushInput where
  now : Push.Instant
  epoch : Option String
  fails : ℕ → Bool

/-- A run on LAN with the processor. -/
structure Pushing where
  lan : Lan
  processor : Push.Processor

namespace Pushing

/-- `Reset` for the native source; a connection that is lost resets twice with the same effect. -/
def resetWith (p : Push.Processor) (i : PushInput) (connected : Bool) : Push.Processor :=
  match i.epoch with
  | some epoch => Push.Processor.reset epoch "mqtt" connected i.now
  | none => p

/-- The processor behind an event. -/
def processorAfter (L : Push.Libs) (r : NativeScalars) (parse : String → Push.Instant) (s : Pushing)
    (i : PushInput) : LanEvent → Push.Processor
  | .deliver session retained m =>
    match s.lan.client.pushOf r parse session retained m s.lan.now with
    | some ob => (s.processor.observe L i.fails ob i.now).processor
    | none => s.processor
  | .lost => resetWith s.processor i false
  | .subscribe _ => if s.lan.client.canSubscribe then resetWith s.processor i true else s.processor
  | .tick _ | .expire | .opened => s.processor

/-- One event. -/
def step (L : Push.Libs) (r : NativeScalars) (parse : String → Push.Instant) (s : Pushing)
    (e : LanEvent × PushInput) : Option Pushing :=
  (s.lan.step r e.1).map fun lan => ⟨lan, s.processorAfter L r parse e.2 e.1⟩

/-- The start of a run. -/
def Init (s : Pushing) : Prop := s.lan.Init ∧ s.processor = {}

/-- The sessions are in order, callbacks are bound only while the native source is current, each
slot is under its key, and only selected devices have a baseline. -/
structure Inv (s : Pushing) : Prop where
  sessions : s.lan.Sessions
  source : s.lan.bound ≠ [] → s.lan.client.pushSource = some .mqtt
  slots : KeyedSlots s.lan.client.platformSlots
  holds : s.processor.Holds

theorem inv_of_init {s : Pushing} (h : s.Init) : s.Inv := by
  obtain ⟨hlan, hp⟩ := h
  have hsess := Lan.sessions_of_init hlan
  obtain ⟨cfg, hc, -, hbound, -⟩ := hlan
  refine ⟨hsess, fun hb => absurd hbound hb, ?_, ?_⟩
  · rw [hc]
    exact keyedSlots_empty
  · rw [hp]
    exact Push.Processor.holds_new

theorem holds_resetWith {p : Push.Processor} (h : p.Holds) (i : PushInput) (connected : Bool) :
    (resetWith p i connected).Holds := by
  unfold resetWith
  cases i.epoch with
  | none => exact h
  | some epoch => exact Push.Processor.holds_reset ..

/-- **Step.** -/
theorem inv_step {L : Push.Libs} {r : NativeScalars} {parse : String → Push.Instant}
    {s s' : Pushing}
    {e : LanEvent × PushInput} (h : s.Inv) (hs : s.step L r parse e = some s') : s'.Inv := by
  obtain ⟨e, i⟩ := e
  obtain ⟨lan, hlan, rfl⟩ := Option.map_eq_some_iff.mp hs
  have hsess := Lan.sessions_step h.sessions hlan
  cases e with
  | deliver session retained m =>
    have hbound : session ∈ s.lan.bound := by
      by_contra hno
      rw [Lan.step, if_neg hno] at hlan
      cases hlan
    rw [Lan.step, if_pos hbound] at hlan
    obtain ⟨c', hc', rfl⟩ := Option.map_eq_some_iff.mp hlan
    have hkeep := Client.deliver_keepsPush hc'
    refine ⟨hsess, fun hb => hkeep.source (h.source hb), hkeep.slots h.slots, ?_⟩
    show (match s.lan.client.pushOf r parse session retained m s.lan.now with
      | some ob => (s.processor.observe L i.fails ob i.now).processor
      | none => s.processor).Holds
    cases hob : s.lan.client.pushOf r parse session retained m s.lan.now with
    | none => exact h.holds
    | some ob => exact h.holds.observe L i.fails (Client.mem_sampleKinds_of_pushOf hob) i.now
  | tick ms =>
    obtain rfl := Option.some.inj hlan
    exact ⟨hsess, h.source, h.slots, h.holds⟩
  | expire =>
    obtain ⟨c', hc', rfl⟩ := Option.map_eq_some_iff.mp hlan
    have hkeep := Client.expireOptionalTelemetry_keepsPush hc'
    exact ⟨hsess, fun hb => hkeep.source (h.source hb), hkeep.slots h.slots, h.holds⟩
  | opened =>
    obtain rfl := Option.some.inj hlan
    exact ⟨hsess, h.source, h.slots, h.holds⟩
  | lost =>
    obtain ⟨c', hc', rfl⟩ := Option.map_eq_some_iff.mp hlan
    have hkeep := Client.connectionLost_keepsPush hc'
    exact ⟨hsess, fun hb => hkeep.source (h.source hb), hkeep.slots h.slots,
      holds_resetWith h.holds i false⟩
  | subscribe o =>
    have hsub : ¬ s.lan.subscribed = true := by
      intro hsub
      rw [Lan.step, if_pos hsub] at hlan
      cases hlan
    rw [Lan.step, if_neg hsub] at hlan
    obtain ⟨res, hres, hlan⟩ := Option.map_eq_some_iff.mp hlan
    obtain ⟨hkeep, hsource⟩ := Client.subscribe_keepsPush hres
    have hholds : (s.processorAfter L r parse i (.subscribe o)).Holds := by
      show (if s.lan.client.canSubscribe then resetWith s.processor i true else s.processor).Holds
      split_ifs
      · exact holds_resetWith h.holds i true
      · exact h.holds
    split_ifs at hlan with hcan
    · subst hlan
      exact ⟨hsess, fun _ => hsource h.sessions.lan hcan, hkeep.slots h.slots, hholds⟩
    · subst hlan
      exact ⟨hsess, fun hb => hkeep.source (h.source hb), hkeep.slots h.slots, hholds⟩

end Pushing

end Dashboard
