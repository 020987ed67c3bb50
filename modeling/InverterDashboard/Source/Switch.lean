import InverterDashboard.Source.Fence
import InverterDashboard.Source.Isolation

set_option relaxedAutoImplicit false
set_option autoImplicit false

/-!
# Commands across a source switch

`EnableGatewayMode` and `DisableGatewayMode` each run two sections: the mode and the generation
change under `gatewayMu`, and the observations are cleared later under `stateMu`. Calls of
`PublishCommand`, `publishControllerCommand` and `SetWaterMode` run stage by stage between them.
Beside the client, a run remembers for each observation which source wrote it, and for each message
published on LAN whose observation authorised it.

## Main definitions

* `Dashboard.Observation`, `Dashboard.Client.observation` — the receipts that authorise commands.
* `Dashboard.Stage`, `Dashboard.CommandCall` — a call of a command path and its stages.
* `Dashboard.Switching`, `Dashboard.Switching.step` — the system.
* `Dashboard.Switching.Settled` — no publication between the sections of `DisableGatewayMode`.

## Main results

* `Dashboard.commandAllowed_eq` — the stages of an uninterrupted call make the check of the code.
* `Dashboard.Switching.inv_step` — outside of the gateway mode and of a pending switch, every
  observation was received over LAN.
* `Dashboard.Switching.authority_of_reachable` — then so was every authority of a publication.
-/

namespace Dashboard

open Go

/-! ## Observations -/

/-- The observations that authorise commands. -/
inductive Observation where
  | live
  | ess
  | override
  | tariff
  | water (d : WaterDevice)
  deriving DecidableEq

/-- The time of an observation: `controllerLiveAt`, the receipts of the state, and
`waterModeObserved`. -/
def Client.observation (c : Client) : Observation → Option (Time ⊕ F64)
  | .live => c.controllerLiveAt.map Sum.inl
  | .ess => (c.state.field .essModeObservedAt).map Sum.inr
  | .override => (c.state.field .setpointOverrideObservedAt).map Sum.inr
  | .tariff => (c.state.field .electricityTariffObservedAt).map Sum.inr
  | .water d => (c.waterModeObserved d).map Sum.inl

/-- The observation a command needs. -/
def Command.observation : Command → Observation
  | .generic _ => .live
  | .setESSMode _ => .ess
  | .controller .setpointOverride _ => .override
  | .controller .electricityTariff _ => .tariff
  | .water d _ => .water d

namespace Client

/-- A fresh receipt is there. -/
theorem isSome_of_observationFresh {observed : Option F64} {now : Time}
    (h : observationFresh observed now = true) :
    (observed.map (Sum.inr : F64 → Time ⊕ F64)).isSome = true := by
  cases observed with
  | none => cases h
  | some x => rfl

theorem isSome_of_any {observed : Option Time} {p : Time → Bool} (h : observed.any p = true) :
    (observed.map (Sum.inl : Time → Time ⊕ F64)).isSome = true := by
  cases observed with
  | none => cases h
  | some x => rfl

/-- A command that is ready has its observation. -/
theorem isSome_of_commandReady {c : Client} {cmd : Command} {now : Time}
    (h : c.commandReady cmd now = true) : (c.observation cmd.observation).isSome = true := by
  cases cmd with
  | generic action =>
    simp only [commandReady, controllerControlReady, Bool.and_eq_true] at h
    exact isSome_of_any h.2
  | setESSMode payload =>
    simp only [commandReady, essSelectionReady, Bool.and_eq_true] at h
    exact isSome_of_observationFresh h.2
  | controller name payload =>
    cases name with
    | setpointOverride =>
      simp only [commandReady, controllerCommandReady, Bool.and_eq_true] at h
      exact isSome_of_observationFresh h.2.2
    | electricityTariff =>
      simp only [commandReady, controllerCommandReady, Bool.and_eq_true] at h
      exact isSome_of_observationFresh h.2.2
  | water d mode =>
    simp only [commandReady, waterControlReady, Bool.and_eq_true] at h
    exact isSome_of_any h.2

/-- The second section of a switch clears every observation. -/
theorem observation_of_clearSource {c c' : Client} (h : c.clearSource = some c') (o : Observation) :
    c'.observation o = none := by
  obtain ⟨c'', hc'', -, hw, -, -, hwater, hlive, -, -⟩ := c.clearSource_spec
  obtain rfl := Option.some.inj (hc''.symm.trans h)
  cases o with
  | live => rw [observation, hlive]; rfl
  | ess => rw [observation, hw.ess]; rfl
  | override => rw [observation, hw.override]; rfl
  | tariff => rw [observation, hw.tariff]; rfl
  | water d => rw [observation, hwater]; rfl

end Client

/-! ## Calls of the command paths -/

/-- The atomic stages of the command paths. -/
inductive Stage where
  /-- `c.pushGenerationNow()`. -/
  | captureGeneration
  /-- `c.mqttSession.Load()`. -/
  | captureSession
  /-- The mode and its switches are read under `gatewayMu`. -/
  | readMode
  /-- The transport of the mode that was read is connected. -/
  | connected
  /-- The permission check under `stateMu`. -/
  | permission
  /-- The tokens are checked and a gateway publisher takes the command over. -/
  | route
  /-- The final section, which publishes. -/
  | dispatch
  deriving DecidableEq

/-- The stages of a command in order. -/
def Command.stages : Command → List Stage
  | .generic _ => [.captureGeneration, .captureSession, .route, .dispatch]
  | .setESSMode _ => [.captureGeneration, .captureSession, .readMode, .connected, .readMode,
      .permission, .route, .dispatch]
  | .controller .. => [.captureGeneration, .captureSession, .readMode, .connected, .readMode,
      .permission, .dispatch]
  | .water .. => [.readMode, .permission, .connected, .captureGeneration, .captureSession,
      .dispatch]

/-- A call: what is left of it and what it has read. -/
structure CommandCall where
  command : Command
  stages : List Stage
  generation : ℕ := 0
  session : ℕ := 0
  gatewayMode : Bool := false
  gatewayConnected : Bool := false
  gatewayPublish : Bool := false

namespace CommandCall

/-- The mode is read. -/
def readMode (t : CommandCall) (c : Client) : CommandCall :=
  { t with
    gatewayMode := c.gatewayMode
    gatewayConnected := c.gatewayConnected
    gatewayPublish := c.gatewayPublish }

/-- The transport is connected, in the mode that was read. -/
def connected (t : CommandCall) (c : Client) : Bool :=
  if t.gatewayMode then t.gatewayConnected else c.connectionOpen

/-- The permission check, in the mode that was read. -/
def permits (t : CommandCall) (c : Client) (now : Time) : Option (Client × Bool) :=
  match t.command with
  | .generic _ => some (c, true)
  | .setESSMode _ => (c.expireOptionalTelemetry now).map fun c' =>
    (c', essSelectionReady c'.state now && (!t.gatewayMode || c'.capable "set_ess_mode"))
  | .controller name payload => (c.expireOptionalTelemetry now).map fun c' =>
    (c', controllerCommandReady c'.state name payload now && (!t.gatewayMode || c'.capable
      (match name with
        | .setpointOverride => "setpoint_override"
        | .electricityTariff => "electricity_tariff")))
  | .water d _ => some (c, c.waterControlReady d now && decide (0 ≤ c.waterInstance d) &&
    if t.gatewayMode then t.gatewayConnected && t.gatewayPublish && c.capable "water_mode"
    else validPortal c.portalID)

/-- The final section publishes on the LAN client. A controller command looks at the gateway
publisher in the same section. -/
def publishes (t : CommandCall) (c : Client) (now : Time) : Bool :=
  c.dispatches t.command t.generation t.session now &&
    match t.command with
    | .controller .. => !c.gatewayPublish
    | _ => true

/-- A stage of the call, with the stages behind it. A call that fails has no stage left. -/
def advance (t : CommandCall) (c : Client) (now : Time) (rest : List Stage) :
    Stage → Option (Client × CommandCall)
  | .captureGeneration => some (c, { t with generation := c.pushGeneration, stages := rest })
  | .captureSession => some (c, { t with session := c.mqttSession, stages := rest })
  | .readMode => some (c, { t.readMode c with stages := rest })
  | .connected => some (c, { t with stages := if t.connected c then rest else [] })
  | .permission => (t.permits c now).map fun res =>
    (res.1, { t with stages := if res.2 then rest else [] })
  | .route => some (c, { t with
      stages := if c.pushGeneration = t.generation ∧ c.mqttSession = t.session ∧
        !c.gatewayPublish then rest else [] })
  | .dispatch => some (c, { t with stages := [] })

end CommandCall

/-- An uninterrupted call makes the check of the code: `CanSelectESSMode`, `CanControllerCommand` or
`CanControlWaterDevice`. -/
theorem commandAllowed_eq (c : Client) (cmd : Command) (now : Time) :
    c.commandAllowed cmd now =
      let t := CommandCall.readMode { command := cmd, stages := cmd.stages } c
      match cmd with
      | .generic _ => t.permits c now
      | .water .. => (t.permits c now).map fun res => (res.1, res.2 && t.connected c)
      | _ => if t.connected c then t.permits c now else some (c, false) := by
  cases cmd with
  | generic action => rfl
  | setESSMode payload =>
    show c.canSelectESSMode now = if c.isConnected then _ else _
    unfold Client.canSelectESSMode
    cases c.isConnected <;> rfl
  | controller name payload =>
    show c.canControllerCommand name payload now = if c.isConnected then _ else _
    unfold Client.canControllerCommand
    cases c.isConnected <;> rfl
  | water d mode =>
    simp only [Client.commandAllowed, Client.canControlWaterDevice, CommandCall.permits,
      CommandCall.readMode, CommandCall.connected, Option.map_some]
    rcases Bool.eq_false_or_eq_true c.gatewayMode with hg | hg
    · simp only [hg, if_true]
      cases c.gatewayConnected <;> simp
    · simp only [hg, Bool.false_eq_true, if_false]
      rw [Bool.and_comm c.connectionOpen, Bool.and_assoc, Bool.and_assoc, Bool.and_assoc]

/-! ## The system -/

/-- A call of `EnableGatewayMode` or `DisableGatewayMode`, before its first section or between the
two. -/
structure SwitchCall where
  gateway : Bool
  between : Bool := false

/-- A message published on LAN, with the source of the observation that authorised it. -/
structure Publication where
  command : Command
  authority : Option PushSource

/-- The client, the clock, the writer of each observation, the running calls and what was published
on LAN. -/
structure Switching where
  client : Client
  now : Time
  origin : Observation → PushSource
  switches : List SwitchCall
  commands : List CommandCall
  published : List Publication

/-- What can happen. -/
inductive SwitchingEvent where
  /-- A section of the MQTT side or `SetGatewayConnected`. -/
  | side (e : FedEvent)
  /-- A callback with these tokens commits a section. -/
  | commit (sec : Section) (retained : Bool) (generation session : ℕ)
  /-- `ApplyState`. `Stop` of the gateway client waits for it before the mode is left. -/
  | apply (st : State)
  /-- `SetGatewayPublisher`. -/
  | publisher (present : Bool)
  /-- A switch is called. -/
  | switch (gateway : Bool)
  /-- A switch runs its next section. -/
  | switching (j : ℕ)
  /-- A command is called. -/
  | command (cmd : Command) (encodedLen : Option ℕ)
  /-- A call of a command runs its next stage. -/
  | commanding (k : ℕ)

namespace Switching

/-- The client after a section of the MQTT side: what it changed was received over LAN. -/
def onLan (s : Switching) (c : Client) : Switching :=
  { s with
    client := c
    origin := fun o => if c.observation o = s.client.observation o then s.origin o else .mqtt }

/-- `ApplyState` with the observations it writes. -/
def apply (s : Switching) (st : State) : Switching :=
  { s with
    client := s.client.applyState st s.now
    origin := fun o =>
      if o = .live ∧ st.field .inverterAvailable = none then s.origin o else .gateway }

/-- The source of the observation of a command. -/
def authority (s : Switching) (cmd : Command) : Option PushSource :=
  (s.client.observation cmd.observation).map fun _ => s.origin cmd.observation

/-- The next section of the switch `j`. -/
def stepSwitch (s : Switching) (j : ℕ) (t : SwitchCall) : Option Switching :=
  if t.between then s.client.clearSource.map fun c =>
    { s with client := c, switches := s.switches.eraseIdx j }
  else some { s with
    client := if t.gateway then s.client.enableGateway else s.client.disableGateway
    switches := s.switches.set j { t with between := true } }

/-- The next stage of the call `k`. -/
def stepCommand (s : Switching) (k : ℕ) (t : CommandCall) : Option Switching :=
  match t.stages with
  | [] => none
  | stage :: rest => (t.advance s.client s.now rest stage).map fun res =>
    { s.onLan res.1 with
      commands := s.commands.set k res.2
      published := if stage = .dispatch ∧ t.publishes s.client s.now then
        ⟨t.command, s.authority t.command⟩ :: s.published else s.published }

/-- One event. -/
def step (r : NativeScalars) (s : Switching) : SwitchingEvent → Option Switching
  | .side (.apply _) => none
  | .side (.tick ms) => some { s with now := s.now + ms }
  | .side e => (Fed.next r s.client s.now e).map s.onLan
  | .commit sec retained generation session =>
    if s.client.sourceCurrent generation session then
      (sec.commit r s.client retained s.now).map fun res => s.onLan res.1
    else none
  | .apply st => if s.client.gatewayMode then some (s.apply st) else none
  | .publisher present => some { s with client := { s.client with gatewayPublish := present } }
  | .switch gateway => some { s with switches := s.switches ++ [{ gateway }] }
  | .switching j => (s.switches[j]?).bind (s.stepSwitch j)
  | .command cmd encodedLen =>
    if Client.commandValid cmd encodedLen then
      some { s with commands := s.commands ++ [{ command := cmd, stages := cmd.stages }] }
    else none
  | .commanding k => (s.commands[k]?).bind (s.stepCommand k)

/-- A new client. -/
def Init (s : Switching) : Prop :=
  (∃ cfg, s.client = newClient cfg) ∧ s.switches = [] ∧ s.commands = [] ∧ s.published = []

/-- A call of `DisableGatewayMode` is between its sections. -/
def pending (s : Switching) : Bool := s.switches.any fun t => t.between && !t.gateway

/-- The next stage of the call `k` publishes. -/
def publishing (s : Switching) (k : ℕ) : Bool :=
  (s.commands[k]?).any fun t =>
    decide (t.stages.head? = some .dispatch) && t.publishes s.client s.now

/-- Nothing is published between the sections of `DisableGatewayMode`. -/
def Settled (s : Switching) : SwitchingEvent → Prop
  | .commanding k => s.publishing k = true → s.pending = false
  | _ => True

instance (s : Switching) (e : SwitchingEvent) : Decidable (s.Settled e) :=
  match e with
  | .commanding k => inferInstanceAs (Decidable (s.publishing k = true → s.pending = false))
  | .side _ | .commit .. | .apply _ | .publisher _ | .switch _ | .switching _ | .command .. =>
    isTrue trivial

/-! ## The writers of the observations -/

/-- Every observation that is there was received over LAN. -/
def Owned (s : Switching) : Prop :=
  ∀ o, (s.client.observation o).isSome = true → s.origin o = .mqtt

/-- Outside of the gateway mode, unless a switch is pending, the observations are those of LAN. -/
structure Inv (s : Switching) : Prop where
  owned : s.client.gatewayMode = false → s.pending = true ∨ s.Owned
  published : ∀ p ∈ s.published, p.authority = some .mqtt

/-- A section of the MQTT side keeps the writers in order. -/
theorem Owned.onLan {s : Switching} (h : s.Owned) (c : Client) : (s.onLan c).Owned := by
  intro o ho
  show (if c.observation o = s.client.observation o then s.origin o else .mqtt) = .mqtt
  split_ifs with heq
  · exact h o (heq ▸ ho)
  · rfl

/-- What keeps the mode, the observations and the pending switches keeps the invariant. -/
theorem Inv.onLan {s : Switching} (h : s.Inv) {c : Client}
    (hmode : c.gatewayMode = s.client.gatewayMode) : (s.onLan c).Inv :=
  ⟨fun hc => (h.owned (hmode.symm.trans hc)).imp id fun ho => ho.onLan c, h.published⟩

/-- No section of the MQTT side changes the mode. -/
theorem gatewayMode_next {r : NativeScalars} {c c' : Client} {now : Time} {e : FedEvent}
    (h : Fed.next r c now e = some c') : c'.gatewayMode = c.gatewayMode := by
  cases e with
  | apply st => exact (Fed.kept_next rfl h).gateway
  | connected v => exact (Fed.kept_next rfl h).gateway
  | native parts payload retained generation session =>
    rcases Client.applyCerboMessage_spec h with rfl | ⟨c₁, hc₁, -, -, -, -, hn⟩
    · rfl
    · rcases hc₁ with ⟨rfl, -⟩ | ⟨-, rfl⟩ <;> exact hn.sameTransport.gateway
  | controller payload retained generation session override =>
    exact (Client.applyControllerMessage_sameTransport h).gateway
  | notification payload generation session =>
    obtain rfl := Option.some.inj h
    exact (c.applyNotificationMessage_frame payload _ _).sameTransport.gateway
  | portal p generation session =>
    obtain rfl := Option.some.inj h
    unfold Client.applyPortalMessage Client.acceptPortal
    split_ifs <;> rfl
  | advance =>
    obtain rfl := Option.some.inj h
    exact (Client.resetNativeNotifications_frame _ _).sameTransport.gateway
  | resetPush =>
    obtain rfl := Option.some.inj h
    show c.resetMQTTPush.gatewayMode = _
    unfold Client.resetMQTTPush
    split_ifs <;> rfl
  | overlay => exact (Client.overlaid_of_eq_some h).sameTransport.gateway
  | startKeepalive sent =>
    obtain rfl := Option.some.inj h
    unfold Client.startKeepalive Client.publishKeepalive
    split_ifs <;> rfl
  | refresh sent =>
    obtain rfl := Option.some.inj h
    unfold Client.publishKeepalive
    split_ifs <;> rfl
  | invalidate =>
    obtain ⟨c'', hc'', ht, -⟩ := c.invalidateState_spec
    exact Option.some.inj (hc''.symm.trans h) ▸ ht.gateway
  | expire =>
    obtain ⟨c'', hc'', ht, -⟩ := c.expireOptionalTelemetry_spec now
    exact Option.some.inj (hc''.symm.trans h) ▸ ht.gateway
  | camera p => exact Option.some.inj h ▸ rfl
  | stopKeepalive => exact Option.some.inj h ▸ rfl
  | connection opened enabled => exact Option.some.inj h ▸ rfl
  | tick ms => exact Option.some.inj h ▸ rfl

/-- A stage of a call is no section of a switch. -/
theorem sameTransport_advance {t t' : CommandCall} {c c' : Client} {now : Time} {rest : List Stage}
    {stage : Stage} (h : t.advance c now rest stage = some (c', t')) : c.SameTransport c' := by
  have hrefl : ∀ {t'' : CommandCall}, some (c, t'') = some (c', t') → c.SameTransport c' := by
    intro t'' heq
    obtain ⟨rfl, -⟩ := Prod.mk.inj (Option.some.inj heq)
    exact Client.SameTransport.refl c
  cases stage with
  | permission =>
    obtain ⟨res, hres, heq⟩ := Option.map_eq_some_iff.mp h
    obtain ⟨rfl, -⟩ := Prod.mk.inj heq
    obtain ⟨c'', hc'', ht, -⟩ := c.expireOptionalTelemetry_spec now
    unfold CommandCall.permits at hres
    split at hres
    · exact Option.some.inj hres ▸ Client.SameTransport.refl c
    · rw [hc''] at hres
      exact Option.some.inj hres ▸ ht
    · rw [hc''] at hres
      exact Option.some.inj hres ▸ ht
    · exact Option.some.inj hres ▸ Client.SameTransport.refl c
  | captureGeneration => exact hrefl h
  | captureSession => exact hrefl h
  | readMode => exact hrefl h
  | connected => exact hrefl h
  | route => exact hrefl h
  | dispatch => exact hrefl h

/-- A section of a switch keeps the invariant: the first one opens the pending switch, the second
one leaves no observation. -/
theorem inv_stepSwitch {s s' : Switching} {j : ℕ} {t : SwitchCall} (h : s.Inv)
    (ht : s.switches[j]? = some t) (hs : s.stepSwitch j t = some s') : s'.Inv := by
  unfold stepSwitch at hs
  split_ifs at hs with hb hgateway
  · obtain ⟨c, hc, rfl⟩ := Option.map_eq_some_iff.mp hs
    refine ⟨fun _ => Or.inr fun o ho => ?_, h.published⟩
    replace ho : (c.observation o).isSome = true := ho
    rw [Client.observation_of_clearSource hc o] at ho
    cases ho
  · obtain rfl := Option.some.inj hs
    refine ⟨fun hmode => ?_, h.published⟩
    have hframe := (Client.resetNativeNotifications_frame
      ({ s.client with gatewayMode := true }.resetPush .gateway) true).sameTransport.gateway
    exact absurd (hframe.symm.trans hmode) (by simp [Client.resetPush])
  · obtain rfl := Option.some.inj hs
    refine ⟨fun _ => Or.inl ?_, h.published⟩
    obtain ⟨hj, -⟩ := List.getElem?_eq_some_iff.mp ht
    refine List.any_eq_true.mpr ⟨{ t with between := true }, List.mem_set hj _, ?_⟩
    simp [hgateway]

/-- A call publishes only on an observation of LAN, and keeps the invariant. -/
theorem inv_stepCommand {s s' : Switching} {k : ℕ} {t : CommandCall} (h : s.Inv)
    (ht : s.commands[k]? = some t) (hok : s.Settled (.commanding k))
    (hs : s.stepCommand k t = some s') : s'.Inv := by
  unfold stepCommand at hs
  split at hs
  · cases hs
  · rename_i stage rest hstages
    obtain ⟨⟨c, t'⟩, hc, rfl⟩ := Option.map_eq_some_iff.mp hs
    have hl := h.onLan (sameTransport_advance hc).gateway
    refine ⟨hl.owned, fun p hp => ?_⟩
    dsimp only at hp
    split_ifs at hp with hpub
    · obtain ⟨rfl, hpub⟩ := hpub
      rcases List.mem_cons.mp hp with rfl | hp
      · have hpending : s.pending = false := by
          apply hok
          simp [publishing, ht, hstages, hpub]
        simp only [CommandCall.publishes, Client.dispatches, Bool.and_eq_true,
          Bool.not_eq_true'] at hpub
        obtain ⟨⟨⟨⟨-, hmode⟩, -⟩, hready⟩, -⟩ := hpub
        have hobs := Client.isSome_of_commandReady hready
        have hown := (h.owned hmode).resolve_left (by simp [hpending])
        obtain ⟨x, hx⟩ := Option.isSome_iff_exists.mp hobs
        show (s.client.observation t.command.observation).map _ = some PushSource.mqtt
        rw [hx, Option.map_some, hown _ hobs]
      · exact h.published p hp
    · exact h.published p hp

/-- **Step.** Every event that publishes nothing between the sections of `DisableGatewayMode` keeps
the invariant. -/
theorem inv_step {r : NativeScalars} {s s' : Switching} {e : SwitchingEvent} (h : s.Inv)
    (hok : s.Settled e) (hs : s.step r e = some s') : s'.Inv := by
  cases e with
  | side e =>
    by_cases hticks : ∃ ms, e = .tick ms
    · obtain ⟨ms, rfl⟩ := hticks
      exact Option.some.inj hs ▸ ⟨h.owned, h.published⟩
    · by_cases happly : ∃ st, e = .apply st
      · obtain ⟨st, rfl⟩ := happly
        cases hs
      · have hmap : (Fed.next r s.client s.now e).map s.onLan = some s' := by
          cases e <;> first | exact hs | exact absurd ⟨_, rfl⟩ hticks | exact absurd ⟨_, rfl⟩ happly
        obtain ⟨c, hc, rfl⟩ := Option.map_eq_some_iff.mp hmap
        exact h.onLan (gatewayMode_next hc)
  | commit sec retained generation session =>
    simp only [step] at hs
    split_ifs at hs
    obtain ⟨res, hres, rfl⟩ := Option.map_eq_some_iff.mp hs
    exact h.onLan (Fenced.commit_sameTransport hres).gateway
  | apply st =>
    simp only [step] at hs
    split_ifs at hs with hmode
    obtain rfl := Option.some.inj hs
    refine ⟨fun hoff => ?_, h.published⟩
    have hkeep := (Fenced.applyState_sameTransport s.client st s.now).gateway
    rw [← hkeep] at hmode
    exact absurd (hmode.symm.trans hoff) (by simp)
  | publisher present => exact Option.some.inj hs ▸ ⟨h.owned, h.published⟩
  | switch gateway =>
    obtain rfl := Option.some.inj hs
    refine ⟨fun hmode => (h.owned hmode).imp (fun hp => ?_) id, h.published⟩
    simp only [pending, List.any_append, Bool.or_eq_true]
    exact Or.inl hp
  | switching j =>
    obtain ⟨t, ht, hs⟩ := Option.bind_eq_some_iff.mp hs
    exact inv_stepSwitch h ht hs
  | command cmd encodedLen =>
    simp only [step] at hs
    split_ifs at hs
    exact Option.some.inj hs ▸ ⟨h.owned, h.published⟩
  | commanding k =>
    obtain ⟨t, ht, hs⟩ := Option.bind_eq_some_iff.mp hs
    exact inv_stepCommand h ht hok hs

theorem inv_of_init {s : Switching} (h : s.Init) : s.Inv := by
  obtain ⟨⟨cfg, hc⟩, -, -, hp⟩ := h
  refine ⟨fun _ => Or.inr fun o ho => ?_, fun p hmem => ?_⟩
  · rw [hc] at ho
    cases o <;> cases ho
  · rw [hp] at hmem
    cases hmem

/-- In every run that publishes nothing between the sections of `DisableGatewayMode`, everything
published on LAN was authorised by an observation received over LAN. -/
theorem authority_of_reachable (r : NativeScalars) {s : Switching}
    (h : Transition.Reachable (Switching.step r) Switching.Settled Switching.Init s) :
    ∀ p ∈ s.published, p.authority = some .mqtt :=
  (h.invariant (fun _ hs => inv_of_init hs) fun _ _ _ hi hok hs => inv_step hi hok hs).published

/-- A new client, with no call running. -/
def idle : Switching := ⟨newClient {}, 5000, fun _ => .mqtt, [], [], []⟩

theorem init_idle : idle.Init := ⟨⟨{}, rfl⟩, rfl, rfl, rfl⟩

/-- A live frame, and a command after it. -/
def liveRun : List SwitchingEvent :=
  [.side (.connection true true),
    .commit (.controller false [("house_support", .bool true)]) false 0 0,
    .command (.generic .toggle) none, .commanding 0, .commanding 0, .commanding 0, .commanding 0]

theorem authority_of_reachable_liveRun : ∃ s,
    Transition.Reachable (Switching.step Lan.noScalars) Switching.Settled Switching.Init s ∧
      s.published ≠ [] ∧ ∀ p ∈ s.published, p.authority = some .mqtt := by
  obtain ⟨s, hs, hp⟩ := Transition.Reachable.exists_of_run (Switching.step Lan.noScalars)
    Switching.Settled liveRun (fun s => !s.published.isEmpty) init_idle (by decide)
    (by decide)
  refine ⟨s, hs, fun hnil => ?_, authority_of_reachable Lan.noScalars hs⟩
  rw [hnil] at hp
  cases hp

/-- A gateway feeds the client and is left, as the recovery probe does it; a command is called
between the two sections of `DisableGatewayMode`. -/
def handover : List SwitchingEvent :=
  [.switch true, .switching 0, .switching 0, .publisher true,
    .apply (State.zero.set .inverterAvailable (some true)), .side (.connection true true),
    .publisher false, .switch false, .switching 0,
    .command (.generic .toggle) none, .commanding 0, .commanding 0, .commanding 0, .commanding 0]

/-- A command is published on LAN with the authority of a gateway snapshot. -/
theorem gateway_authority_on_lan : ∃ s,
    Transition.Reachable (Switching.step Lan.noScalars) (fun _ _ => True) Switching.Init s ∧
      ∃ p ∈ s.published, p.authority = some .gateway := by
  obtain ⟨s, hs, hp⟩ := Transition.Reachable.exists_of_run (Switching.step Lan.noScalars)
    (fun _ _ => True) handover (fun s => s.published.any fun p => p.authority == some .gateway)
    init_idle (Transition.Allowed.of_forall (fun _ _ => trivial) idle) (by decide)
  obtain ⟨p, hmem, hp⟩ := List.any_eq_true.mp hp
  exact ⟨s, hs, p, hmem, beq_iff_eq.mp hp⟩

end Switching

end Dashboard
