import InverterDashboard.Source.Switch
import InverterDashboard.Lan.Spelling

set_option relaxedAutoImplicit false
set_option autoImplicit false

/-!
# The acknowledgement of an override

`publishControllerCommand` with a setpoint override: the call publishes once, waits for the broker
and then polls `overrideAcknowledgement` until its deadline, while frames, switches, sessions and
other calls go on. A run keeps the order of the publications and of the frames that carried an
override status.

## Main definitions

* `Dashboard.OverrideCall` — a call with its program counter.
* `Dashboard.Acking`, `Dashboard.Acking.step` — the system.
* `Dashboard.LatestFrame` — the latest frame with a status, behind a publication.
* `Dashboard.Unforged` — the inexact spellings of a frame leave the override and its receipt alone.

## Main results

* `Dashboard.Acking.inv_step` — what a published call knows of the status, after every step.
* `Dashboard.Acking.acknowledged_of_reachable` — a call returns nil only on a live frame behind its
  one publication.
-/

namespace Dashboard

open Go

/-! ## Calls -/

/-- Where a call of `publishControllerCommand("setpoint_override", …)` stands. -/
inductive OverridePC where
  /-- Before its publication. -/
  | staged
  /-- In `awaitPublish`, with the receipt serial read at the publication. -/
  | awaiting (receipt : ℕ)
  /-- Polling `overrideAcknowledgement`. -/
  | polling (receipt : ℕ)
  /-- Returned nil. -/
  | acknowledged
  /-- Returned an error. -/
  | failed
  /-- Handed over to the gateway publisher. -/
  | delegated
  deriving DecidableEq

/-- A call: its stages and tokens, its deadline and its program counter. -/
structure OverrideCall where
  call : CommandCall
  deadline : Time
  pc : OverridePC := .staged

namespace OverrideCall

/-- The payload of the command. -/
def payload (t : OverrideCall) : Any :=
  match t.call.command with
  | .controller .setpointOverride p => p
  | _ => .nil

/-- The receipt serial of a call that has published and not returned. -/
def receipt (t : OverrideCall) : Option ℕ :=
  match t.pc with
  | .awaiting receipt | .polling receipt => some receipt
  | _ => none

/-- The tokens of the call are the current ones. -/
def current (t : OverrideCall) (c : Client) : Bool :=
  c.pushGeneration == t.call.generation && c.mqttSession == t.call.session

/-- `awaitPublish`, one round: `token` is what the broker says. -/
def await (t : OverrideCall) (c : Client) (now : Time) (receipt : ℕ) (token : Option Bool) :
    OverridePC :=
  if t.deadline ≤ now ∨ !t.current c then .failed
  else match token with
    | none => .awaiting receipt
    | some false => .failed
    | some true => .polling receipt

/-- `overrideAcknowledgement`, and what the call makes of it. -/
def poll (t : OverrideCall) (c : Client) (now : Time) (receipt : ℕ) : OverridePC :=
  if t.deadline ≤ now then .failed
  else if c.gatewayMode || !t.current c || !c.connectionOpen ||
      !controllerCommandReady c.state .setpointOverride t.payload now then .failed
  else if c.overrideReceipt ≤ receipt then .polling receipt
  else match overrideAcknowledged (c.state.field .setpointOverride) t.payload with
    | .confirmed => .acknowledged
    | .rejected => .failed
    | .pending => .polling receipt

/-- The final section before the publication. -/
def dispatch (t : OverrideCall) (c : Client) (now : Time) : OverridePC :=
  if t.call.publishes c now then .awaiting c.overrideReceipt
  else if t.current c && c.gatewayPublish then .delegated
  else .failed

end OverrideCall

/-! ## The system -/

/-- What a run keeps, the latest first. -/
inductive LogEntry where
  /-- The call `k` published. -/
  | published (k : ℕ)
  /-- A frame with an override status was applied. -/
  | frame (retained : Bool) (status : Option SetpointOverrideStatus)
  deriving DecidableEq

/-- The sections of the source switches. -/
inductive SwitchSection where
  | enable
  | disable
  | clear

/-- The client, the clock, the calls and the log. -/
structure Acking where
  client : Client
  now : Time
  calls : List OverrideCall
  log : List LogEntry

/-- What can happen. -/
inductive AckingEvent where
  /-- A section of the MQTT side that is not a callback, or `SetGatewayConnected`. -/
  | side (e : FedEvent)
  /-- A callback with these tokens commits a section. -/
  | commit (sec : Section) (retained : Bool) (generation session : ℕ)
  /-- A section of a source switch. -/
  | switch (sec : SwitchSection)
  /-- `ApplyState`, in gateway mode. -/
  | apply (st : State)
  /-- `SetGatewayPublisher`. -/
  | publisher (present : Bool)
  /-- An override is requested. -/
  | request (payload : Any)
  /-- The call `k` takes its next step; `token` is what the broker says of its publication. -/
  | calling (k : ℕ) (token : Option Bool)

/-- The event is a whole callback, which `AckingEvent.commit` takes section by section. -/
def FedEvent.isCallback : FedEvent → Bool
  | .native .. | .controller .. | .notification .. | .portal .. => true
  | _ => false

/-- The status of an override that a section carries. -/
def Section.status : Section → Option (Option SetpointOverrideStatus)
  | .controller _ data => Client.carriedStatus data
  | _ => none

namespace Acking

/-- The client after a section of a switch. -/
def switched (c : Client) : SwitchSection → Option Client
  | .enable => some c.enableGateway
  | .disable => some c.disableGateway
  | .clear => c.clearSource

/-- The call `k` replaced. -/
def setCall (s : Acking) (k : ℕ) (t : OverrideCall) : Acking :=
  { s with calls := s.calls.set k t }

/-- The next step of the call `k`. -/
def stepCall (s : Acking) (k : ℕ) (token : Option Bool) (t : OverrideCall) : Option Acking :=
  match t.pc with
  | .staged =>
    match t.call.stages with
    | [] => some (s.setCall k { t with pc := .failed })
    | .dispatch :: _ =>
      some ({ s with
        log := if t.call.publishes s.client s.now then .published k :: s.log else s.log }.setCall k
          { t with pc := t.dispatch s.client s.now })
    | stage :: rest => (t.call.advance s.client s.now rest stage).map fun res =>
      { s with client := res.1 }.setCall k { t with call := res.2 }
  | .awaiting receipt =>
    some (s.setCall k { t with pc := t.await s.client s.now receipt token })
  | .polling receipt => some (s.setCall k { t with pc := t.poll s.client s.now receipt })
  | .acknowledged | .failed | .delegated => none

/-- One event. -/
def step (r : NativeScalars) (s : Acking) : AckingEvent → Option Acking
  | .side (.apply _) => none
  | .side (.tick ms) => some { s with now := s.now + ms }
  | .side e =>
    if e.isCallback then none
    else (Fed.next r s.client s.now e).map fun c => { s with client := c }
  | .commit sec retained generation session =>
    if s.client.sourceCurrent generation session then
      (sec.commit r s.client retained s.now).map fun res =>
        { s with
          client := res.1
          log := (sec.status.map (LogEntry.frame retained)).toList ++ s.log }
    else none
  | .switch sec => (switched s.client sec).map fun c => { s with client := c }
  | .apply st =>
    if s.client.gatewayMode then some { s with client := s.client.applyState st s.now } else none
  | .publisher present => some { s with client := { s.client with gatewayPublish := present } }
  | .request payload =>
    if validateOverride payload then
      let cmd := Command.controller .setpointOverride payload
      some { s with
        calls := s.calls ++ [{
          call := { command := cmd, stages := cmd.stages }
          deadline := s.now + 5000 }] }
    else none
  | .calling k token => (s.calls[k]?).bind (s.stepCall k token)

/-- A new client without calls. -/
def Init (s : Acking) : Prop := (∃ cfg, s.client = newClient cfg) ∧ s.calls = [] ∧ s.log = []

end Acking

/-- The inexact spellings of a state frame without a status leave the override and its receipt as
they are, or clear them. -/
def Unforged (c : Client) (data : Frame) : Prop :=
  Client.carriedStatus data = none →
    (absorb .setpointOverride (respelled .setpointOverride data)
        (c.state.field .setpointOverride) ∈ [c.state.field .setpointOverride, none]) ∧
      absorb .setpointOverrideObservedAt (respelled .setpointOverrideObservedAt data)
        (c.state.field .setpointOverrideObservedAt) ∈
          [c.state.field .setpointOverrideObservedAt, none]

/-- No state frame forges an override or its receipt. -/
def Acking.Genuine (s : Acking) : AckingEvent → Prop
  | .commit (.controller false data) .. => Unforged s.client data
  | _ => True

/-! ## What a step does to the override -/

/-- A section without a frame: the receipt serial stays, and a status with a receipt is the one from
before. -/
structure Calm (c c' : Client) : Prop where
  generation : c'.pushGeneration = c.pushGeneration
  gateway : c'.gatewayMode = c.gatewayMode
  serial : c'.overrideReceipt = c.overrideReceipt
  status : (c'.state.field .setpointOverrideObservedAt).isSome = true →
    (c'.state.field .setpointOverride).isSome = true →
    (c.state.field .setpointOverrideObservedAt).isSome = true ∧
      c'.state.field .setpointOverride = c.state.field .setpointOverride

namespace Calm

theorem refl (c : Client) : Calm c c := ⟨rfl, rfl, rfl, fun h _ => ⟨h, rfl⟩⟩

/-- The override and its receipt are not touched. -/
theorem of_field {c c' : Client} (ht : c.SameTransport c')
    (hserial : c'.overrideReceipt = c.overrideReceipt)
    (hfield : ∀ f ∈ [Field.setpointOverride, .setpointOverrideObservedAt],
      c'.state.field f = c.state.field f) : Calm c c' :=
  ⟨ht.generation, ht.gateway, hserial,
    fun h _ => ⟨hfield .setpointOverrideObservedAt (by decide) ▸ h,
      hfield .setpointOverride (by decide)⟩⟩

/-- The receipt of the override is gone. -/
theorem of_none {c c' : Client} (ht : c.SameTransport c')
    (hserial : c'.overrideReceipt = c.overrideReceipt)
    (hnone : c'.state.field .setpointOverrideObservedAt = none) : Calm c c' :=
  ⟨ht.generation, ht.gateway, hserial, fun h => by rw [hnone] at h; cases h⟩

end Calm

namespace Client

theorem BannersOnly.calm {c c' : Client} (h : BannersOnly c c') : Calm c c' := by
  obtain ⟨l, slots, seen, alarms, rfl⟩ := h
  refine Calm.of_field ⟨rfl, rfl, rfl, rfl, rfl, rfl, rfl, rfl⟩ rfl fun f hf => ?_
  refine State.set_field_ne _ ?_ _
  rintro rfl
  revert hf
  decide

theorem Overlaid.calm {c c' : Client} (h : Overlaid c c') : Calm c c' := by
  refine Calm.of_field h.sameTransport (by rw [h.frame]) fun f hf => ?_
  have hdir : ∀ g ∈ [Field.setpointOverride, .setpointOverrideObservedAt],
      g ∉ directFields ∧ g ≠ .telemetryAvailable := by decide
  exact h.field_of_not_direct (hdir f hf).1 (hdir f hf).2

theorem initCerboMaps_calm (c : Client) : Calm c c.initCerboMaps := by
  obtain ⟨hinit, -, hfield, -, -⟩ := c.initCerboMaps_spec
  refine Calm.of_field c.initCerboMaps_sameTransport (by rw [hinit]) fun f hf => hfield f ?_
  rintro rfl
  revert hf
  decide

theorem calm_of_expire {c c' : Client} {now : Time}
    (h : c.expireOptionalTelemetry now = some c') : Calm c c' := by
  obtain ⟨c'', hc'', ht, -, hcases⟩ := c.expireOptionalTelemetry_spec now
  obtain rfl := Option.some.inj (hc''.symm.trans h)
  have hserial : c''.overrideReceipt = c.overrideReceipt := by
    have hinit : c.initCerboMaps.overrideReceipt = c.overrideReceipt := by
      rw [c.initCerboMaps_spec.1]
    simp only [expireOptionalTelemetry] at h
    split at h
    · exact Option.some.inj h ▸ hinit
    · split_ifs at h
      · simp only [Option.bind_eq_bind, Option.bind_eq_some_iff, Option.pure_def,
          Option.some.injEq] at h
        obtain ⟨st₁, -, st₂, -, rfl⟩ := h
        exact hinit
      · exact Option.some.inj h ▸ hinit
  rcases hcases with hv | ⟨hw, -⟩
  · have hperm : ∀ f ∈ [Field.setpointOverride, .setpointOverrideObservedAt],
        f ∈ permissionFields := by decide
    exact Calm.of_field ht hserial fun f hf => hv.field f (hperm f hf)
  · exact Calm.of_none ht hserial hw.override

theorem calm_of_clearOptionalTelemetry {c c' : Client} (h : c.clearOptionalTelemetry = some c') :
    Calm c c' := by
  obtain ⟨c'', hc'', ht, hw, -⟩ := c.clearOptionalTelemetry_spec
  obtain rfl := Option.some.inj (hc''.symm.trans h)
  refine Calm.of_none ht ?_ hw.override
  simp only [clearOptionalTelemetry, Option.bind_eq_bind, Option.bind_eq_some_iff, Option.pure_def,
    Option.some.injEq] at h
  obtain ⟨st₁, -, st₂, -, rfl⟩ := h
  rw [initCerboMaps_spec _ |>.1]

theorem calm_of_clearSource {c c' : Client} (h : c.clearSource = some c') : Calm c c' := by
  simp only [clearSource, Option.bind_eq_bind, Option.bind_eq_some_iff, Option.pure_def,
    Option.some.injEq] at h
  obtain ⟨c₁, hc₁, rfl⟩ := h
  have hcalm := calm_of_clearOptionalTelemetry hc₁
  exact ⟨hcalm.generation, hcalm.gateway, hcalm.serial, hcalm.status⟩

theorem calm_of_invalidateState {c c' : Client} (h : c.invalidateState = some c') : Calm c c' := by
  obtain ⟨c'', hc'', ht, hw, -⟩ := c.invalidateState_spec
  obtain rfl := Option.some.inj (hc''.symm.trans h)
  refine Calm.of_none ht ?_ hw.override
  simp only [invalidateState, Option.bind_eq_bind, Option.bind_eq_some_iff, Option.pure_def,
    Option.some.injEq] at h
  obtain ⟨st₁, -, st₂, -, rfl⟩ := h
  rw [initCerboMaps_spec _ |>.1]

end Client

/-- A step that is calm, or that retires the generation. -/
def Moves (c c' : Client) : Prop := Calm c c' ∨ c.pushGeneration < c'.pushGeneration

/-- The sections of the MQTT side that are no callbacks carry no frame. -/
theorem moves_next {r : NativeScalars} {c c' : Client} {now : Time} {e : FedEvent}
    (hcall : e.isCallback = false) (happly : ∀ st, e ≠ .apply st)
    (h : Fed.next r c now e = some c') : Moves c c' := by
  cases e with
  | apply st => exact absurd rfl (happly st)
  | native parts payload retained generation session => cases hcall
  | controller payload retained generation session override => cases hcall
  | notification payload generation session => cases hcall
  | portal p generation session => cases hcall
  | connected v =>
    simp only [Fed.next, Client.setGatewayConnected] at h
    have hset : Calm c { c with gatewayConnected := v } := ⟨rfl, rfl, rfl, fun h _ => ⟨h, rfl⟩⟩
    by_cases hch : (c.gatewayConnected != v) = true
    · rw [if_pos hch] at h
      cases hmode : c.gatewayMode with
      | true =>
        right
        simp only [hmode, if_true] at h
        cases v with
        | true => exact Option.some.inj h ▸ Nat.lt_succ_self _
        | false =>
          have hc := Client.calm_of_clearOptionalTelemetry h
          rw [hc.generation]
          exact Nat.lt_succ_self _
      | false =>
        left
        simp only [hmode, Bool.false_eq_true, if_false] at h
        cases v with
        | true =>
          obtain rfl := Option.some.inj h
          exact ⟨rfl, hmode.symm, rfl, fun h _ => ⟨h, rfl⟩⟩
        | false =>
          have hc := Client.calm_of_clearOptionalTelemetry h
          exact ⟨hc.generation, hc.gateway.trans hmode.symm, hc.serial, hc.status⟩
    · rw [if_neg hch] at h
      exact Or.inl (Option.some.inj h ▸ hset)
  | camera p =>
    obtain rfl := Option.some.inj h
    refine Or.inl (Calm.of_field ⟨rfl, rfl, rfl, rfl, rfl, rfl, rfl, rfl⟩ rfl fun f hf => ?_)
    refine State.set_field_ne _ ?_ _
    rintro rfl
    revert hf
    decide
  | advance =>
    obtain rfl := Option.some.inj h
    have hcalm := (Client.resetNativeNotifications_frame
      { c with mqttSession := c.mqttSession + 1 } (!c.gatewayMode)).calm
    exact Or.inl ⟨hcalm.generation, hcalm.gateway, hcalm.serial, hcalm.status⟩
  | resetPush =>
    obtain rfl := Option.some.inj h
    show Moves c c.resetMQTTPush
    unfold Client.resetMQTTPush
    split_ifs
    · exact Or.inl (Calm.refl c)
    · exact Or.inr (Nat.lt_succ_self _)
  | overlay =>
    have hcalm := (Client.overlaid_of_eq_some h).calm
    exact Or.inl ⟨hcalm.generation, hcalm.gateway, hcalm.serial, hcalm.status⟩
  | startKeepalive sent =>
    obtain rfl := Option.some.inj h
    unfold Client.startKeepalive Client.publishKeepalive
    split_ifs <;> exact Or.inl ⟨rfl, rfl, rfl, fun h _ => ⟨h, rfl⟩⟩
  | refresh sent =>
    obtain rfl := Option.some.inj h
    unfold Client.publishKeepalive
    split_ifs <;> exact Or.inl ⟨rfl, rfl, rfl, fun h _ => ⟨h, rfl⟩⟩
  | stopKeepalive =>
    obtain rfl := Option.some.inj h
    exact Or.inl ⟨rfl, rfl, rfl, fun h _ => ⟨h, rfl⟩⟩
  | invalidate => exact Or.inl (Client.calm_of_invalidateState h)
  | connection opened enabled =>
    obtain rfl := Option.some.inj h
    exact Or.inl ⟨rfl, rfl, rfl, fun h _ => ⟨h, rfl⟩⟩
  | expire => exact Or.inl (Client.calm_of_expire h)
  | tick ms => exact Or.inl (Option.some.inj h ▸ Calm.refl c)

/-- The sections of a switch carry no frame, or retire the generation. -/
theorem moves_switched {c c' : Client} {sec : SwitchSection}
    (h : Acking.switched c sec = some c') : Moves c c' := by
  cases sec with
  | enable =>
    obtain rfl := Option.some.inj h
    right
    have ht := (Client.resetNativeNotifications_frame
      ({ c with gatewayMode := true }.resetPush .gateway) true).sameTransport
    exact ht.generation ▸ Nat.lt_succ_self _
  | disable =>
    obtain rfl := Option.some.inj h
    right
    have ht := (Client.resetNativeNotifications_frame
      ({ c with gatewayMode := false }.resetPush .mqtt) true).sameTransport
    show c.pushGeneration < (({ c with gatewayMode := false }.resetPush
      .mqtt).resetNativeNotifications true).pushGeneration
    exact ht.generation ▸ Nat.lt_succ_self _
  | clear => exact Or.inl (Client.calm_of_clearSource h)

/-! ## Frames -/

/-- A frame with a status: it is installed, with a receipt only if the frame is live. -/
structure Framed (c : Client) (retained : Bool) (status : Option SetpointOverrideStatus)
    (c' : Client) : Prop where
  generation : c'.pushGeneration = c.pushGeneration
  gateway : c'.gatewayMode = c.gatewayMode
  status : c'.state.field .setpointOverride = status
  live : (c'.state.field .setpointOverrideObservedAt).isSome = true → retained = false

/-- The serial of a state frame. -/
theorem overrideReceipt_of_commitState {c c' : Client} {data : Frame} {retained : Bool} {now : Time}
    (h : c.commitState data retained now = some c') : c'.overrideReceipt =
      if (Client.carriedStatus data).isSome then c.overrideReceipt + 1 else c.overrideReceipt := by
  simp only [Client.commitState, Option.bind_eq_bind, Option.bind_eq_some_iff, Option.pure_def,
    Option.some.injEq] at h
  obtain ⟨c₂, hmerge, rfl⟩ := h
  obtain ⟨st₁, st₂, hm⟩ := Client.merged_of_eq_some _ hmerge
  obtain ⟨c₃, hobs, hserial, -⟩ := (c₂.finishState_spec data retained now).observed
  have hc₂ : c₂.overrideReceipt = c.overrideReceipt := by
    rw [hm.overlaid.frame]
    rfl
  rw [hserial, hobs.receipt, hc₂]

/-- A receipt of a status is there only after a live frame. -/
theorem live_of_receiptTime {status : Option SetpointOverrideStatus} {retained : Bool} {now : Time}
    (h : (if status.isSome then Client.receiptTime retained now else none).isSome = true) :
    retained = false := by
  unfold Client.receiptTime at h
  split_ifs at h with h₁ h₂
  · cases h
  · simpa using h₂
  · cases h

/-- A controller section without a status is calm, unless it forges one. -/
theorem calm_of_controller {c c' : Client} {override : Bool} {data : Frame} {retained : Bool}
    {now : Time} (hnone : Client.carriedStatus data = none)
    (hgenuine : override = false → Unforged c data)
    (h : c.commitController override data retained now = some c') : Calm c c' := by
  have ht := Client.commitController_sameTransport h
  unfold Client.commitController at h
  cases override with
  | true =>
    obtain rfl := Option.some.inj h
    have hobs := c.observeControllerCommands_spec data retained now
    refine Calm.of_field ht (by rw [hobs.receipt, hnone]; rfl) fun f hf => ?_
    rcases List.mem_pair.mp hf with rfl | rfl
    · rw [hobs.override, hnone]
      rfl
    · rw [hobs.overrideObserved, hnone]
  | false =>
    have hfields := Client.commitFields_of_eq_some h
    have hserial := overrideReceipt_of_commitState h
    rw [hnone] at hserial
    obtain ⟨hstatus, hreceipt⟩ := hgenuine rfl hnone
    refine ⟨ht.generation, ht.gateway, hserial, fun hobs hover => ?_⟩
    rw [hfields.overrideObserved, hnone] at hobs
    rw [hfields.override, hnone] at hover ⊢
    dsimp only [Option.getD_none] at hobs hover ⊢
    split_ifs at hobs hover ⊢ with hempty
    · cases hobs
    · rcases List.mem_pair.mp hreceipt with hr | hr
      · rcases List.mem_pair.mp hstatus with hs | hs
        · exact ⟨hr ▸ hobs, hs⟩
        · rw [hs] at hover
          cases hover
      · rw [hr] at hobs
        cases hobs

/-- A controller section with a status installs it. -/
theorem framed_of_controller {c c' : Client} {override : Bool} {data : Frame} {retained : Bool}
    {now : Time} {status : Option SetpointOverrideStatus}
    (hsome : Client.carriedStatus data = some status)
    (h : c.commitController override data retained now = some c') :
    Framed c retained status c' := by
  have ht := Client.commitController_sameTransport h
  unfold Client.commitController at h
  cases override with
  | true =>
    obtain rfl := Option.some.inj h
    have hobs := c.observeControllerCommands_spec data retained now
    refine ⟨ht.generation, ht.gateway, by rw [hobs.override, hsome]; rfl, fun hlive => ?_⟩
    rw [hobs.overrideObserved, hsome] at hlive
    exact live_of_receiptTime hlive
  | false =>
    have hfields := Client.commitFields_of_eq_some h
    refine ⟨ht.generation, ht.gateway, by rw [hfields.override, hsome]; rfl, fun hlive => ?_⟩
    rw [hfields.overrideObserved, hsome] at hlive
    exact live_of_receiptTime hlive

/-- The other sections of callbacks are calm. -/
theorem calm_of_commit {r : NativeScalars} {c : Client} {retained : Bool} {now : Time}
    {sec : Section} {res : Client × Bool} (hctl : ∀ override data, sec ≠ .controller override data)
    (h : sec.commit r c retained now = some res) : Calm c res.1 := by
  cases sec with
  | controller override data => exact absurd rfl (hctl override data)
  | portal p =>
    simp only [Section.commit] at h
    split_ifs at h
    · exact Option.some.inj h ▸ Calm.refl c
    · obtain rfl := Option.some.inj h
      exact ⟨rfl, rfl, rfl, fun h _ => ⟨h, rfl⟩⟩
  | platform u => exact Option.some.inj h ▸ (c.commitPlatform_frame r u).calm
  | alarm parts payload => exact Option.some.inj h ▸ (c.commitAlarm_frame r parts payload).calm
  | notification n => exact Option.some.inj h ▸ (c.commitNotification_frame n).calm
  | device parts payload =>
    have ht := Fenced.commit_sameTransport h
    obtain ⟨⟨c₁, changed⟩, hc₁, rfl⟩ := Option.map_eq_some_iff.mp h
    obtain ⟨c₂, changed₂, hc₂, hspec⟩ := c.handleCerboDevice_spec parts payload now
    obtain ⟨rfl, rfl⟩ := Prod.mk.inj (Option.some.inj (hc₂.symm.trans hc₁))
    have hframe := Client.DeviceHandled.frame hspec
    have hdir : ∀ g ∈ [Field.setpointOverride, .setpointOverrideObservedAt],
        g ∉ directFields ∧ g ≠ .telemetryAvailable := by decide
    refine Calm.of_field ht ?_ fun f hf => hframe.field f (hdir f hf).1 (hdir f hf).2
    show c₂.overrideReceipt = c.overrideReceipt
    rcases hspec with ⟨-, rfl | rfl⟩ | ⟨-, c₀, hst, hov⟩
    · rfl
    · exact c.initCerboMaps_calm.serial
    · rw [hov.frame, hst.frame]

/-! ## What a published call knows -/

/-- The latest frame with a status, and it is behind the publication of the call `k`. -/
def LatestFrame (log : List LogEntry) (k : ℕ) (retained : Bool)
    (status : Option SetpointOverrideStatus) : Prop :=
  ∃ newer older, log = newer ++ .frame retained status :: older ∧
    (∀ e ∈ newer, ∃ j, e = .published j) ∧ .published k ∈ older

theorem LatestFrame.published {log : List LogEntry} {k : ℕ} {retained : Bool}
    {status : Option SetpointOverrideStatus} (h : LatestFrame log k retained status) (j : ℕ) :
    LatestFrame (.published j :: log) k retained status := by
  obtain ⟨newer, older, rfl, hnewer, hk⟩ := h
  refine ⟨.published j :: newer, older, rfl, fun e he => ?_, hk⟩
  rcases List.mem_cons.mp he with rfl | he
  · exact ⟨j, rfl⟩
  · exact hnewer e he

/-- While its generation lasts, the gateway mode is off, and a serial behind the one of the
publication stands for a frame behind it, whose status is the current one if that has a receipt. -/
def Pursues (c : Client) (log : List LogEntry) (k generation receipt : ℕ) : Prop :=
  generation = c.pushGeneration → c.gatewayMode = false ∧
    (receipt < c.overrideReceipt → ∃ retained status, LatestFrame log k retained status ∧
      ((c.state.field .setpointOverrideObservedAt).isSome = true →
        (c.state.field .setpointOverride).isSome = true →
        retained = false ∧ c.state.field .setpointOverride = status))

theorem Pursues.of_moves {c c' : Client} {log : List LogEntry} {k generation receipt : ℕ}
    (h : Pursues c log k generation receipt) (hle : generation ≤ c.pushGeneration)
    (hm : Moves c c') : Pursues c' log k generation receipt := by
  intro hgen
  rcases hm with hcalm | hlt
  · obtain ⟨hmode, hframe⟩ := h (hgen.trans hcalm.generation)
    refine ⟨hcalm.gateway.trans hmode, fun hlt => ?_⟩
    obtain ⟨retained, status, hl, hst⟩ := hframe (hcalm.serial ▸ hlt)
    refine ⟨retained, status, hl, fun hobs hover => ?_⟩
    obtain ⟨hobs', heq⟩ := hcalm.status hobs hover
    rw [heq] at hover ⊢
    exact hst hobs' hover
  · omega

theorem Pursues.of_framed {c c' : Client} {log : List LogEntry} {k generation receipt : ℕ}
    {retained : Bool} {status : Option SetpointOverrideStatus}
    (h : Pursues c log k generation receipt) (hk : .published k ∈ log)
    (hf : Framed c retained status c') :
    Pursues c' (.frame retained status :: log) k generation receipt := by
  intro hgen
  obtain ⟨hmode, -⟩ := h (hgen.trans hf.generation)
  refine ⟨hf.gateway.trans hmode, fun _ => ⟨retained, status, ?_, fun hobs _ => ?_⟩⟩
  · exact ⟨[], log, rfl, fun e he => absurd he List.not_mem_nil, hk⟩
  · exact ⟨hf.live hobs, hf.status⟩

theorem Pursues.published {c : Client} {log : List LogEntry} {k generation receipt : ℕ}
    (h : Pursues c log k generation receipt) (j : ℕ) :
    Pursues c (.published j :: log) k generation receipt := by
  intro hgen
  obtain ⟨hmode, hframe⟩ := h hgen
  refine ⟨hmode, fun hlt => ?_⟩
  obtain ⟨retained, status, hl, hst⟩ := hframe hlt
  exact ⟨retained, status, hl.published j, hst⟩

/-- What holds of the call `k`. -/
structure CallInv (c : Client) (log : List LogEntry) (k : ℕ) (t : OverrideCall) : Prop where
  valid : validateOverride t.payload = true
  generation : t.call.generation ≤ c.pushGeneration
  staged : t.pc = .staged → .published k ∉ log
  published : ∀ receipt, t.receipt = some receipt →
    log.count (.published k) = 1 ∧ Pursues c log k t.call.generation receipt

theorem CallInv.of_moves {c c' : Client} {log : List LogEntry} {k : ℕ} {t : OverrideCall}
    (h : CallInv c log k t) (hm : Moves c c') : CallInv c' log k t := by
  refine ⟨h.valid, ?_, h.staged, fun receipt hr => ?_⟩
  · have hle := h.generation
    rcases hm with hcalm | hlt
    · exact hcalm.generation ▸ hle
    · omega
  · obtain ⟨hcount, hp⟩ := h.published receipt hr
    exact ⟨hcount, hp.of_moves h.generation hm⟩

theorem CallInv.of_framed {c c' : Client} {log : List LogEntry} {k : ℕ} {t : OverrideCall}
    {retained : Bool} {status : Option SetpointOverrideStatus} (h : CallInv c log k t)
    (hf : Framed c retained status c') : CallInv c' (.frame retained status :: log) k t := by
  refine ⟨h.valid, hf.generation ▸ h.generation, fun hst => ?_, fun receipt hr => ?_⟩
  · simpa using h.staged hst
  · obtain ⟨hcount, hp⟩ := h.published receipt hr
    have hmem : .published k ∈ log := List.count_pos_iff.mp (by omega)
    exact ⟨by simpa using hcount, hp.of_framed hmem hf⟩

/-- Another call publishes. -/
theorem CallInv.of_published {c : Client} {log : List LogEntry} {j k : ℕ} {t : OverrideCall}
    (hjk : j ≠ k) (h : CallInv c log k t) : CallInv c (.published j :: log) k t := by
  refine ⟨h.valid, h.generation, fun hst => ?_, fun receipt hr => ?_⟩
  · simpa [Ne.symm hjk] using h.staged hst
  · obtain ⟨hcount, hp⟩ := h.published receipt hr
    refine ⟨?_, hp.published j⟩
    rw [List.count_cons_of_ne (by simpa using hjk)]
    exact hcount

namespace Acking

/-- What holds of every call, and of the calls to come. -/
structure Inv (s : Acking) : Prop where
  fresh : ∀ k, s.calls.length ≤ k → .published k ∉ s.log
  calls : ∀ k t, s.calls[k]? = some t → CallInv s.client s.log k t

theorem inv_of_init {s : Acking} (h : s.Init) : s.Inv := by
  obtain ⟨-, hcalls, hlog⟩ := h
  refine ⟨fun k _ => by simp [hlog], fun k t ht => ?_⟩
  rw [hcalls] at ht
  cases ht

theorem Inv.of_moves {s : Acking} (h : s.Inv) {c : Client} (hm : Moves s.client c) (now : Time) :
    Inv { s with client := c, now := now } :=
  ⟨h.fresh, fun k t ht => (h.calls k t ht).of_moves hm⟩

/-- One call goes on. -/
theorem Inv.of_call {s : Acking} (h : s.Inv) {k : ℕ} {t t' : OverrideCall}
    (ht : s.calls[k]? = some t) {c : Client} (hm : Moves s.client c)
    (hc : CallInv c s.log k t') : Inv ({ s with client := c }.setCall k t') := by
  obtain ⟨hk, -⟩ := List.getElem?_eq_some_iff.mp ht
  refine ⟨fun j hj => h.fresh j (by simpa [setCall] using hj), fun j u hu => ?_⟩
  replace hu : (s.calls.set k t')[j]? = some u := hu
  by_cases hjk : j = k
  · subst hjk
    rw [List.getElem?_set_self hk] at hu
    exact Option.some.inj hu ▸ hc
  · rw [List.getElem?_set_ne (Ne.symm hjk)] at hu
    exact (h.calls j u hu).of_moves hm

/-- One call publishes. -/
theorem Inv.of_published {s : Acking} (h : s.Inv) {k : ℕ} {t t' : OverrideCall}
    (ht : s.calls[k]? = some t) (hc : CallInv s.client (.published k :: s.log) k t') :
    Inv ({ s with log := .published k :: s.log }.setCall k t') := by
  obtain ⟨hk, -⟩ := List.getElem?_eq_some_iff.mp ht
  refine ⟨fun j hj => ?_, fun j u hu => ?_⟩
  · have hj : s.calls.length ≤ j := by simpa [setCall] using hj
    show LogEntry.published j ∉ .published k :: s.log
    have hjk : j ≠ k := by omega
    simpa [hjk] using h.fresh j hj
  · replace hu : (s.calls.set k t')[j]? = some u := hu
    by_cases hjk : j = k
    · subst hjk
      rw [List.getElem?_set_self hk] at hu
      exact Option.some.inj hu ▸ hc
    · rw [List.getElem?_set_ne (Ne.symm hjk)] at hu
      exact (h.calls j u hu).of_published (Ne.symm hjk)

/-- A stage of a call carries no frame, and a generation it captures is the current one. -/
theorem calm_advance {t t' : CommandCall} {c c' : Client} {now : Time} {rest : List Stage}
    {stage : Stage} (h : t.advance c now rest stage = some (c', t')) :
    Calm c c' ∧ t'.command = t.command ∧
      (t'.generation = t.generation ∨ t'.generation = c.pushGeneration) := by
  cases stage with
  | permission =>
    obtain ⟨res, hres, heq⟩ := Option.map_eq_some_iff.mp h
    obtain ⟨rfl, rfl⟩ := Prod.mk.inj heq
    refine ⟨?_, rfl, Or.inl rfl⟩
    unfold CommandCall.permits at hres
    split at hres
    · exact Option.some.inj hres ▸ Calm.refl c
    · obtain ⟨c₁, hc₁, rfl⟩ := Option.map_eq_some_iff.mp hres
      exact Client.calm_of_expire hc₁
    · obtain ⟨c₁, hc₁, rfl⟩ := Option.map_eq_some_iff.mp hres
      exact Client.calm_of_expire hc₁
    · exact Option.some.inj hres ▸ Calm.refl c
  | captureGeneration =>
    obtain ⟨rfl, rfl⟩ := Prod.mk.inj (Option.some.inj h)
    exact ⟨Calm.refl c, rfl, Or.inr rfl⟩
  | _ =>
    obtain ⟨rfl, rfl⟩ := Prod.mk.inj (Option.some.inj h)
    exact ⟨Calm.refl c, rfl, Or.inl rfl⟩

/-- A call that has returned, or goes on waiting with the same serial, keeps what it knows. -/
theorem callInv_of_pc {c : Client} {log : List LogEntry} {k : ℕ} {t : OverrideCall}
    (h : CallInv c log k t) {pc : OverridePC} (hstaged : pc ≠ .staged)
    (hpc : ∀ receipt, OverrideCall.receipt { t with pc } = some receipt →
      t.receipt = some receipt) : CallInv c log k { t with pc } :=
  ⟨h.valid, h.generation, fun hst => absurd hst hstaged,
    fun receipt hr => h.published receipt (hpc receipt hr)⟩

/-- **Step of a call.** -/
theorem inv_stepCall {s s' : Acking} {k : ℕ} {token : Option Bool} {t : OverrideCall} (h : s.Inv)
    (ht : s.calls[k]? = some t) (hs : s.stepCall k token t = some s') : s'.Inv := by
  have hinv := h.calls k t ht
  have hrefl : Moves s.client s.client := Or.inl (Calm.refl s.client)
  obtain ⟨call, deadline, pc⟩ := t
  cases pc with
  | staged =>
    have hno := hinv.staged rfl
    simp only [stepCall] at hs
    split at hs
    · obtain rfl := Option.some.inj hs
      exact h.of_call ht hrefl (callInv_of_pc hinv (by simp) fun receipt hr => by cases hr)
    · obtain rfl := Option.some.inj hs
      split_ifs with hpub
      · refine h.of_published ht ⟨hinv.valid, hinv.generation, fun hst => ?_, fun receipt hr => ?_⟩
        · simp [OverrideCall.dispatch, hpub] at hst
        · simp only [OverrideCall.dispatch, hpub, if_true, OverrideCall.receipt,
            Option.some.injEq] at hr
          subst hr
          refine ⟨?_, fun _ => ⟨?_, fun hlt => absurd hlt (lt_irrefl _)⟩⟩
          · rw [List.count_cons_self, List.count_eq_zero_of_not_mem hno]
          · simp only [CommandCall.publishes, Client.dispatches, Bool.and_eq_true,
              Bool.not_eq_true'] at hpub
            exact hpub.1.1.1.2
      · have hpc : OverrideCall.dispatch { call, deadline, pc := .staged } s.client s.now ∈
            [OverridePC.delegated, .failed] := by
          unfold OverrideCall.dispatch
          rw [if_neg hpub]
          split_ifs <;> simp
        refine h.of_call ht hrefl (callInv_of_pc hinv ?_ ?_)
        · rcases List.mem_pair.mp hpc with heq | heq <;> rw [heq] <;> simp
        · intro receipt hr
          rcases List.mem_pair.mp hpc with heq | heq <;> rw [heq] at hr <;> cases hr
    · obtain ⟨⟨c, call'⟩, hc, rfl⟩ := Option.map_eq_some_iff.mp hs
      obtain ⟨hcalm, hcmd, hgen⟩ := calm_advance hc
      refine h.of_call ht (Or.inl hcalm) ⟨?_, ?_, fun _ => hno, fun receipt hr => by cases hr⟩
      · have hvalid := hinv.valid
        unfold OverrideCall.payload at hvalid ⊢
        dsimp only at hvalid ⊢
        rw [hcmd]
        exact hvalid
      · rw [hcalm.generation]
        rcases hgen with hgen | hgen
        · exact hgen ▸ hinv.generation
        · exact hgen.le
  | awaiting receipt =>
    obtain rfl := Option.some.inj hs
    refine h.of_call ht hrefl (callInv_of_pc hinv ?_ ?_)
    · unfold OverrideCall.await
      split_ifs
      · simp
      · split <;> simp
    · intro receipt' hr
      unfold OverrideCall.await at hr
      split_ifs at hr
      · cases hr
      · split at hr <;> first | exact hr | cases hr
  | polling receipt =>
    obtain rfl := Option.some.inj hs
    refine h.of_call ht hrefl (callInv_of_pc hinv ?_ ?_)
    · unfold OverrideCall.poll
      split_ifs
      · simp
      · simp
      · simp
      · split <;> simp
    · intro receipt' hr
      unfold OverrideCall.poll at hr
      split_ifs at hr
      · cases hr
      · cases hr
      · exact hr
      · split at hr <;> first | exact hr | cases hr
  | acknowledged => cases hs
  | failed => cases hs
  | delegated => cases hs

/-- **Step.** Every event without a forged override keeps the invariant. -/
theorem inv_step {r : NativeScalars} {s s' : Acking} {e : AckingEvent} (h : s.Inv)
    (hok : s.Genuine e) (hs : s.step r e = some s') : s'.Inv := by
  cases e with
  | side e =>
    by_cases hticks : ∃ ms, e = .tick ms
    · obtain ⟨ms, rfl⟩ := hticks
      obtain rfl := Option.some.inj hs
      exact h.of_moves (Or.inl (Calm.refl _)) (s.now + ms)
    · by_cases happly : ∃ st, e = .apply st
      · obtain ⟨st, rfl⟩ := happly
        cases hs
      · have hmap : (if e.isCallback then none else
            (Fed.next r s.client s.now e).map fun c => { s with client := c }) = some s' := by
          cases e <;> first | exact hs | exact absurd ⟨_, rfl⟩ hticks | exact absurd ⟨_, rfl⟩ happly
        split_ifs at hmap with hcall
        obtain ⟨c, hc, rfl⟩ := Option.map_eq_some_iff.mp hmap
        have hm := moves_next (by simpa using hcall) (fun st heq => happly ⟨st, heq⟩) hc
        exact h.of_moves hm s.now
  | commit sec retained generation session =>
    simp only [step] at hs
    split_ifs at hs
    obtain ⟨res, hres, rfl⟩ := Option.map_eq_some_iff.mp hs
    by_cases hctl : ∃ override data, sec = .controller override data
    · obtain ⟨override, data, rfl⟩ := hctl
      obtain ⟨c, hc, rfl⟩ := Option.map_eq_some_iff.mp hres
      cases hst : Client.carriedStatus data with
      | none =>
        simp only [Section.status, hst, Option.map_none, Option.toList_none, List.nil_append]
        have hgenuine : override = false → Unforged s.client data := by
          rintro rfl
          exact hok
        exact h.of_moves (Or.inl (calm_of_controller hst hgenuine hc)) s.now
      | some status =>
        simp only [Section.status, hst, Option.map_some, Option.toList_some, List.singleton_append]
        have hf := framed_of_controller hst hc
        refine ⟨fun k hk => ?_, fun k t ht => (h.calls k t ht).of_framed hf⟩
        simpa using h.fresh k hk
    · have hnone : sec.status = none := by
        cases sec with
        | controller override data => exact absurd ⟨override, data, rfl⟩ hctl
        | _ => rfl
      simp only [hnone, Option.map_none, Option.toList_none, List.nil_append]
      have hcalm := calm_of_commit (fun o d heq => hctl ⟨o, d, heq⟩) hres
      exact h.of_moves (Or.inl hcalm) s.now
  | switch sec =>
    obtain ⟨c, hc, rfl⟩ := Option.map_eq_some_iff.mp hs
    exact h.of_moves (moves_switched hc) s.now
  | apply st =>
    simp only [step] at hs
    split_ifs at hs with hmode
    obtain rfl := Option.some.inj hs
    have ht := Fenced.applyState_sameTransport s.client st s.now
    refine ⟨h.fresh, fun k t hk => ?_⟩
    have hinv := h.calls k t hk
    refine ⟨hinv.valid, ht.generation ▸ hinv.generation, hinv.staged, fun receipt hr => ?_⟩
    obtain ⟨hcount, hp⟩ := hinv.published receipt hr
    refine ⟨hcount, fun hgen => ?_⟩
    -- A published call of this generation would have found the gateway mode off.
    obtain ⟨hoff, -⟩ := hp (hgen.trans ht.generation)
    rw [hmode] at hoff
    cases hoff
  | publisher present =>
    obtain rfl := Option.some.inj hs
    have hm : Moves s.client { s.client with gatewayPublish := present } :=
      Or.inl ⟨rfl, rfl, rfl, fun h _ => ⟨h, rfl⟩⟩
    exact h.of_moves hm s.now
  | request payload =>
    simp only [step] at hs
    split_ifs at hs with hvalid
    obtain rfl := Option.some.inj hs
    refine ⟨fun k hk => h.fresh k ?_, fun k t ht => ?_⟩
    · simp only [List.length_append, List.length_singleton] at hk
      omega
    · rcases Nat.lt_or_ge k s.calls.length with hlt | hge
      · rw [List.getElem?_append_left hlt] at ht
        exact h.calls k t ht
      · rw [List.getElem?_append_right hge, List.getElem?_singleton] at ht
        split_ifs at ht
        obtain rfl := Option.some.inj ht
        exact ⟨hvalid, Nat.zero_le _, fun _ => h.fresh k hge, fun receipt hr => by cases hr⟩
  | calling k token =>
    obtain ⟨t, ht, hs⟩ := Option.bind_eq_some_iff.mp hs
    exact inv_stepCall h ht hs

/-! ## The acknowledgement -/

/-- What `overrideAcknowledged` confirms. -/
theorem confirmed_iff {status : Option SetpointOverrideStatus} {payload : Any} :
    overrideAcknowledged status payload = .confirmed ↔ ∃ s, status = some s ∧
      s.requestID.isSome = true ∧
      s.requestID = (entry (payload.object?.getD []) "request_id").bind Any.string? ∧
      s.lastError = none ∧
      ((entry (payload.object?.getD []) "value").bind int32Value).getD none = s.value := by
  unfold overrideAcknowledged
  cases status with
  | none => simp
  | some s =>
    dsimp only
    constructor
    · intro h
      split_ifs at h with h₁ h₂ h₃
      obtain ⟨hid, heq⟩ := not_or.mp h₁
      exact ⟨s, rfl, by simpa [Option.isSome_iff_ne_none] using hid, not_not.mp heq,
        by simpa using h₂, h₃⟩
    · rintro ⟨s', hs', hid, heq, herr, hval⟩
      obtain rfl := Option.some.inj hs'
      have h₁ : ¬(s.requestID.isNone = true ∨ ¬s.requestID =
          (entry (payload.object?.getD []) "request_id").bind Any.string?) := by
        rw [not_or, not_not]
        exact ⟨by simpa [Option.isSome_iff_ne_none] using hid, heq⟩
      rw [if_neg h₁, herr, if_neg (by simp), if_pos hval]

/-- The value of a valid override is there. -/
theorem value_of_valid {payload : Any} (h : validateOverride payload = true) :
    ∃ v, (entry (payload.object?.getD []) "value").bind int32Value = some v := by
  unfold validateOverride at h
  split at h
  · cases h
  · rename_i m hm
    simp only [Bool.and_eq_true] at h
    rw [hm]
    exact Option.isSome_iff_exists.mp h.1.2

/-- A step in which a call returns nil is a poll that was confirmed. -/
theorem confirmed_of_step {s s' : Acking} {k : ℕ} {token : Option Bool} {t : OverrideCall}
    (ht : s.calls[k]? = some t) (hs : s.stepCall k token t = some s')
    (hack : (s'.calls[k]?).any (fun t => decide (t.pc = .acknowledged)) = true) :
    ∃ receipt, t.pc = .polling receipt ∧ t.poll s.client s.now receipt = .acknowledged := by
  obtain ⟨hk, -⟩ := List.getElem?_eq_some_iff.mp ht
  have hset : ∀ {s₁ : Acking} {t' : OverrideCall}, s' = s₁.setCall k t' → s₁.calls = s.calls →
      t'.pc = .acknowledged := by
    rintro s₁ t' rfl hcalls
    replace hack : ((s₁.calls.set k t')[k]?).any (fun t => decide (t.pc = .acknowledged)) = true :=
      hack
    rw [hcalls, List.getElem?_set_self hk] at hack
    simpa using hack
  unfold stepCall at hs
  split at hs
  · rename_i hpc
    split at hs
    · have heq := hset (Option.some.inj hs).symm rfl
      cases heq
    · have heq := hset (Option.some.inj hs).symm rfl
      dsimp only [OverrideCall.dispatch] at heq
      split_ifs at heq
    · obtain ⟨res, -, heq⟩ := Option.map_eq_some_iff.mp hs
      have heq := hset heq.symm rfl
      rw [hpc] at heq
      cases heq
  · have heq := hset (Option.some.inj hs).symm rfl
    dsimp only [OverrideCall.await] at heq
    split_ifs at heq
    split at heq <;> cases heq
  · rename_i receipt hpc
    exact ⟨receipt, hpc, hset (Option.some.inj hs).symm rfl⟩
  all_goals cases hs

/-- A call that returns nil has published exactly once, and at the instant of its last poll, before
its deadline, with current tokens and outside of the gateway mode, the current status was installed
by a live frame behind the publication, with the request, the value and no error.

**Proof sketch.** A serial behind that of the publication stands for a frame behind it. The status
has a receipt, so it is the status of the latest such frame, and that frame was live. -/
theorem acknowledged_of_reachable (r : NativeScalars) {s s' : Acking}
    (h : Transition.Reachable (Acking.step r) Acking.Genuine Acking.Init s) {k : ℕ}
    {token : Option Bool} {t : OverrideCall} (ht : s.calls[k]? = some t)
    (hs : s.step r (.calling k token) = some s')
    (hack : (s'.calls[k]?).any (fun t => decide (t.pc = .acknowledged)) = true) :
    s.log.count (.published k) = 1 ∧ s.now < t.deadline ∧
      t.call.generation = s.client.pushGeneration ∧ t.call.session = s.client.mqttSession ∧
      s.client.gatewayMode = false ∧
      ∃ status, s.client.state.field .setpointOverride = some status ∧
        LatestFrame s.log k false (some status) ∧ status.requestID.isSome = true ∧
        status.requestID = (entry (t.payload.object?.getD []) "request_id").bind Any.string? ∧
        status.lastError = none ∧
        (entry (t.payload.object?.getD []) "value").bind int32Value = some status.value := by
  have hinv : s.Inv := h.invariant (fun _ hs => inv_of_init hs) fun _ _ _ hi hok hs =>
    inv_step hi hok hs
  obtain ⟨t', ht', hs⟩ := Option.bind_eq_some_iff.mp hs
  obtain rfl := Option.some.inj (ht.symm.trans ht')
  obtain ⟨receipt, hpc, hpoll⟩ := confirmed_of_step ht hs hack
  have hcall := hinv.calls k t ht
  obtain ⟨hcount, hpursues⟩ := hcall.published receipt (by rw [OverrideCall.receipt, hpc])
  -- Every guard of the poll was passed.
  unfold OverrideCall.poll at hpoll
  split_ifs at hpoll with hdead hguard hserial
  simp only [OverrideCall.current, Bool.or_eq_true, Bool.not_eq_true', Bool.and_eq_false_iff,
    beq_eq_false_iff_ne, not_or, not_not, Bool.not_eq_true, Bool.not_eq_false] at hguard
  obtain ⟨⟨⟨hmode, hgen, hsess⟩, -⟩, hready⟩ := hguard
  simp only [controllerCommandReady, Bool.and_eq_true] at hready
  obtain ⟨-, hsome, hfresh⟩ := hready
  have hobs : (s.client.state.field .setpointOverrideObservedAt).isSome = true := by
    cases hx : s.client.state.field .setpointOverrideObservedAt with
    | none => rw [hx] at hfresh; cases hfresh
    | some x => rfl
  have hconf : overrideAcknowledged (s.client.state.field .setpointOverride) t.payload =
      .confirmed := by
    cases hack' : overrideAcknowledged (s.client.state.field .setpointOverride) t.payload with
    | confirmed => rfl
    | rejected => rw [hack'] at hpoll; cases hpoll
    | pending => rw [hack'] at hpoll; cases hpoll
  obtain ⟨status, hstatus, hid, hreq, herr, hval⟩ := confirmed_iff.mp hconf
  obtain ⟨retained, status', hlatest, hsame⟩ := (hpursues hgen.symm).2 (by omega)
  obtain ⟨rfl, heq⟩ := hsame hobs hsome
  obtain ⟨v, hv⟩ := value_of_valid hcall.valid
  rw [hv, Option.getD_some] at hval
  refine ⟨hcount, not_le.mp hdead, hgen.symm, hsess.symm, hmode, status, hstatus, ?_, hid, hreq,
    herr, hval ▸ hv⟩
  rw [← hstatus, heq]
  exact hlatest

/-! ## Two runs -/

/-- A new client without calls. -/
def idle : Acking := ⟨newClient {}, 5000, [], []⟩

theorem init_idle : idle.Init := ⟨⟨{}, rfl⟩, rfl, rfl⟩

/-- The status of the request `id`. -/
def statusFrame (id : String) : Frame :=
  [("setpoint_override",
    .object [("value", .nil), ("last_error", .nil), ("request_id", .string id)])]

/-- An override is requested after a live status, published, and taken by the broker. -/
def requested : List AckingEvent :=
  [.side (.connection true true), .commit (.controller false (statusFrame "r0")) false 0 0,
    .request (.object [("value", .nil), ("request_id", .string "r1")])] ++
    List.replicate 7 (.calling 0 none) ++ [.calling 0 (some true)]

instance (c : Client) (data : Frame) : Decidable (Unforged c data) :=
  inferInstanceAs (Decidable (_ → _ ∧ _))

instance (s : Acking) (e : AckingEvent) : Decidable (s.Genuine e) :=
  match e with
  | .commit (.controller false data) .. => inferInstanceAs (Decidable (Unforged s.client data))
  | .commit (.controller true _) .. | .commit (.portal _) .. | .commit (.platform _) ..
  | .commit (.alarm ..) .. | .commit (.device ..) .. | .commit (.notification _) .. | .side _
  | .switch _ | .apply _ | .publisher _ | .request _ | .calling .. => isTrue trivial

/-- The next poll of the first call returns nil. -/
def acknowledges (r : NativeScalars) (s : Acking) : Bool :=
  s.calls[0]?.isSome && (s.step r (.calling 0 none)).any fun s' =>
    (s'.calls[0]?).any fun t => decide (t.pc = .acknowledged)

theorem acknowledged_of_reachable_requested : ∃ s t,
    Transition.Reachable (Acking.step Lan.noScalars) Acking.Genuine Acking.Init s ∧
      s.calls[0]? = some t ∧ acknowledges Lan.noScalars s = true ∧
      ∃ status, s.client.state.field .setpointOverride = some status ∧
        LatestFrame s.log 0 false (some status) := by
  obtain ⟨s, hs, hp⟩ := Transition.Reachable.exists_of_run (Acking.step Lan.noScalars)
    Acking.Genuine (requested ++ [.commit (.controller true (statusFrame "r1")) false 0 0])
    (acknowledges Lan.noScalars) init_idle (by decide +kernel) (by decide +kernel)
  obtain ⟨ht, hack⟩ := Bool.and_eq_true_iff.mp hp
  obtain ⟨t, ht⟩ := Option.isSome_iff_exists.mp ht
  obtain ⟨s', hs', hack⟩ := (Option.any_eq_true _ _).mp hack
  obtain ⟨-, -, -, -, -, status, hst, hlatest, -⟩ :=
    acknowledged_of_reachable Lan.noScalars hs ht hs' hack
  exact ⟨s, t, hs, ht, hp, status, hst, hlatest⟩

/-- The broker replays a retained status, and a frame spells the name of its receipt in upper
case. -/
def replayed : List AckingEvent :=
  requested ++ [.commit (.controller true (statusFrame "r1")) true 0 0,
    .commit (.controller false [("SETPOINT_OVERRIDE_OBSERVED_AT", .float64 (.fin 5))]) false 0 0]

/-- The last entries are a replayed frame behind the publication of the first call. -/
def replayedLast : List LogEntry → Bool
  | .frame true _ :: .published 0 :: _ => true
  | _ => false

theorem eq_of_replayedLast {log : List LogEntry} (h : replayedLast log = true) :
    ∃ status older, log = [.frame true status, .published 0] ++ older := by
  unfold replayedLast at h
  split at h
  · rename_i status older
    exact ⟨status, older, rfl⟩
  · cases h

/-- A call returns nil although no live frame with a status was applied behind its publication. -/
theorem acknowledged_by_replay : ∃ s,
    Transition.Reachable (Acking.step Lan.noScalars) (fun _ _ => True) Acking.Init s ∧
      acknowledges Lan.noScalars s = true ∧
      ∃ status older, s.log = [.frame true status, .published 0] ++ older := by
  obtain ⟨s, hs, hp⟩ := Transition.Reachable.exists_of_run (Acking.step Lan.noScalars)
    (fun _ _ => True) replayed
    (fun s => acknowledges Lan.noScalars s && replayedLast s.log) init_idle
    (Transition.Allowed.of_forall (fun _ _ => trivial) idle) (by decide +kernel)
  obtain ⟨hack, hlog⟩ := Bool.and_eq_true_iff.mp hp
  exact ⟨s, hs, hack, eq_of_replayedLast hlog⟩

end Acking

end Dashboard
