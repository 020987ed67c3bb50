import InverterDashboard.Mqtt.Device

set_option relaxedAutoImplicit false
set_option autoImplicit false

/-!
# Sessions, sources and commands

The critical sections of the connection handlers (`Subscribe`, the connection-lost handler), of the
source switch (`EnableGatewayMode`, `DisableGatewayMode`, `ApplyState`) and of the command paths
(`PublishCommand`, `publishControllerCommand`, `SetWaterMode`).

## Main definitions

* `Dashboard.Client.advanceMQTTSession`, `resetMQTTPush`, `invalidateCerbo`, `connectionLost`.
* `Dashboard.Client.subscribeOverlay`, `subscribe` — the sections of `Subscribe`.
* `Dashboard.Client.enableGateway`, `disableGateway`, `clearSource` — the switch.
* `Dashboard.Client.applyState` — a gateway snapshot.
* `Dashboard.Command`, `Client.commandReady`, `Client.dispatches` — the final check of a command.
-/

namespace Dashboard

open Go

namespace Client

/-! ## Sessions -/

/-- `resetPush`. -/
def resetPush (c : Client) (source : PushSource) : Client :=
  { c with pushGeneration := c.pushGeneration + 1, pushSource := some source }

/-- `advanceMQTTSession`: banners of the retired session go, unless the gateway owns them. -/
def advanceMQTTSession (c : Client) : Client :=
  { c with mqttSession := c.mqttSession + 1 }.resetNativeNotifications !c.gatewayMode

/-- `resetMQTTPush`. -/
def resetMQTTPush (c : Client) : Client := if c.gatewayMode then c else c.resetPush .mqtt

/-- `stopKeepalive`. -/
def stopKeepalive (c : Client) : Client := { c with keepaliveStop := false }

/-- `publishKeepalive(false)`: `sent` is whether the broker took the message. -/
def publishKeepalive (c : Client) (sent : Bool) : Client :=
  if c.portalID ≠ "" ∧ c.connectionOpen then { c with keepaliveNeedsRefresh := !sent } else c

/-- `startKeepalive`. -/
def startKeepalive (c : Client) (sent : Bool) : Client :=
  { c.stopKeepalive with keepaliveStop := true, keepaliveNeedsRefresh := true }.publishKeepalive
    sent

/-- The state section of `invalidateCerbo`. -/
def invalidateState (c : Client) : Option Client := do
  let c := { c.initCerboMaps with cerboLeaves := ∅, nativeLastSeen := none }
  let st ← applyControllerSnapshot c.state []
  let st ← st.clearAll false directFields
  return { c with state := st, lastStateTime := none }

/-- `invalidateCerbo`. -/
def invalidateCerbo (c : Client) : Option Client := c.resetMQTTPush.invalidateState

/-- The connection-lost handler, run to completion. -/
def connectionLost (c : Client) : Option Client :=
  { c.advanceMQTTSession.stopKeepalive with connectionOpen := false }.invalidateCerbo

/-- The state section of `Subscribe`: a clean session needs a fresh inventory. -/
def subscribeOverlay (c : Client) : Option Client :=
  { c with cerboLeaves := ∅ }.applyCerboOverlays

/-- What the broker answers to the requests of a `Subscribe` call. -/
structure SubscribeOutcome where
  /-- Every native filter and the camera topic were granted. -/
  granted : Bool
  /-- The first keepalive was sent. -/
  sent : Bool

/-- Whether `Subscribe` gets past its checks. -/
def canSubscribe (c : Client) : Bool :=
  c.connectionOpen && (c.portalID == "" || validPortal c.portalID)

/-- `Subscribe`, run to completion, with whether it returned nil. -/
def subscribe (c : Client) (o : SubscribeOutcome) : Option (Client × Bool) :=
  let c := { c with subscriptionsEnabled := true }
  if !c.canSubscribe then some (c, false)
  else do
    let c ← c.advanceMQTTSession.resetMQTTPush.subscribeOverlay
    return if o.granted then (c.startKeepalive o.sent, true) else (c, false)

/-! ## Sources -/

/-- The first section of `EnableGatewayMode`. -/
def enableGateway (c : Client) : Client :=
  ({ c with gatewayMode := true }.resetPush .gateway).resetNativeNotifications true

/-- The first section of `DisableGatewayMode`. -/
def disableGateway (c : Client) : Client :=
  { ({ c with gatewayMode := false }.resetPush .mqtt).resetNativeNotifications true with
    gatewayConnected := false }

/-- The second section of both. -/
def clearSource (c : Client) : Option Client := do
  let c ← { c with nativeLastSeen := none }.clearOptionalTelemetry
  return { c with waterModeObserved := fun _ => none }

/-- `SetGatewayConnected`. -/
def setGatewayConnected (c : Client) (v : Bool) : Option Client :=
  let changed := c.gatewayConnected != v
  let c := { c with gatewayConnected := v }
  if changed then
    let c := if c.gatewayMode then c.resetPush .gateway else c
    if v then some c else c.clearOptionalTelemetry
  else some c

end Client

/-- `reflect.Value.IsZero` of the daily statistics. -/
def DailyStats.isZero (d : DailyStats) : Bool :=
  d.gridEnergy.isNil &&
    [d.solarKWh, d.solarMoney, d.gridKWh, d.gridMoney, d.battInKWh, d.battOutKWh, d.battNetKWh,
      d.producedYesterday, d.producedToday, d.producedDollars, d.batteryIn, d.batteryOut,
      d.batteryInYesterday, d.batteryOutYesterday, d.pvTotalDaily].all (fun x => x == 0) &&
    [d.pvInverterDaily, d.pvInverterYesterday, d.mpptYesterday, d.mpptDaily].all GoSlice.isNil

namespace State

/-- A member taken over from the previous state when the condition holds. -/
def inherit (st prev : State) (cond : Bool) (fs : List Field) : State :=
  if cond then fs.foldl (fun st f => st.set f (prev.field f)) st else st

/-- A member that is taken over has the previous value, every other one its own. -/
theorem inherit_field (st prev : State) (cond : Bool) (fs : List Field) (f : Field) :
    (st.inherit prev cond fs).field f =
      if cond = true ∧ f ∈ fs then prev.field f else st.field f := by
  unfold inherit
  cases cond with
  | false => simp
  | true =>
    simp only [if_true, true_and]
    induction fs generalizing st with
    | nil => simp
    | cons g fs ih =>
      rw [List.foldl_cons, ih]
      by_cases hgf : f = g
      · subst hgf
        simp
      · simp [hgf]

/-- What `ApplyState` keeps of the previous state when a snapshot omits it. -/
def preserve (st prev : State) : State :=
  let omitted := (st.field .inverterAvailable).isNone
  let st := st.inherit prev (st.field .version == "") [.version]
  let st := st.inherit prev (st.field .dashboardVersion == "") [.dashboardVersion]
  let st := st.inherit prev (st.field .console).elems.isEmpty [.console]
  let st := st.inherit prev (st.field .notifications).isNil [.notifications]
  let st := st.inherit prev (st.field .cameraEvent).isNone [.cameraEvent]
  let st := st.inherit prev (omitted && (st.field .solarForecast).isNone) [.solarForecast]
  let st := st.inherit prev (omitted && (st.field .booleans).isNone)
    [.booleans, .onlyCharging, .noFeed, .houseSupport, .chargeBattery, .doNotSupplyCharger,
      .setLimitToEVCharger, .minimizeCharging, .dryRun]
  let st := st.inherit prev (omitted && (st.field .dailyStats).isZero) [.dailyStats]
  let st := st.inherit prev (omitted && st.field .essMode == {} && !st.nativeESSObserved &&
    !st.available "ess_mode") [.essMode]
  let st := st.inherit prev (omitted && (st.field .uiConfig).isNone) [.uiConfig]
  let st := st.inherit prev (omitted && (st.field .dvccLimits).isNone) [.dvccLimits]
  let st := st.inherit prev (omitted && (st.field .limits).isNone) [.limits]
  let st := st.inherit prev (omitted && (st.field .perf).isNone) [.perf]
  let st := st.inherit prev (omitted && (st.field .loopInterval).eq 0) [.loopInterval]
  let st := st.inherit prev (omitted && (st.field .gridControlValid).isNone)
    [.gridControlValid, .gridControlReason, .gridLossState, .gridLossHoldSeconds,
      .gridLossElapsed, .gridLossRemaining, .gridLossZeroApplied]
  st.inherit prev (omitted && (st.field .features).isNone) [.features]

end State

namespace Client

/-- `ApplyState`: the gateway owns the freshness of its controller envelope. -/
def applyState (c : Client) (st : State) (now : Time) : Client :=
  let c := match st.field .inverterAvailable with
    | some available =>
      { c with
        controllerLastSeen := none
        controllerLiveAt := if available then some now else none }
    | none => c
  { c with
    nativeLastSeen := some now
    waterModeObserved := fun d => if st.available d.field.jsonName then some now else none
    state := st.preserve c.state
    lastStateTime := some now }

/-! ## Commands -/

/-- `IsConnected`. -/
def isConnected (c : Client) : Bool :=
  if c.gatewayMode then c.gatewayConnected else c.connectionOpen

/-- `st.GatewayCapabilities[name]`. -/
def capable (c : Client) (name : String) : Bool :=
  ((c.state.field .gatewayCapabilities).find name).getD false

/-- `CanSelectESSMode`, run to completion. -/
def canSelectESSMode (c : Client) (now : Time) : Option (Client × Bool) :=
  if !c.isConnected then some (c, false)
  else (c.expireOptionalTelemetry now).map fun c' =>
    (c', essSelectionReady c'.state now && (!c.gatewayMode || c'.capable "set_ess_mode"))

/-- `CanControllerCommand`, run to completion. -/
def canControllerCommand (c : Client) (name : ControllerCommand) (payload : Any) (now : Time) :
    Option (Client × Bool) :=
  if !c.isConnected then some (c, false)
  else (c.expireOptionalTelemetry now).map fun c' =>
    (c', controllerCommandReady c'.state name payload now && (!c.gatewayMode || c'.capable
      (match name with
        | .setpointOverride => "setpoint_override"
        | .electricityTariff => "electricity_tariff")))

/-- `CanControlWaterDevice`. -/
def canControlWaterDevice (c : Client) (d : WaterDevice) (now : Time) : Bool :=
  c.waterControlReady d now && decide (0 ≤ c.waterInstance d) &&
    if c.gatewayMode then c.gatewayConnected && c.gatewayPublish && c.capable "water_mode"
    else c.connectionOpen && validPortal c.portalID

end Client

/-- The actions of `genericControllerAction`. -/
inductive ControllerAction where
  | toggle | dryRun | essMode | setpoint | limits | loopInterval
  deriving DecidableEq

/-- The commands that need an observation. -/
inductive Command where
  | generic (action : ControllerAction)
  | setESSMode (payload : Any)
  | controller (name : ControllerCommand) (payload : Any)
  | water (d : WaterDevice) (mode : ℤ)

namespace Client

/-- The readiness test of a command under the transport lock: `commandTelemetryReady`,
`ControllerCommandReady` or `waterControlReady`. -/
def commandReady (c : Client) (cmd : Command) (now : Time) : Bool :=
  match cmd with
  | .generic _ => c.controllerControlReady now
  | .setESSMode _ => essSelectionReady c.state now
  | .controller name payload => controllerCommandReady c.state name payload now
  | .water d _ => c.waterControlReady d now

/-- The final section of a command with these tokens: whether it publishes on the LAN client. -/
def dispatches (c : Client) (cmd : Command) (generation session : ℕ) (now : Time) : Bool :=
  c.pushGeneration == generation && c.mqttSession == session && !c.gatewayMode &&
    c.connectionOpen && c.commandReady cmd now

/-- What the checks before any critical section require of a command. -/
def commandValid (cmd : Command) (encodedLen : Option ℕ) : Bool :=
  match cmd with
  | .generic _ => true
  | .setESSMode payload => validateESSSelection payload
  | .controller .setpointOverride payload => validateOverride payload
  | .controller .electricityTariff payload => validateTariff payload encodedLen
  | .water _ mode => decide (0 ≤ mode ∧ mode ≤ 2)

/-- The permission check of a command before it takes the transport lock. -/
def commandAllowed (c : Client) (cmd : Command) (now : Time) : Option (Client × Bool) :=
  match cmd with
  | .generic _ => some (c, true)
  | .setESSMode _ => c.canSelectESSMode now
  | .controller name payload => c.canControllerCommand name payload now
  | .water d _ => some (c, c.canControlWaterDevice d now)

end Client

end Dashboard
