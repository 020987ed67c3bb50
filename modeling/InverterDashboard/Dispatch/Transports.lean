import InverterDashboard.Dispatch.Handle
import InverterDashboard.Push.Quoted

set_option relaxedAutoImplicit false
set_option autoImplicit false

/-!
# The two transports of a command

Where a request leaves the program. On LAN the last section of `PublishCommand`,
`publishControllerCommand`, `publishCerboAlarmCommand` or `SetWaterMode` publishes on MQTT; with a
gateway publisher the function that `main.go` installs calls `PostCommand` of
`internal/gateway/client.go`, which looks at the command once more. The stages before the last
section are those of `Dashboard.CommandCall`.

## Main definitions

* `Dashboard.WebSocket.Effect` — what leaves.
* `Dashboard.Gateway.normalizeControllerCommand`, `Dashboard.WebSocket.postCommand`.
* `Dashboard.WebSocket.Dispatch`, `Dashboard.WebSocket.Instruction.send` — the last section.
-/

namespace Dashboard

open Go

/-! ## The gateway -/

namespace Gateway

/-- `whitelistedCommands`. -/
def whitelistedCommands : List String :=
  ["toggle", "water_mode", "dry_run", "ess_mode", "set_ess_mode", "setpoint_override",
    "electricity_tariff", "silence_alarm", "acknowledge_all_notifications"]

/-- `IsWhitelistedCommand`. -/
def isWhitelistedCommand (name : String) : Bool := whitelistedCommands.contains name

/-- `MapDashboardAction`. -/
def mapDashboardAction : String → Option String
  | "setpoint_override" => some "setpoint_override"
  | "electricity_tariff" => some "electricity_tariff"
  | "water_mode" => some "water_mode"
  | "silence_alarm" => some "silence_alarm"
  | "acknowledge_all_notifications" => some "acknowledge_all_notifications"
  | "toggle" => some "toggle"
  | "dry_run" => some "dry_run"
  | "ess_mode" => some "ess_mode"
  | "set_ess_mode" => some "set_ess_mode"
  | "dismiss_banner" => some "acknowledge_all_notifications"
  | "acknowledge_victron_banner" => some "acknowledge_all_notifications"
  | _ => none

/-- The text of `ErrCommandNotOnGateway` for a command. -/
def notOnGateway (name : String) : String :=
  "command not available via inverter-gateway: " ++ name

/-- `invalidControllerPayload`. -/
def invalidControllerPayload : String := "invalid inverter-control command payload"

/-- `commandInteger`: an integer of the program or a whole number of a JSON text. -/
def commandInteger : Any → Option ℤ
  | .int n => some n
  | .float64 x =>
    if x.isFinite && x.eq x.trunc && F64.le 0 x && F64.le x (F64.ofInt 2147483647) then some x.toInt
    else none
  | _ => none

/-- `normalizeToggleCommand`. -/
def normalizeToggleCommand (object : List (String × Any)) : Except String Any :=
  match (entry object "entity").bind Any.string? with
  | none => .error invalidControllerPayload
  | some entity =>
    if !isControlFlag entity || object.length != 2 then .error invalidControllerPayload
    else
      match controlBool ((entry object "state").getD .nil) with
      | none => .error invalidControllerPayload
      | some enabled => .ok (WebSocket.flagPayload (WebSocket.flagName entity) enabled)

/-- The case `water_mode` of `normalizeControllerCommand`. -/
def normalizeWaterCommand (object : List (String × Any)) : Except String Any :=
  match commandInteger ((entry object "instance").getD .nil),
    commandInteger ((entry object "mode").getD .nil) with
  | some instance', some mode =>
    if object.length == 2 && decide (0 ≤ instance') && decide (0 ≤ mode) && decide (mode ≤ 2) then
      .ok (.object [("instance", .int instance'), ("mode", .int mode)])
    else .error invalidControllerPayload
  | _, _ => .error invalidControllerPayload

/-- `normalizeControllerCommand`. -/
def normalizeControllerCommand (format : ℚ → Number) (name : String) (body : Any) :
    Except String Any :=
  match name with
  | "setpoint_override" =>
    if validateOverride body then .ok body else .error "invalid override command"
  | "electricity_tariff" =>
    if WebSocket.tariffValid format body then .ok body else .error "invalid tariff command"
  | "set_ess_mode" =>
    if validateESSSelection body then .ok body else .error "invalid ESS mode selection"
  | "toggle" | "dry_run" | "ess_mode" | "water_mode" =>
    match body.object? with
    | none => .error "controller command requires an object"
    | some object =>
      match name with
      | "water_mode" => normalizeWaterCommand object
      | "toggle" => normalizeToggleCommand object
      | "dry_run" =>
        if ((entry object "value").bind Any.bool?).isSome && object.length == 1 then .ok body
        else .error invalidControllerPayload
      | _ => if object.isEmpty then .ok body else .error invalidControllerPayload
  | _ => .ok body

/-- The commands whose capability and freshness are checked on a snapshot. -/
def needsSnapshot (name : String) : Bool :=
  ["set_ess_mode", "setpoint_override", "electricity_tariff", "toggle", "dry_run", "ess_mode",
    "water_mode"].contains name

end Gateway

namespace WebSocket

/-- What leaves the program. -/
inductive Effect where
  /-- A message on MQTT. -/
  | publish (topic : String) (body : List UInt8)
  /-- A POST to the gateway. -/
  | post (path : String) (body : List UInt8)

/-- The bytes of a text. -/
def textBytes (s : String) : List UInt8 := utf8Bytes s.toList

section Transports

variable (format : ℚ → Number)

/-- `PostCommand` up to the request it makes; `ready` is the verdict of
`validateCommandSnapshot`. -/
def postCommand (ready : Bool) (name : String) (body : Any) : Except String Effect :=
  if !Gateway.isWhitelistedCommand name then .error (Gateway.notOnGateway name)
  else
    match Gateway.normalizeControllerCommand format name body with
    | .error text => .error text
    | .ok body =>
      if Gateway.needsSnapshot name && !ready then
        .error "wait for live supported ESS telemetry with dry run disabled"
      else
        match encodeControllerCommand format body with
        | none => .error "json: unsupported value"
        | some payload =>
          .ok (.post ("/v1/commands/" ++ name)
            (if payload.isEmpty || payload == textBytes "null" then textBytes "\x7b\x7d"
            else payload))

/-- The tests of a payload before any section: those of `publishControllerCommand` and
`validateESSCommand`. -/
def commandError (action : String) (payload : Any) : Option String :=
  match action with
  | "setpoint_override" =>
    if validateOverride payload then none else some "invalid override command"
  | "electricity_tariff" =>
    if tariffValid format payload then none else some "invalid tariff command"
  | "set_ess_mode" =>
    if validateESSSelection payload then none else some "invalid ESS mode selection"
  | _ => none

/-- The actions of `publishCerboAlarmCommand`. -/
def isAlarmAction (action : String) : Bool :=
  ["acknowledge_all_notifications", "silence_alarm", "dismiss_banner",
    "acknowledge_victron_banner"].contains action

/-- The command that needs an observation. -/
def command? (action : String) (payload : Any) : Option Command :=
  match action with
  | "toggle" => some (.generic .toggle)
  | "dry_run" => some (.generic .dryRun)
  | "ess_mode" => some (.generic .essMode)
  | "setpoint" => some (.generic .setpoint)
  | "limits" => some (.generic .limits)
  | "loop_interval" => some (.generic .loopInterval)
  | "set_ess_mode" => some (.setESSMode payload)
  | "setpoint_override" => some (.controller .setpointOverride payload)
  | "electricity_tariff" => some (.controller .electricityTariff payload)
  | _ => none

/-- The last section of a call: the client inside the section, and the tokens, the clock and the
verdicts of the call. -/
structure Dispatch where
  client : Client
  generation : ℕ
  session : ℕ
  now : Time
  /-- `PublishCommand` found a gateway publisher when it chose the way. -/
  publisher : Bool
  /-- `validateCommandSnapshot` found the command ready. -/
  snapshotReady : Bool

namespace Dispatch

variable (s : Dispatch)

/-- The source is the one of the call. -/
def sameSource : Bool :=
  s.client.pushGeneration == s.generation && s.client.mqttSession == s.session

/-- The source is the one of the call, and it is a broker that is connected. -/
def current : Bool := s.sameSource && !s.client.gatewayMode && s.client.connectionOpen

/-- The observation that the command needs is fresh. -/
def ready (action : String) (payload : Any) : Bool :=
  (command? action payload).all fun cmd => s.client.commandReady cmd s.now

/-- On LAN the tests of a section are those of the final section of the command. -/
theorem current_ready {action : String} {payload : Any} {cmd : Command}
    (h : command? action payload = some cmd) : (s.current && s.ready action payload) =
      s.client.dispatches cmd s.generation s.session s.now := by
  simp [current, ready, sameSource, Client.dispatches, h, Bool.and_assoc]

/-- The publisher that `main.go` installs. -/
def gatewayPublish (action : String) (payload : Any) : Except String Effect :=
  match Gateway.mapDashboardAction action with
  | none => .error (Gateway.notOnGateway action)
  | some name =>
    postCommand format s.snapshotReady name (if payload.isNil then .object [] else payload)

/-- The last section of `PublishCommand`. -/
def publishGeneric (action : String) (payload : Any) : Except String Effect :=
  match if payload.isNil then some (textBytes "\x7b\x7d")
    else (payload.tree format).map fun t => utf8Bytes (Push.marshalText t) with
  | none => .error "failed to marshal command payload"
  | some body =>
    if !s.current then .error "mqtt source unavailable"
    else if !s.ready action payload then .error "wait for current controller telemetry"
    else .ok (.publish ("inverter/cmd/" ++ action) body)

/-- The section of `publishControllerCommand`. -/
def publishControllerCommand (name : String) (payload : Any) : Except String Effect :=
  if !s.sameSource then .error "controller source changed"
  else if s.client.gatewayPublish then s.gatewayPublish format name payload
  else
    match encodeControllerCommand format payload with
    | none => .error "json: unsupported value"
    | some encoded =>
      if !s.current || !s.ready name payload then .error "controller unavailable"
      else .ok (.publish ("inverter/cmd/" ++ name) encoded)

/-- `publishCerboAlarmCommand` up to the message it publishes. -/
def publishCerboAlarmCommand (action : String) : Except String Effect :=
  if s.client.gatewayMode || !s.sameSource then .error "alarm source changed"
  else if !validPortal s.client.portalID then
    .error ("cerbo portal id required for " ++ action)
  else if !s.client.connectionOpen then .error "mqtt not connected"
  else if action = "silence_alarm" then
    .ok (.publish ("W/" ++ s.client.portalID ++ "/vebus/0/Alarm")
      (textBytes "\x7b\"SilenceAlarm\":\"1\"\x7d"))
  else
    .ok (.publish ("W/" ++ s.client.portalID ++ "/platform/0/Notifications/AcknowledgeAll")
      (textBytes "\x7b\"value\":1\x7d"))

/-- `PublishCommand` behind the tests of its payload. -/
def publishCommand (action : String) (payload : Any) : Except String Effect :=
  if action = "setpoint_override" ∨ action = "electricity_tariff" then
    s.publishControllerCommand format action payload
  else if s.publisher then s.gatewayPublish format action payload
  else if isAlarmAction action then s.publishCerboAlarmCommand action
  else s.publishGeneric format action payload

/-- `SetWaterMode` behind the tests of its arguments. -/
def setWaterMode (d : WaterDevice) (mode : ℤ) : Except String Effect :=
  if !s.sameSource then .error "water source changed"
  else if s.client.gatewayMode then
    if !s.client.gatewayConnected || !s.client.gatewayPublish then .error "gateway not connected"
    else s.gatewayPublish format "water_mode"
      (.object [("instance", .int (s.client.waterInstance d)), ("mode", .int mode)])
  else if !s.client.waterControlReady d s.now then .error "water observation is stale"
  else if !s.client.connectionOpen then .error "mqtt not connected"
  else
    .ok (.publish
      ("W/" ++ s.client.portalID ++ "/pump/" ++ itoa (s.client.waterInstance d) ++ "/Mode")
      (textBytes ("\x7b\"value\":" ++ itoa mode ++ "\x7d")))

end Dispatch

/-- What an instruction sends. -/
def Instruction.send (s : Dispatch) : Instruction → Except String Effect
  | .command action payload =>
    match commandError format action payload with
    | some text => .error text
    | none => s.publishCommand format action payload
  | .water d mode =>
    if mode < 0 ∨ mode > 2 then .error "water mode must be 0 (auto), 1 (on), or 2 (off)"
    else s.setWaterMode format d mode

end Transports

end WebSocket

end Dashboard
