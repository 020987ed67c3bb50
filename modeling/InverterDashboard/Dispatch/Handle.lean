import InverterDashboard.Broadcast.Message
import InverterDashboard.HomeAssistant.Actions
import InverterDashboard.Mqtt.Session

set_option relaxedAutoImplicit false
set_option autoImplicit false

/-!
# Messages of the browsers and the orders they stand for

`handleMessage` of `internal/websocket/handler.go` with `controller.go`, for every action. The
handler asks the clients for their capabilities and for the state while the clients go on, and each
of these at most once, so the answers need not belong to one moment.

Beside it stands what a browser may ask of the installation. An order that is no order of the
controller or of the Cerbo cannot be built.

## Main definitions

* `Dashboard.WebSocket.Order` — what may be asked of the installation.
* `Dashboard.WebSocket.View`, `Dashboard.WebSocket.handleMessage` — the handler.
* `Dashboard.WebSocket.Asks` — the order a message asks for.

## Main results

* `Dashboard.WebSocket.granted_of_handleMessage` — what is requested of the MQTT client is the order
  that the message asks for.
-/

namespace Dashboard

open Go

namespace WebSocket

/-! ## Orders -/

/-- A flag of the controller. -/
structure ControlFlag where
  name : String
  known : name ∈ controlFlags

/-- An identifier that correlates a request with its result. -/
structure RequestID where
  text : String
  valid : validRequestID text = true

/-- The modes that may be selected. -/
def essChoices : List String :=
  ["off", "on", "optimized_with_battery_life", "optimized_without_battery_life",
    "keep_batteries_charged", "external_control"]

/-- A mode that may be selected. -/
structure ESSChoice where
  name : String
  known : name ∈ essChoices

/-- A 32-bit integer, or nil to end the override. -/
structure OverrideValue where
  value : Any
  int32 : (int32Value value).isSome = true

/-- A plan of tariffs, or nil to drop it. -/
structure TariffPlan where
  value : Any
  plan : (value.isNil || value.object?.isSome) = true

/-- The revision of the plan that is replaced. -/
structure TariffRevision where
  text : String
  valid : isTariffRevision text = true

/-- The mode of a water device: automatic, on or off. -/
structure WaterMode where
  value : ℤ
  range : 0 ≤ value ∧ value ≤ 2

/-- An entity that does not belong to Home Assistant. -/
structure LocalEntity where
  name : String
  nonempty : name ≠ ""
  noDomain : containsText name "." = false

/-- The names under which all notifications are acknowledged. -/
inductive AcknowledgeName where
  | all
  | dismiss
  | banner

/-- The action of a name. -/
def AcknowledgeName.action : AcknowledgeName → String
  | .all => "acknowledge_all_notifications"
  | .dismiss => "dismiss_banner"
  | .banner => "acknowledge_victron_banner"

/-- What may be asked of the installation. -/
inductive Order where
  | flag (f : ControlFlag) (on : Bool)
  | dryRun (on : Bool)
  | toggleESS
  | selectESS (choice : ESSChoice) (id : RequestID)
  | override (value : OverrideValue) (id : RequestID)
  | tariff (plan : TariffPlan) (revision : TariffRevision) (id : RequestID)
  | water (d : WaterDevice) (mode : WaterMode)
  | acknowledge (name : AcknowledgeName) (id : Option String)
  | silence (id : Option String)
  | setpoint (value : Any)
  | limits (min max : F64)
  | loopInterval (seconds : F64)
  | toggle (entity : LocalEntity)
  | press (entity : LocalEntity)

/-! ## Requests -/

/-- What is requested of the MQTT client. -/
inductive Instruction where
  /-- `PublishCommand`. -/
  | command (action : String) (payload : Any)
  /-- `SetWaterMode`. -/
  | water (d : WaterDevice) (mode : ℤ)

/-- What the handler requests. -/
inductive Request where
  /-- An instruction of the MQTT client. -/
  | send (i : Instruction)
  /-- A service call to Home Assistant. -/
  | service (call : HomeAssistant.ServiceCall)
  /-- `settings.Apply`. -/
  | settings (patch : List (String × Any))

/-- `PublishCommand` is called. -/
def Request.command (action : String) (payload : Any) : Request :=
  .send (.command action payload)

/-- The text of a switch. -/
def onOff (on : Bool) : String := if on then "on" else "off"

/-- The payload with the identifier of a banner. -/
def bannerPayload (id : Option String) : Any :=
  .object (id.toList.map fun id => ("id", .string id))

/-- The payload of an entity without a state. -/
def entityPayload (entity : String) : Any := .object [("entity", .string entity)]

/-- The payload of a flag. -/
def flagPayload (entity : String) (on : Bool) : Any :=
  .object [("entity", .string entity), ("state", .string (onOff on))]

/-- The payload of a tariff. -/
def tariffPayload (plan : Any) (revision id : String) : Any :=
  .object [("plan", plan), ("revision", .string revision), ("request_id", .string id)]

/-- The payload of an override. -/
def overridePayload (value : Any) (id : String) : Any :=
  .object [("value", value), ("request_id", .string id)]

/-- The payload of a selected mode. -/
def essPayload (mode : Any) (id : String) : Any :=
  .object [("mode", mode), ("request_id", .string id)]

/-- The instruction of an order. -/
def Order.instruction : Order → Instruction
  | .flag f on => .command "toggle" (flagPayload f.name on)
  | .dryRun on => .command "dry_run" (.object [("value", .bool on)])
  | .toggleESS => .command "ess_mode" (.object [])
  | .selectESS choice id => .command "set_ess_mode" (essPayload (.string choice.name) id.text)
  | .override value id => .command "setpoint_override" (overridePayload value.value id.text)
  | .tariff plan revision id =>
    .command "electricity_tariff" (tariffPayload plan.value revision.text id.text)
  | .water d mode => .water d mode.value
  | .acknowledge name id => .command name.action (bannerPayload id)
  | .silence id => .command "silence_alarm" (bannerPayload id)
  | .setpoint value => .command "setpoint" (.object [("value", value)])
  | .limits min max => .command "limits" (.object [("min", .float64 min), ("max", .float64 max)])
  | .loopInterval seconds => .command "loop_interval" (.object [("interval", .float64 seconds)])
  | .toggle entity => .command "toggle" (entityPayload entity.name)
  | .press entity => .command "press" (entityPayload entity.name)

/-! ## The handler -/

/-- What the clients answer while a message is handled. -/
structure View where
  canControlInverter : Bool := false
  canControllerCommand : Bool := false
  canSelectESSMode : Bool := false
  state : Option State := none
  ha : Option HomeAssistant.Client := none

/-- `requireController`. -/
def requireController (v : View) (request : Except String Request) : Except String Request :=
  if v.canControlInverter then request
  else .error "inverter-control state or transport is unavailable"

/-- The name of a flag without its domain. -/
def flagName (entity : String) : String := trimPrefix (trimSpace entity) "input_boolean."

/-- The observed value of a flag. -/
def View.flag (v : View) (name : String) : Option Bool :=
  v.state.bind fun st => ((st.field .booleans).find name).bind controlBool

/-- The observed `dry_run`. -/
def View.dryRun (v : View) : Option Bool := v.state.bind fun st => st.field .dryRun

/-- The state that is asked for, or the opposite of the observed one. -/
def View.wanted (v : View) (name : String) (requested : Any) : Option Bool :=
  if requested.isNil then (v.flag name).map (!·) else controlBool requested

/-- `handleControllerToggle`. -/
def handleControllerToggle (v : View) (entity : String) (requested : Any) :
    Except String Request :=
  requireController v
    (if !isControlFlag (flagName entity) then .error "unknown inverter-control flag"
    else
      match v.wanted (flagName entity) requested with
      | none => .error "control flag state is unknown or invalid"
      | some value => .ok (.command "toggle" (flagPayload (flagName entity) value)))

/-- `handleDryRun`. -/
def handleDryRun (v : View) (requested : Any) : Except String Request :=
  requireController v
    (if requested.isNil then
      match v.dryRun with
      | none => .error "dry_run state is unknown"
      | some current => .ok (.command "dry_run" (.object [("value", .bool !current)]))
    else
      match requested.bool? with
      | none => .error "dry_run value must be boolean"
      | some value => .ok (.command "dry_run" (.object [("value", .bool value)])))

/-- The device of a name. -/
def waterDevice? : String → Option WaterDevice
  | "pump" => some .pump
  | "valve" => some .valve
  | _ => none

/-- The mode of a water device in a message. -/
def waterMode? : Any → Option ℤ
  | .int n => if n < 0 ∨ n > 2 then none else some n
  | .float64 x => if x.eq 0 || x.eq 1 || x.eq 2 then some x.toInt else none
  | _ => none

/-- The members of a message that reach Home Assistant. -/
def Message.home (m : Message) : HomeAssistant.Message :=
  { action := m.action, entity := m.entity, value := m.value, position := m.position
    mpAction := m.mpAction }

/-- The identifier of a banner. -/
def Message.banner (m : Message) : Option String :=
  if m.id ≠ "" then some m.id else if m.entity ≠ "" then some m.entity else none

/-- The seconds of a loop; 0 stands for a third of a second. -/
def Message.loopSeconds (m : Message) : F64 :=
  if m.interval.eq 0 then F64.ofRat (33 / 100) else m.interval

/-- The payload of `electricity_tariff`. -/
def Message.tariffPayload (m : Message) : Any :=
  WebSocket.tariffPayload m.plan m.revision m.requestID

section Handler

variable (format : ℚ → Number) (v : View)

/-- `ValidateTariff`. -/
def tariffValid (payload : Any) : Bool :=
  validateTariff payload ((encodeControllerCommand format payload).map List.length)

/-- What becomes of an answer that concerns Home Assistant. -/
def handleReply (m : Message) : HomeAssistant.Reply → Except String Request
  | .error text => .error text
  | .controllerToggle entity => handleControllerToggle v entity m.state
  | .publish command entity => .ok (.command command (entityPayload entity))
  | .service call => .ok (.service call)
  | .elsewhere => .error ("unknown action: " ++ m.action)

/-- `handleMessage`. -/
def handleMessage (m : Message) : Except String Request :=
  match m.action with
  | "water_mode" =>
    match waterDevice? m.which with
    | none => .error "water device must be pump or valve"
    | some d =>
      match waterMode? m.mode with
      | none => .error "water mode must be integer 0, 1 or 2"
      | some mode => .ok (.send (.water d mode))
  | "setpoint" => .ok (.command "setpoint" (.object [("value", m.value)]))
  | "dry_run" => handleDryRun v m.value
  | "limits" =>
    .ok (.command "limits" (.object [("min", .float64 m.min), ("max", .float64 m.max)]))
  | "set_setpoint_override" =>
    if !validateOverride m.overridePayload then .error "invalid override command"
    else if !v.canControllerCommand then .error "wait for live supported controller telemetry"
    else .ok (.command "setpoint_override" m.overridePayload)
  | "electricity_tariff" =>
    if !tariffValid format m.tariffPayload then .error "invalid tariff command"
    else if !v.canControllerCommand then .error "wait for live supported controller telemetry"
    else .ok (.command "electricity_tariff" m.tariffPayload)
  | "set_ess_mode" =>
    if !validateESSSelection (essPayload m.mode m.requestID) then
      .error "invalid ESS mode selection"
    else requireController v
      (if !v.canSelectESSMode then
        .error "wait for live supported ESS telemetry with dry run disabled"
      else .ok (.command "set_ess_mode" (essPayload m.mode m.requestID)))
  | "ess_mode" => requireController v (.ok (.command "ess_mode" (.object [])))
  | "loop_interval" =>
    .ok (.command "loop_interval" (.object [("interval", .float64 m.loopSeconds)]))
  | "set_settings" =>
    match m.settings with
    | none => .error "settings required"
    | some patch => .ok (.settings patch)
  | "acknowledge_all_notifications" | "silence_alarm" | "dismiss_banner"
  | "acknowledge_victron_banner" => .ok (.command m.action (bannerPayload m.banner))
  | _ => handleReply v m (HomeAssistant.handleMessage v.ha m.home)

end Handler

/-! ## What a message asks for -/

/-- The order a message asks for, in view of what was observed. -/
inductive Asks (v : View) (m : Message) : Order → Prop
  /-- The state that is asked for, whatever the flag is now. -/
  | flag {f : ControlFlag} {on : Bool} : m.action = "toggle" → flagName m.entity = f.name →
      m.state.isNil = false → controlBool m.state = some on → Asks v m (.flag f on)
  /-- The opposite of what the flag is observed to be. -/
  | opposite {f : ControlFlag} {on : Bool} : m.action = "toggle" → flagName m.entity = f.name →
      m.state = .nil → v.flag f.name = some (!on) → Asks v m (.flag f on)
  | dryRun {on : Bool} : m.action = "dry_run" → m.value = .bool on → Asks v m (.dryRun on)
  | oppositeDryRun {on : Bool} : m.action = "dry_run" → m.value = .nil →
      v.dryRun = some (!on) → Asks v m (.dryRun on)
  | toggleESS : m.action = "ess_mode" → Asks v m .toggleESS
  | selectESS {choice : ESSChoice} {id : RequestID} : m.action = "set_ess_mode" →
      m.mode = .string choice.name → m.requestID = id.text → Asks v m (.selectESS choice id)
  | override {value : OverrideValue} {id : RequestID} : m.action = "set_setpoint_override" →
      m.value = value.value → m.requestID = id.text → Asks v m (.override value id)
  | tariff {plan : TariffPlan} {revision : TariffRevision} {id : RequestID} :
      m.action = "electricity_tariff" → m.plan = plan.value → m.revision = revision.text →
      m.requestID = id.text → Asks v m (.tariff plan revision id)
  | water {d : WaterDevice} {mode : WaterMode} : m.action = "water_mode" →
      waterDevice? m.which = some d →
      (m.mode = .int mode.value ∨ m.mode = .float64 (.fin mode.value)) → Asks v m (.water d mode)
  | acknowledge {name : AcknowledgeName} : m.action = name.action →
      Asks v m (.acknowledge name m.banner)
  | silence : m.action = "silence_alarm" → Asks v m (.silence m.banner)
  | setpoint : m.action = "setpoint" → Asks v m (.setpoint m.value)
  | limits : m.action = "limits" → Asks v m (.limits m.min m.max)
  | loopInterval : m.action = "loop_interval" → Asks v m (.loopInterval m.loopSeconds)
  | toggle {entity : LocalEntity} : m.action = "toggle" → m.entity = entity.name →
      isControlFlag m.entity = false → Asks v m (.toggle entity)
  | press {entity : LocalEntity} : m.action = "press" → m.entity = entity.name →
      Asks v m (.press entity)

/-- An instruction stands for the order that is asked for. -/
def Granted (v : View) (m : Message) (i : Instruction) : Prop :=
  ∃ o, Asks v m o ∧ i = o.instruction

/-! ## Home Assistant -/

/-- A text with a domain has a point. -/
theorem containsText_of_hasPrefix {entity p : String} (h : hasPrefix entity (p ++ ".") = true) :
    containsText entity "." = true := by
  obtain ⟨rest, hrest⟩ := List.isPrefixOf_iff_prefix.mp h
  have htext : entity.toList = p.toList ++ ('.' :: rest) := by
    rw [← hrest, String.toList_append, List.append_assoc]
    rfl
  refine List.any_eq_true.mpr ⟨'.' :: rest, ?_, rfl⟩
  rw [List.mem_tails, htext]
  exact List.suffix_append _ _

/-- An answer that does not concern the MQTT client. -/
def isDirect : HomeAssistant.Reply → Bool
  | .error _ | .service _ => true
  | .controllerToggle _ | .publish .. | .elsewhere => false

theorem isDirect_allow (allowed : Bool) (call : HomeAssistant.ServiceCall) :
    isDirect (HomeAssistant.allow allowed call) = true := by
  unfold HomeAssistant.allow
  split_ifs <;> rfl

theorem isDirect_performAction (c : HomeAssistant.Client) (msg : HomeAssistant.Message) :
    isDirect (HomeAssistant.performAction c msg) = true := by
  unfold HomeAssistant.performAction
  split
  · rfl
  · split_ifs
    · rfl
    · rfl
    · dsimp only
      split
      · split
        · rfl
        · exact isDirect_allow _ _
      · split
        · rfl
        · split_ifs
          · rfl
          · exact isDirect_allow _ _
      · split
        · rfl
        · exact isDirect_allow _ _
      · exact isDirect_allow _ _
      · rfl

/-- What pressing a button leads to. -/
theorem handlePress_cases (ha : Option HomeAssistant.Client) (entity : String) :
    isDirect (HomeAssistant.handlePress ha entity) = true ∨
      (HomeAssistant.handlePress ha entity = .publish "press" entity ∧ entity ≠ "" ∧
        containsText entity "." = false) := by
  unfold HomeAssistant.handlePress
  by_cases hempty : (entity == "") = true
  · rw [if_pos hempty]
    exact Or.inl rfl
  rw [if_neg hempty]
  cases ha.filter HomeAssistant.Client.isDirectMode with
  | none =>
    dsimp only
    split_ifs with hpoint
    · exact Or.inl rfl
    · exact Or.inr ⟨rfl, by simpa using hempty, by simpa using hpoint⟩
  | some c =>
    left
    dsimp only
    split_ifs
    · rfl
    · unfold HomeAssistant.pressButton
      split_ifs <;> rfl

/-- What toggling an entity leads to. -/
theorem handleToggle_cases {ha : Option HomeAssistant.Client} {entity : String}
    (hflag : isControlFlag entity = false) :
    isDirect (HomeAssistant.handleToggle ha entity) = true ∨
      (HomeAssistant.handleToggle ha entity = .publish "toggle" entity ∧ entity ≠ "" ∧
        containsText entity "." = false) := by
  unfold HomeAssistant.handleToggle
  rw [hflag]
  simp only [Bool.false_eq_true, if_false]
  split_ifs with hempty hpoint hbutton
  · exact Or.inl rfl
  · exact Or.inl rfl
  · -- A button has a domain, so it is not published.
    rcases handlePress_cases ha entity with hdirect | ⟨-, -, hno⟩
    · exact Or.inl hdirect
    · exact absurd (containsText_of_hasPrefix (p := "button") hbutton) (by simp [hno])
  · split
    · left
      unfold HomeAssistant.toggleEntity
      dsimp only
      split_ifs <;> rfl
    · next hnone =>
      refine Or.inr ⟨rfl, by simpa using hempty, ?_⟩
      rw [hnone] at hpoint
      simpa using hpoint

/-- What a message about Home Assistant leads to. -/
theorem handleMessage_cases (ha : Option HomeAssistant.Client) (msg : HomeAssistant.Message) :
    isDirect (HomeAssistant.handleMessage ha msg) = true ∨
    HomeAssistant.handleMessage ha msg = .elsewhere ∨
    (msg.action = "toggle" ∧ isControlFlag msg.entity = true ∧
      HomeAssistant.handleMessage ha msg = .controllerToggle msg.entity) ∨
    (msg.action = "toggle" ∧ isControlFlag msg.entity = false ∧
      HomeAssistant.handleMessage ha msg = .publish "toggle" msg.entity ∧ msg.entity ≠ "" ∧
        containsText msg.entity "." = false) ∨
    (msg.action = "press" ∧
      HomeAssistant.handleMessage ha msg = .publish "press" msg.entity ∧ msg.entity ≠ "" ∧
        containsText msg.entity "." = false) := by
  unfold HomeAssistant.handleMessage
  split
  -- the actions on covers, players, scenes and numbers
  iterate 4
    · left
      split
      · rfl
      · exact isDirect_performAction _ _
  · next haction =>
    cases hflag : isControlFlag msg.entity with
    | true => exact Or.inr (Or.inr (Or.inl ⟨haction, rfl, rfl⟩))
    | false =>
      rcases @handleToggle_cases ha msg.entity hflag with hdirect | htoggle
      · exact Or.inl hdirect
      · exact Or.inr (Or.inr (Or.inr (Or.inl ⟨haction, rfl, htoggle⟩)))
  · next haction =>
    rcases handlePress_cases ha msg.entity with hdirect | hpress
    · exact Or.inl hdirect
    · exact Or.inr (Or.inr (Or.inr (Or.inr ⟨haction, hpress⟩)))
  · exact Or.inr (Or.inl rfl)

/-! ## The handler grants what is asked for -/

variable {format : ℚ → Number} {v : View} {m : Message} {i : Instruction}

theorem of_requireController {r : Except String Request} {q : Request}
    (h : requireController v r = .ok q) : v.canControlInverter = true ∧ r = .ok q := by
  unfold requireController at h
  split_ifs at h with hready
  exact ⟨hready, h⟩

theorem eq_of_isNil {a : Any} (h : a.isNil = true) : a = .nil := by
  cases a <;> first | rfl | cases h

/-- What a valid tariff consists of. -/
theorem validateTariff_payload {plan : Any} {revision id : String} {n : Option ℕ}
    (h : validateTariff (tariffPayload plan revision id) n = true) :
    validRequestID id = true ∧ isTariffRevision revision = true ∧
      (plan.isNil || plan.object?.isSome) = true := by
  have hid : entry [("plan", plan), ("revision", .string revision), ("request_id", .string id)]
      "request_id" = some (.string id) := rfl
  have hrevision : entry [("plan", plan), ("revision", .string revision),
      ("request_id", .string id)] "revision" = some (.string revision) := rfl
  have hplan : entry [("plan", plan), ("revision", .string revision), ("request_id", .string id)]
      "plan" = some plan := rfl
  simp only [validateTariff, tariffPayload, Any.object?, hid, hrevision, hplan, Bool.and_eq_true,
    Option.bind_some, Any.string?, Option.any_some] at h
  exact ⟨h.1.1.1.2, h.1.1.2, h.1.2⟩

/-- What a valid selection consists of. -/
theorem validateESSSelection_payload {mode : Any} {id : String}
    (h : validateESSSelection (essPayload mode id) = true) :
    ∃ choice, mode = .string choice ∧ choice ∈ essChoices ∧ validRequestID id = true := by
  have hmode : entry [("mode", mode), ("request_id", .string id)] "mode" = some mode := rfl
  have hid : entry [("mode", mode), ("request_id", .string id)] "request_id" =
      some (.string id) := rfl
  simp only [validateESSSelection, essPayload, Any.object?, hmode, hid, Bool.and_eq_true,
    Option.bind_some] at h
  obtain ⟨⟨-, hchoice⟩, hid⟩ := h
  obtain ⟨choice, hstring, hmem⟩ := (Option.any_eq_true ..).mp hchoice
  refine ⟨choice, ?_, List.contains_iff_mem.mp hmem, hid⟩
  cases mode <;> cases hstring
  rfl

theorem exists_controlFlag {name : String} (h : name ∈ controlFlags) :
    ∃ f : ControlFlag, f.name = name := ⟨⟨name, h⟩, rfl⟩

/-- A flag is switched to what is asked for, or else to the opposite of what it is. -/
theorem granted_of_controllerToggle (haction : m.action = "toggle")
    (hflag : isControlFlag m.entity = true)
    (h : handleControllerToggle v m.entity m.state = .ok (.send i)) : Granted v m i := by
  obtain ⟨f, hf⟩ := exists_controlFlag (List.contains_iff_mem.mp hflag : flagName m.entity ∈ _)
  obtain ⟨-, h⟩ := of_requireController h
  rw [← hf] at h
  split_ifs at h
  split at h
  · cases h
  · next on hon =>
    obtain rfl := Request.send.inj (Except.ok.inj h)
    refine ⟨.flag f on, ?_, rfl⟩
    unfold View.wanted at hon
    split_ifs at hon with hnil
    · obtain ⟨observed, hobserved, rfl⟩ := Option.map_eq_some_iff.mp hon
      exact .opposite haction hf.symm (eq_of_isNil hnil) (by rw [hobserved, Bool.not_not])
    · exact .flag haction hf.symm (by simpa using hnil) hon

theorem granted_of_dryRun (haction : m.action = "dry_run")
    (h : handleDryRun v m.value = .ok (.send i)) : Granted v m i := by
  obtain ⟨-, h⟩ := of_requireController h
  split_ifs at h with hnil
  · split at h
    · cases h
    · next current hcurrent =>
      obtain rfl := Request.send.inj (Except.ok.inj h)
      exact ⟨.dryRun !current,
        .oppositeDryRun haction (eq_of_isNil hnil) (by rw [hcurrent, Bool.not_not]), rfl⟩
  · split at h
    · cases h
    · next on hon =>
      obtain rfl := Request.send.inj (Except.ok.inj h)
      refine ⟨.dryRun on, .dryRun haction ?_, rfl⟩
      cases hvalue : m.value <;> rw [hvalue] at hon <;> cases hon
      rfl

/-- A mode in range is one of the three numbers. -/
theorem waterMode?_eq_some {a : Any} {n : ℤ} (h : waterMode? a = some n) :
    (0 ≤ n ∧ n ≤ 2) ∧ (a = .int n ∨ a = .float64 (.fin n)) := by
  cases a with
  | int k =>
    simp only [waterMode?] at h
    split_ifs at h with hrange
    obtain rfl := Option.some.inj h
    exact ⟨by omega, Or.inl rfl⟩
  | float64 x =>
    simp only [waterMode?] at h
    split_ifs at h with hx
    obtain rfl := Option.some.inj h
    cases x with
    | nan => cases hx
    | inf s => cases hx
    | fin q =>
      have hcases : q = 0 ∨ q = 1 ∨ q = 2 := by
        simp only [Bool.or_eq_true, or_assoc] at hx
        exact hx.imp of_decide_eq_true (Or.imp of_decide_eq_true of_decide_eq_true)
      have hint : ∀ k ∈ [(0 : ℚ), 1, 2], ((F64.fin k).toInt : ℚ) = k ∧
          0 ≤ (F64.fin k).toInt ∧ (F64.fin k).toInt ≤ 2 := by decide +kernel
      obtain ⟨hq, hrange⟩ := hint q (by simpa using hcases)
      exact ⟨hrange, Or.inr (by rw [hq])⟩
  | _ => cases h

/-- An answer that does not concern the MQTT client is no instruction. -/
theorem handleReply_ne_of_isDirect {reply : HomeAssistant.Reply} (h : isDirect reply = true) :
    handleReply v m reply ≠ .ok (.send i) := by
  cases reply with
  | error text => simp [handleReply]
  | service call => simp [handleReply]
  | controllerToggle entity => simp [isDirect] at h
  | publish command entity => simp [isDirect] at h
  | elsewhere => simp [isDirect] at h

theorem granted_of_reply
    (h : handleReply v m (HomeAssistant.handleMessage v.ha m.home) = .ok (.send i)) :
    Granted v m i := by
  rcases handleMessage_cases v.ha m.home with hdirect | heq | ⟨haction, hflag, heq⟩ |
    ⟨haction, hflag, heq, hne, hno⟩ | ⟨haction, heq, hne, hno⟩
  · exact absurd h (handleReply_ne_of_isDirect hdirect)
  · rw [heq] at h
    cases h
  · rw [heq] at h
    exact granted_of_controllerToggle haction hflag h
  · rw [heq] at h
    obtain rfl := Request.send.inj (Except.ok.inj h)
    exact ⟨.toggle ⟨m.entity, hne, hno⟩, .toggle haction rfl hflag, rfl⟩
  · rw [heq] at h
    obtain rfl := Request.send.inj (Except.ok.inj h)
    exact ⟨.press ⟨m.entity, hne, hno⟩, .press haction rfl, rfl⟩

/-- **Instructions** are orders: what is requested of the MQTT client for a message is the order
that the message asks for.

**Proof sketch.** One case for each action. The tests of the handler are what the order needs to be
one, and the actions of Home Assistant leave only entities that have no domain. -/
theorem granted_of_handleMessage (h : handleMessage format v m = .ok (.send i)) :
    Granted v m i := by
  unfold handleMessage at h
  split at h
  · next haction =>
    split at h
    · cases h
    · next d hd =>
      split at h
      · cases h
      · next mode hmode =>
        obtain rfl := Request.send.inj (Except.ok.inj h)
        obtain ⟨hrange, hvalue⟩ := waterMode?_eq_some hmode
        exact ⟨.water d ⟨mode, hrange⟩, .water haction hd hvalue, rfl⟩
  · next haction =>
    obtain rfl := Request.send.inj (Except.ok.inj h)
    exact ⟨.setpoint m.value, .setpoint haction, rfl⟩
  · next haction => exact granted_of_dryRun haction h
  · next haction =>
    obtain rfl := Request.send.inj (Except.ok.inj h)
    exact ⟨.limits m.min m.max, .limits haction, rfl⟩
  · next haction =>
    split_ifs at h with hvalid
    obtain rfl := Request.send.inj (Except.ok.inj h)
    rw [Bool.not_eq_true', Bool.not_eq_false, validateOverride_payload] at hvalid
    exact ⟨.override ⟨m.value, hvalid.1⟩ ⟨m.requestID, hvalid.2⟩, .override haction rfl rfl, rfl⟩
  · next haction =>
    split_ifs at h with hvalid
    obtain rfl := Request.send.inj (Except.ok.inj h)
    rw [Bool.not_eq_true', Bool.not_eq_false] at hvalid
    obtain ⟨hid, hrevision, hplan⟩ := validateTariff_payload hvalid
    exact ⟨.tariff ⟨m.plan, hplan⟩ ⟨m.revision, hrevision⟩ ⟨m.requestID, hid⟩,
      .tariff haction rfl rfl rfl, rfl⟩
  · next haction =>
    split_ifs at h with hvalid
    · cases (of_requireController h).2
    obtain ⟨-, h⟩ := of_requireController h
    obtain rfl := Request.send.inj (Except.ok.inj h)
    obtain ⟨choice, hmode, hmem, hid⟩ := validateESSSelection_payload (by simpa using hvalid)
    exact ⟨.selectESS ⟨choice, hmem⟩ ⟨m.requestID, hid⟩, .selectESS haction hmode rfl,
      by rw [hmode]; rfl⟩
  · next haction =>
    obtain ⟨-, h⟩ := of_requireController h
    obtain rfl := Request.send.inj (Except.ok.inj h)
    exact ⟨.toggleESS, .toggleESS haction, rfl⟩
  · next haction =>
    obtain rfl := Request.send.inj (Except.ok.inj h)
    exact ⟨.loopInterval m.loopSeconds, .loopInterval haction, rfl⟩
  · split at h <;> cases h
  · next haction =>
    obtain rfl := Request.send.inj (Except.ok.inj h)
    exact ⟨.acknowledge .all m.banner, .acknowledge haction, by rw [haction]; rfl⟩
  · next haction =>
    obtain rfl := Request.send.inj (Except.ok.inj h)
    exact ⟨.silence m.banner, .silence haction, by rw [haction]; rfl⟩
  · next haction =>
    obtain rfl := Request.send.inj (Except.ok.inj h)
    exact ⟨.acknowledge .dismiss m.banner, .acknowledge haction, by rw [haction]; rfl⟩
  · next haction =>
    obtain rfl := Request.send.inj (Except.ok.inj h)
    exact ⟨.acknowledge .banner m.banner, .acknowledge haction, by rw [haction]; rfl⟩
  · exact granted_of_reply h

end WebSocket

end Dashboard
