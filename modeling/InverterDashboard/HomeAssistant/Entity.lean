import InverterDashboard.HomeAssistant.Duration
import InverterDashboard.Mqtt.Controller

set_option relaxedAutoImplicit false
set_option autoImplicit false

/-!
# Home Assistant entities

The configured entities of `internal/homeassistant/client.go`, which of them Home Assistant owns
(`ownership.go`), and what is read from the document of an entity (`filtered.go`). The labels of
buttons are display texts and are left out.

## Main definitions

* `Dashboard.HomeAssistant.isMQTTOwnedKey`, `haOwnsField` — ownership.
* `Dashboard.HomeAssistant.HomeAssistantConfig`, `Client`, `newClient` — the configuration.
* `Dashboard.HomeAssistant.EntityState` — the document of an entity.
* `Dashboard.HomeAssistant.numberBounds`, `buildFilteredDisplays` — the rich displays.
* `Dashboard.HomeAssistant.homeSwitchState`, `parseApplianceField` — states as values.

## Main results

* `Dashboard.HomeAssistant.numberBounds_ordered` — bounds are numbers, the lower one first.
* `Dashboard.HomeAssistant.owned_of_mem_switchEntities` — a configured button is owned.
-/

namespace Dashboard

open Go

namespace HomeAssistant

/-! ## Ownership -/

/-- The names that `IsMQTTOwnedKey` lists. -/
def mqttOwnedKeys : List String :=
  ["ha_controls_available", "ha_observed_at", "setpoint_override",
    "setpoint_override_observed_at", "setpoint_override_controls_available",
    "electricity_tariff_observed_at", "electricity_tariff_controls_available",
    "grid_l1_available", "grid_l2_available", "grid_l3_available", "grid_backup",
    "grid_using_backup", "grid_backup_observed_at", "g1", "g2", "g3", "gt", "t1", "t2", "t3", "tt",
    "bv", "bc", "bp",
    "battery_soc", "battery_voltage", "battery_current", "battery_power", "battery_socs",
    "batteries",
    "solar_total", "pv_total", "mppt_total", "mppt_data", "mppt_individual", "mppt_chargers",
    "pv_inverter_total", "pv_inverter_individual", "pv_inverter_powers", "pv_inverters",
    "loads", "load_names", "setpoint", "inverter_state",
    "ev_power", "ev_charging_kw", "car_soc", "car_charging_power", "ev_charging_power",
    "ev_present", "evcharger_present", "water_level", "water_valve", "pump_switch",
    "water_pump_mode", "pump_mode", "water_valve_mode", "discovered_water_ev",
    "booleans", "features", "inverter_available", "controller_controls_available", "ess_mode",
    "ess_mode_observed_at", "ess_mode_controls_available", "dry_run", "daily_stats",
    "solar_forecast",
    "limits", "loop_interval", "filtered_gt", "dvcc_limits", "perf", "ui_config",
    "version", "uptime", "grid_control_valid", "grid_control_reason"]

/-- `IsMQTTOwnedKey`. -/
def isMQTTOwnedKey (key : String) : Bool := isControlFlag key || mqttOwnedKeys.contains key

/-- `haOwnsField`. -/
def haOwnsField (key entity : String) : Bool := !isMQTTOwnedKey key && !isControlFlag entity

/-! ## Configuration -/

/-- `config.EntityConfig`. -/
structure EntityConfig where
  key : String
  entity : String
  order : ℤ := 0
  enabled : Option Bool := none

/-- `config.BooleanEntityConfig`. -/
structure BooleanEntityConfig where
  key : String
  entity : String

/-- `FilteredEntityConfig`: the rich display entities. -/
structure FilteredEntityConfig where
  covers : List String := []
  mediaPlayers : List String := []
  scenes : List String := []
  numbers : List String := []
  sensors : List String := []
  weather : String := ""

/-- `config.HomeAssistantConfig`. -/
structure HomeAssistantConfig where
  directControls : Bool := true
  booleanEntities : List BooleanEntityConfig := []
  switchEntities : List EntityConfig := []
  applianceEntities : List (String × String) := []
  sensorEntities : List (String × String) := []
  filteredEntities : Option FilteredEntityConfig := none

/-- `Button`. -/
structure Button where
  entity : String
  stateKey : String
  order : ℤ

/-- `convertConfigSwitchEntities`. -/
def convertConfigSwitchEntities (entities : List EntityConfig) : List Button :=
  ((entities.filter fun e =>
      e.enabled != some false && e.entity != "" && haOwnsField e.key e.entity).map fun e =>
    ({ entity := e.entity, stateKey := e.key, order := e.order } : Button)).insertionSort
      fun a b => a.order ≤ b.order

/-- The configured part of `Client`. The maps are lists of entries with different keys, in any
order. -/
structure Client where
  configured : Bool
  directMode : Bool
  booleanEntities : List (String × String)
  switchEntities : List Button
  applianceEntities : List (String × String)
  sensorEntities : List (String × String)
  filteredEntities : Option FilteredEntityConfig

/-- `NewClient`, with the verdict of `validateConfig` on address and token. -/
def newClient (cfg : HomeAssistantConfig) (configured : Bool) : Client where
  configured := configured
  directMode := cfg.directControls
  booleanEntities := lastWins (cfg.booleanEntities.map fun e => (e.key, e.entity))
  switchEntities := convertConfigSwitchEntities cfg.switchEntities
  applianceEntities := lastWins cfg.applianceEntities
  sensorEntities := lastWins cfg.sensorEntities
  filteredEntities := cfg.filteredEntities

/-- `IsDirectMode`. -/
def Client.isDirectMode (c : Client) : Bool := c.configured && c.directMode

/-- The configured boolean and switch entries. -/
def Client.toggles (c : Client) : List (String × String) :=
  c.booleanEntities ++ c.switchEntities.map fun b => (b.stateKey, b.entity)

/-- `IsToggleAllowed`. -/
def Client.isToggleAllowed (c : Client) (entity : String) : Bool :=
  c.configured && entity != "" && c.toggles.any fun e => e.2 == entity && haOwnsField e.1 e.2

/-- `GetManagedKeys`. -/
def Client.getManagedKeys (c : Client) : List String :=
  ((c.toggles ++ c.applianceEntities ++ c.sensorEntities).filter fun e =>
    haOwnsField e.1 e.2).map Prod.fst

/-- A configured button is owned by Home Assistant. -/
theorem owned_of_mem_switchEntities {cfg : HomeAssistantConfig} {configured : Bool} {b : Button}
    (h : b ∈ (newClient cfg configured).switchEntities) :
    haOwnsField b.stateKey b.entity = true := by
  obtain ⟨e, he, rfl⟩ := List.mem_map.mp ((List.mem_insertionSort _).mp h)
  exact (Bool.and_eq_true_iff.mp (List.mem_filter.mp he).2).2

/-- A managed key is not one of the MQTT side. -/
theorem not_owned_of_mem_managedKeys {c : Client} {key : String} (h : key ∈ c.getManagedKeys) :
    isMQTTOwnedKey key = false := by
  obtain ⟨e, he, rfl⟩ := List.mem_map.mp h
  have howns := (List.mem_filter.mp he).2
  simp only [haOwnsField, Bool.and_eq_true, Bool.not_eq_true'] at howns
  exact howns.1

/-! ## Documents -/

/-- `EntityState`. A missing map of attributes reads like an empty one. -/
structure EntityState where
  entityID : String
  state : String
  attributes : Frame := []

/-- `strings.Split(entityID, ".")[0]`. -/
def domainOf (entity : String) : String := String.ofList (entity.toList.takeWhile (· != '.'))

/-- `friendlyName`. -/
def EntityState.friendlyName (doc : EntityState) : String :=
  match entry doc.attributes "friendly_name" with
  | some (.string name) => if name = "" then doc.entityID else name
  | _ => doc.entityID

/-- `attrString`. -/
def EntityState.attrString (doc : EntityState) (key : String) : String :=
  ((entry doc.attributes key).bind Any.string?).getD ""

/-- `attrFloat`. -/
def EntityState.attrFloat (doc : EntityState) (key : String) : Option F64 :=
  match entry doc.attributes key with
  | some (.float64 x) => if x.isFinite then some x else none
  | some (.int n) => some (F64.ofInt n)
  | some (.string s) => parseFiniteNumber s
  | _ => none

/-- `numberBounds`: a bound that is there but no number is not replaced by a default. -/
def numberBounds (doc : EntityState) : Option (F64 × F64) :=
  let minimum := doc.attrFloat "min"
  let maximum := doc.attrFloat "max"
  if ((entry doc.attributes "min").isSome && minimum.isNone) ||
      ((entry doc.attributes "max").isSome && maximum.isNone) then none
  else
    let lo := minimum.getD 0
    let hi := maximum.getD 0
    let hi := if lo.eq 0 && hi.eq 0 then 100 else hi
    if lo.le hi then some (lo, hi) else none

/-- Bounds are numbers, the lower one first. -/
theorem numberBounds_ordered {doc : EntityState} {lo hi : F64}
    (h : numberBounds doc = some (lo, hi)) : lo.le hi = true := by
  unfold numberBounds at h
  simp only at h
  split_ifs at h
  · obtain ⟨rfl, rfl⟩ := Prod.mk.inj (Option.some.inj h)
    assumption
  · obtain ⟨rfl, rfl⟩ := Prod.mk.inj (Option.some.inj h)
    assumption

/-- A missing configuration and an empty one are the same. -/
def filteredEmpty (f : Option FilteredEntityConfig) : Bool :=
  f.all fun f => f.covers.isEmpty && f.mediaPlayers.isEmpty && f.scenes.isEmpty &&
    f.numbers.isEmpty && f.sensors.isEmpty && f.weather == ""

/-- `filteredAll`: every configured identifier once, in the order of the lists. -/
def filteredAll (f : FilteredEntityConfig) : List String :=
  ((f.covers ++ f.mediaPlayers ++ f.scenes ++ f.numbers ++ f.sensors ++ [f.weather]).filter
    (· != "")).reverse.dedup.reverse

/-- `BuildFilteredDisplays`. -/
def buildFilteredDisplays (docs : String → Option EntityState) (f : FilteredEntityConfig) : Any :=
  let get (id : String) : Option EntityState := if id = "" then none else docs id
  let sensor (doc : EntityState) : Any :=
    .object [("entity_id", .string doc.entityID), ("name", .string doc.friendlyName),
      ("state", .string doc.state), ("unit", .string (doc.attrString "unit_of_measurement"))]
  let number (doc : EntityState) : Option Any := do
    let value ← (doc.attrFloat "state").or (parseFiniteNumber doc.state)
    if doc.state = "unavailable" ∨ doc.state = "unknown" then none
    else
      let (lo, hi) ← numberBounds doc
      let step := (doc.attrFloat "step").getD 0
      let step := if step.eq 0 then 1 else step
      return .object [("entity_id", .string doc.entityID), ("name", .string doc.friendlyName),
        ("value", .float64 value), ("min", .float64 lo), ("max", .float64 hi),
        ("step", .float64 step), ("unit", .string (doc.attrString "unit_of_measurement"))]
  let cover (doc : EntityState) : Any :=
    let pos := (doc.attrFloat "current_position").getD (if doc.state = "open" then 100 else 0)
    .object [("entity_id", .string doc.entityID), ("name", .string doc.friendlyName),
      ("position", .int pos.toInt)]
  let player (doc : EntityState) : Any :=
    .object [("entity_id", .string doc.entityID), ("name", .string doc.friendlyName),
      ("state", .string doc.state)]
  let scene (doc : EntityState) : Any :=
    .object [("entity_id", .string doc.entityID), ("name", .string doc.friendlyName)]
  let weather (doc : EntityState) : Any :=
    .object [("entity_id", .string doc.entityID), ("name", .string doc.friendlyName),
      ("state", .string doc.state),
      ("temperature", .float64 ((doc.attrFloat "temperature").getD 0)),
      ("unit", .string (doc.attrString "temperature_unit")),
      ("forecast", (entry doc.attributes "forecast").getD (.list []))]
  .object [("sensors", .list ((f.sensors.filterMap get).map sensor)),
    ("numbers", .list ((f.numbers.filterMap get).filterMap number)),
    ("covers", .list ((f.covers.filterMap get).map cover)),
    ("media_players", .list ((f.mediaPlayers.filterMap get).map player)),
    ("scenes", .list ((f.scenes.filterMap get).map scene)),
    ("weather", ((get f.weather).map weather).getD .nil)]

/-! ## States as values -/

/-- `isOn`. -/
def isOn (state : String) : Bool := ["on", "true", "yes", "1"].contains (toLower state)

/-- `homeSwitchState`: any other text is unknown. -/
def homeSwitchState (raw : String) : Any :=
  let word := toLower (trimSpace raw)
  if ["on", "true", "yes", "1"].contains word then .bool true
  else if ["off", "false", "no", "0"].contains word then .bool false
  else .nil

/-- `parseApplianceField`, on a 64-bit target. -/
def parseApplianceField (stateKey entity raw : String) : Any :=
  let domain := domainOf entity
  if ["binary_sensor", "switch", "light", "input_boolean"].contains domain then .bool (isOn raw)
  else if domain == "sensor" && hasSuffix stateKey "_power" then
    match parseFiniteNumber raw with
    | some x => .bool (F64.lt 1 x)
    | none => .bool (isOn raw)
  else .int (parseStateToSeconds .bits64 raw)

end HomeAssistant

end Dashboard
