import InverterDashboard.Go.Decoder

set_option relaxedAutoImplicit false
set_option autoImplicit false

/-!
# The record types inside the dashboard state

The structs of `internal/state` that the state holds, each with its zero value as default and
the table of its JSON members, in the order of the source.

## Main definitions

* `Dashboard.ESSMode`, `Battery`, `Charger`, `CerboDevice`, `Notification`,
  `SetpointOverrideStatus`, `GridBackupStatus`, ... — the structs.
* `Dashboard.ESSMode.members` and its namesakes — the tables `Go.Decoder.struct` reads.
-/

namespace Dashboard

open Go

/-- Daily statistics of the controller (`state.DailyStats`). -/
structure DailyStats where
  gridEnergy : Any := .nil
  solarKWh : F64 := 0
  solarMoney : F64 := 0
  gridKWh : F64 := 0
  gridMoney : F64 := 0
  battInKWh : F64 := 0
  battOutKWh : F64 := 0
  battNetKWh : F64 := 0
  producedYesterday : F64 := 0
  pvInverterDaily : GoSlice F64 := .nil
  pvInverterYesterday : GoSlice F64 := .nil
  mpptYesterday : GoSlice F64 := .nil
  producedToday : F64 := 0
  producedDollars : F64 := 0
  batteryIn : F64 := 0
  batteryOut : F64 := 0
  batteryInYesterday : F64 := 0
  batteryOutYesterday : F64 := 0
  mpptDaily : GoSlice F64 := .nil
  pvTotalDaily : F64 := 0

/-- The JSON members of `state.DailyStats`. -/
def DailyStats.members : List (StructField DailyStats) :=
  [.of "grid_energy" .any (·.gridEnergy) fun s v => { s with gridEnergy := v },
   .of "solar_kwh" .float64 (·.solarKWh) fun s v => { s with solarKWh := v },
   .of "solar_money" .float64 (·.solarMoney) fun s v => { s with solarMoney := v },
   .of "grid_kwh" .float64 (·.gridKWh) fun s v => { s with gridKWh := v },
   .of "grid_money" .float64 (·.gridMoney) fun s v => { s with gridMoney := v },
   .of "batt_in_kwh" .float64 (·.battInKWh) fun s v => { s with battInKWh := v },
   .of "batt_out_kwh" .float64 (·.battOutKWh) fun s v => { s with battOutKWh := v },
   .of "batt_net_kwh" .float64 (·.battNetKWh) fun s v => { s with battNetKWh := v },
   .of "produced_yesterday" .float64 (·.producedYesterday)
     fun s v => { s with producedYesterday := v },
   .of "pv_inverter_daily" (.slice 0 .float64) (·.pvInverterDaily)
     fun s v => { s with pvInverterDaily := v },
   .of "pv_inverter_yesterday" (.slice 0 .float64) (·.pvInverterYesterday)
     fun s v => { s with pvInverterYesterday := v },
   .of "mppt_yesterday" (.slice 0 .float64) (·.mpptYesterday)
     fun s v => { s with mpptYesterday := v },
   .of "produced_today" .float64 (·.producedToday) fun s v => { s with producedToday := v },
   .of "produced_dollars" .float64 (·.producedDollars) fun s v => { s with producedDollars := v },
   .of "battery_in" .float64 (·.batteryIn) fun s v => { s with batteryIn := v },
   .of "battery_out" .float64 (·.batteryOut) fun s v => { s with batteryOut := v },
   .of "battery_in_yesterday" .float64 (·.batteryInYesterday)
     fun s v => { s with batteryInYesterday := v },
   .of "battery_out_yesterday" .float64 (·.batteryOutYesterday)
     fun s v => { s with batteryOutYesterday := v },
   .of "mppt_daily" (.slice 0 .float64) (·.mpptDaily) fun s v => { s with mpptDaily := v },
   .of "pv_total_daily" .float64 (·.pvTotalDaily) fun s v => { s with pvTotalDaily := v }]

/-- One solar source (`state.SolarSource`). -/
structure SolarSource where
  name : String := ""
  pvVoltage : F64 := 0
  current : F64 := 0
  power : F64 := 0
  deriving DecidableEq

/-- The JSON members of `state.SolarSource`. -/
def SolarSource.members : List (StructField SolarSource) :=
  [.of "name" .string (·.name) fun s v => { s with name := v },
   .of "pv_voltage" .float64 (·.pvVoltage) fun s v => { s with pvVoltage := v },
   .of "current" .float64 (·.current) fun s v => { s with current := v },
   .of "power" .float64 (·.power) fun s v => { s with power := v }]

/-- One battery (`state.Battery`). -/
structure Battery where
  inst : String := ""
  serial : String := ""
  temperature : Option F64 := none
  minCellVoltage : Option F64 := none
  maxCellVoltage : Option F64 := none
  minVoltageCellID : String := ""
  maxVoltageCellID : String := ""
  telemetryAvailable : GoMap Bool := none
  name : String := ""
  voltage : F64 := 0
  current : F64 := 0
  power : F64 := 0
  soc : F64 := 0
  state : String := ""
  timeToGo : String := ""
  deriving DecidableEq

/-- The JSON members of `state.Battery`. -/
def Battery.members : List (StructField Battery) :=
  [.of "instance" .string (·.inst) fun s v => { s with inst := v },
   .of "serial" .string (·.serial) fun s v => { s with serial := v },
   .of "temperature" (.ptr 0 .float64) (·.temperature) fun s v => { s with temperature := v },
   .of "min_cell_voltage" (.ptr 0 .float64) (·.minCellVoltage)
     fun s v => { s with minCellVoltage := v },
   .of "max_cell_voltage" (.ptr 0 .float64) (·.maxCellVoltage)
     fun s v => { s with maxCellVoltage := v },
   .of "min_voltage_cell_id" .string (·.minVoltageCellID)
     fun s v => { s with minVoltageCellID := v },
   .of "max_voltage_cell_id" .string (·.maxVoltageCellID)
     fun s v => { s with maxVoltageCellID := v },
   .of "telemetry_available" (.map false .bool) (·.telemetryAvailable)
     fun s v => { s with telemetryAvailable := v },
   .of "name" .string (·.name) fun s v => { s with name := v },
   .of "voltage" .float64 (·.voltage) fun s v => { s with voltage := v },
   .of "current" .float64 (·.current) fun s v => { s with current := v },
   .of "power" .float64 (·.power) fun s v => { s with power := v },
   .of "soc" .float64 (·.soc) fun s v => { s with soc := v },
   .of "state" .string (·.state) fun s v => { s with state := v },
   .of "time_to_go" .string (·.timeToGo) fun s v => { s with timeToGo := v }]

/-- The ESS mode (`state.ESSMode`). -/
structure ESSMode where
  selected : String := ""
  selectionSupported : Bool := false
  requestID : String := ""
  error : String := ""
  vebusMode : Option ℤ := none
  batteryLifeState : ℤ := 0
  hub4Mode : ℤ := 0
  isExternal : Bool := false
  modeName : String := ""
  deriving DecidableEq

/-- The JSON members of `state.ESSMode`. -/
def ESSMode.members : List (StructField ESSMode) :=
  [.of "selected" .string (·.selected) fun s v => { s with selected := v },
   .of "selection_supported" .bool (·.selectionSupported)
     fun s v => { s with selectionSupported := v },
   .of "request_id" .string (·.requestID) fun s v => { s with requestID := v },
   .of "error" .string (·.error) fun s v => { s with error := v },
   .of "vebus_mode" (.ptr 0 .int) (·.vebusMode) fun s v => { s with vebusMode := v },
   .of "battery_life_state" .int (·.batteryLifeState) fun s v => { s with batteryLifeState := v },
   .of "hub4_mode" .int (·.hub4Mode) fun s v => { s with hub4Mode := v },
   .of "is_external" .bool (·.isExternal) fun s v => { s with isExternal := v },
   .of "mode_name" .string (·.modeName) fun s v => { s with modeName := v }]

/-- The forecast of the controller (`state.SolarForecast`). -/
structure SolarForecast where
  date : String := ""
  generatedAt : String := ""
  todayKWh : F64 := 0
  tomorrowKWh : F64 := 0
  deriving DecidableEq

/-- The JSON members of `state.SolarForecast`. -/
def SolarForecast.members : List (StructField SolarForecast) :=
  [.of "date" .string (·.date) fun s v => { s with date := v },
   .of "generated_at" .string (·.generatedAt) fun s v => { s with generatedAt := v },
   .of "today_kwh" .float64 (·.todayKWh) fun s v => { s with todayKWh := v },
   .of "tomorrow_kwh" .float64 (·.tomorrowKWh) fun s v => { s with tomorrowKWh := v }]

/-- A banner (`state.Notification`). `pushIncomplete` is not part of the JSON schema. -/
structure Notification where
  pushIncomplete : Bool := false
  id : String := ""
  level : String := ""
  title : String := ""
  body : String := ""
  source : String := ""
  ts : String := ""
  deriving DecidableEq

/-- The JSON members of `state.Notification`. -/
def Notification.members : List (StructField Notification) :=
  [.of "id" .string (·.id) fun s v => { s with id := v },
   .of "level" .string (·.level) fun s v => { s with level := v },
   .of "title" .string (·.title) fun s v => { s with title := v },
   .of "body" .string (·.body) fun s v => { s with body := v },
   .of "source" .string (·.source) fun s v => { s with source := v },
   .of "ts" .string (·.ts) fun s v => { s with ts := v }]

/-- The latest camera event (`state.CameraEvent`). -/
structure CameraEvent where
  camera : String := ""
  url : String := ""
  ts : String := ""
  deriving DecidableEq

/-- The JSON members of `state.CameraEvent`. -/
def CameraEvent.members : List (StructField CameraEvent) :=
  [.of "camera" .string (·.camera) fun s v => { s with camera := v },
   .of "url" .string (·.url) fun s v => { s with url := v },
   .of "ts" .string (·.ts) fun s v => { s with ts := v }]

/-- A solar charger or a PV inverter (`state.Charger`). -/
structure Charger where
  inst : String := ""
  serial : String := ""
  telemetryAvailable : GoMap Bool := none
  name : String := ""
  pvVoltage : F64 := 0
  current : F64 := 0
  power : F64 := 0
  deriving DecidableEq

/-- The JSON members of `state.Charger`. -/
def Charger.members : List (StructField Charger) :=
  [.of "instance" .string (·.inst) fun s v => { s with inst := v },
   .of "serial" .string (·.serial) fun s v => { s with serial := v },
   .of "telemetry_available" (.map false .bool) (·.telemetryAvailable)
     fun s v => { s with telemetryAvailable := v },
   .of "name" .string (·.name) fun s v => { s with name := v },
   .of "pv_voltage" .float64 (·.pvVoltage) fun s v => { s with pvVoltage := v },
   .of "current" .float64 (·.current) fun s v => { s with current := v },
   .of "power" .float64 (·.power) fun s v => { s with power := v }]

/-- A vehicle, charger, tank or pump on the Cerbo (`state.CerboDevice`). -/
structure CerboDevice where
  kind : String := ""
  inst : ℤ := 0
  name : String := ""
  soc : Option F64 := none
  power : Option F64 := none
  deriving DecidableEq

/-- The JSON members of `state.CerboDevice`. -/
def CerboDevice.members : List (StructField CerboDevice) :=
  [.of "kind" .string (·.kind) fun s v => { s with kind := v },
   .of "instance" .int (·.inst) fun s v => { s with inst := v },
   .of "name" .string (·.name) fun s v => { s with name := v },
   .of "soc" (.ptr 0 .float64) (·.soc) fun s v => { s with soc := v },
   .of "power" (.ptr 0 .float64) (·.power) fun s v => { s with power := v }]

/-- The backup meter (`state.GridBackupStatus`). -/
structure GridBackupStatus where
  enabled : Bool := false
  available : Bool := false
  service : Option String := none
  deviceInstance : Option ℤ := none
  name : Option String := none
  power : Option F64 := none
  measurementTime : Option F64 := none
  ageSeconds : Option F64 := none
  deriving DecidableEq

/-- The JSON members of `state.GridBackupStatus`. -/
def GridBackupStatus.members : List (StructField GridBackupStatus) :=
  [.of "enabled" .bool (·.enabled) fun s v => { s with enabled := v },
   .of "available" .bool (·.available) fun s v => { s with available := v },
   .of "service" (.ptr "" .string) (·.service) fun s v => { s with service := v },
   .of "device_instance" (.ptr 0 .uint32) (·.deviceInstance)
     fun s v => { s with deviceInstance := v },
   .of "name" (.ptr "" .string) (·.name) fun s v => { s with name := v },
   .of "power" (.ptr 0 .float64) (·.power) fun s v => { s with power := v },
   .of "measurement_time" (.ptr 0 .float64) (·.measurementTime)
     fun s v => { s with measurementTime := v },
   .of "age_seconds" (.ptr 0 .float64) (·.ageSeconds) fun s v => { s with ageSeconds := v }]

/-- The acknowledgement of the override (`state.SetpointOverrideStatus`). -/
structure SetpointOverrideStatus where
  value : Option ℤ := none
  lastError : Option String := none
  requestID : Option String := none
  deriving DecidableEq

/-- The JSON members of `state.SetpointOverrideStatus`. -/
def SetpointOverrideStatus.members : List (StructField SetpointOverrideStatus) :=
  [.of "value" (.ptr 0 .int32) (·.value) fun s v => { s with value := v },
   .of "last_error" (.ptr "" .string) (·.lastError) fun s v => { s with lastError := v },
   .of "request_id" (.ptr "" .string) (·.requestID) fun s v => { s with requestID := v }]

end Dashboard
