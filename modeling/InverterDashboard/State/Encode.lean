import InverterDashboard.Go.Encoder
import InverterDashboard.Lib.MapFill
import InverterDashboard.State.State

set_option relaxedAutoImplicit false
set_option autoImplicit false

/-!
# The state as a JSON object

`stateToMap` of `internal/websocket/handler.go`: the state is marshalled and read back as a map. A
state with an infinite or undefined number cannot be marshalled, and then the map is nil.

## Main definitions

* `Dashboard.Battery.outFields` and its namesakes — the tables for marshalling the records.
* `Dashboard.FieldType.encoder`, `Dashboard.Field.omitted` — how a member is marshalled.
* `Dashboard.stateToMap` — the map.

## Main results

* `Dashboard.lookup_stateToMap` — what the map holds under the name of a member.
-/

namespace Dashboard

open Go

/-! ## Records -/

/-- `state.DailyStats`. -/
def DailyStats.outFields : List (OutField DailyStats) :=
  [.always "grid_energy" Encoder.any (·.gridEnergy),
   .always "solar_kwh" Encoder.float64 (·.solarKWh),
   .always "solar_money" Encoder.float64 (·.solarMoney),
   .always "grid_kwh" Encoder.float64 (·.gridKWh),
   .always "grid_money" Encoder.float64 (·.gridMoney),
   .always "batt_in_kwh" Encoder.float64 (·.battInKWh),
   .always "batt_out_kwh" Encoder.float64 (·.battOutKWh),
   .always "batt_net_kwh" Encoder.float64 (·.battNetKWh),
   .always "produced_yesterday" Encoder.float64 (·.producedYesterday),
   .always "pv_inverter_daily" (Encoder.slice Encoder.float64) (·.pvInverterDaily),
   .always "pv_inverter_yesterday" (Encoder.slice Encoder.float64) (·.pvInverterYesterday),
   .always "mppt_yesterday" (Encoder.slice Encoder.float64) (·.mpptYesterday),
   .always "produced_today" Encoder.float64 (·.producedToday),
   .always "produced_dollars" Encoder.float64 (·.producedDollars),
   .always "battery_in" Encoder.float64 (·.batteryIn),
   .always "battery_out" Encoder.float64 (·.batteryOut),
   .always "battery_in_yesterday" Encoder.float64 (·.batteryInYesterday),
   .always "battery_out_yesterday" Encoder.float64 (·.batteryOutYesterday),
   .always "mppt_daily" (Encoder.slice Encoder.float64) (·.mpptDaily),
   .always "pv_total_daily" Encoder.float64 (·.pvTotalDaily)]

/-- `state.SolarSource`. -/
def SolarSource.outFields : List (OutField SolarSource) :=
  [.always "name" Encoder.string (·.name),
   .omitFloat64 "pv_voltage" (·.pvVoltage),
   .always "current" Encoder.float64 (·.current),
   .always "power" Encoder.float64 (·.power)]

/-- `state.Battery`. -/
def Battery.outFields : List (OutField Battery) :=
  [.omitString "instance" (·.inst),
   .omitString "serial" (·.serial),
   .omitNil "temperature" Encoder.float64 (·.temperature),
   .omitNil "min_cell_voltage" Encoder.float64 (·.minCellVoltage),
   .omitNil "max_cell_voltage" Encoder.float64 (·.maxCellVoltage),
   .omitString "min_voltage_cell_id" (·.minVoltageCellID),
   .omitString "max_voltage_cell_id" (·.maxVoltageCellID),
   .omitEmpty "telemetry_available" (Encoder.map Encoder.bool) OutField.emptyMap
     (·.telemetryAvailable),
   .always "name" Encoder.string (·.name),
   .always "voltage" Encoder.float64 (·.voltage),
   .always "current" Encoder.float64 (·.current),
   .always "power" Encoder.float64 (·.power),
   .always "soc" Encoder.float64 (·.soc),
   .omitString "state" (·.state),
   .omitString "time_to_go" (·.timeToGo)]

/-- `state.ESSMode`. -/
def ESSMode.outFields : List (OutField ESSMode) :=
  [.omitString "selected" (·.selected),
   .always "selection_supported" Encoder.bool (·.selectionSupported),
   .omitString "request_id" (·.requestID),
   .omitString "error" (·.error),
   .omitNil "vebus_mode" Encoder.int (·.vebusMode),
   .always "battery_life_state" Encoder.int (·.batteryLifeState),
   .always "hub4_mode" Encoder.int (·.hub4Mode),
   .always "is_external" Encoder.bool (·.isExternal),
   .always "mode_name" Encoder.string (·.modeName)]

/-- `state.SolarForecast`. -/
def SolarForecast.outFields : List (OutField SolarForecast) :=
  [.omitString "date" (·.date),
   .omitString "generated_at" (·.generatedAt),
   .omitFloat64 "today_kwh" (·.todayKWh),
   .omitFloat64 "tomorrow_kwh" (·.tomorrowKWh)]

/-- `state.Notification`. -/
def Notification.outFields : List (OutField Notification) :=
  [.always "id" Encoder.string (·.id),
   .always "level" Encoder.string (·.level),
   .always "title" Encoder.string (·.title),
   .always "body" Encoder.string (·.body),
   .always "source" Encoder.string (·.source),
   .omitString "ts" (·.ts)]

/-- `state.CameraEvent`. -/
def CameraEvent.outFields : List (OutField CameraEvent) :=
  [.always "camera" Encoder.string (·.camera),
   .always "url" Encoder.string (·.url),
   .omitString "ts" (·.ts)]

/-- `state.Charger`. -/
def Charger.outFields : List (OutField Charger) :=
  [.omitString "instance" (·.inst),
   .omitString "serial" (·.serial),
   .omitEmpty "telemetry_available" (Encoder.map Encoder.bool) OutField.emptyMap
     (·.telemetryAvailable),
   .always "name" Encoder.string (·.name),
   .omitFloat64 "pv_voltage" (·.pvVoltage),
   .always "current" Encoder.float64 (·.current),
   .always "power" Encoder.float64 (·.power)]

/-- `state.CerboDevice`. -/
def CerboDevice.outFields : List (OutField CerboDevice) :=
  [.always "kind" Encoder.string (·.kind),
   .always "instance" Encoder.int (·.inst),
   .always "name" Encoder.string (·.name),
   .omitNil "soc" Encoder.float64 (·.soc),
   .omitNil "power" Encoder.float64 (·.power)]

/-- `state.GridBackupStatus`. -/
def GridBackupStatus.outFields : List (OutField GridBackupStatus) :=
  [.always "enabled" Encoder.bool (·.enabled),
   .always "available" Encoder.bool (·.available),
   .always "service" (Encoder.ptr Encoder.string) (·.service),
   .always "device_instance" (Encoder.ptr Encoder.int) (·.deviceInstance),
   .always "name" (Encoder.ptr Encoder.string) (·.name),
   .always "power" (Encoder.ptr Encoder.float64) (·.power),
   .always "measurement_time" (Encoder.ptr Encoder.float64) (·.measurementTime),
   .always "age_seconds" (Encoder.ptr Encoder.float64) (·.ageSeconds)]

/-- `state.SetpointOverrideStatus`. -/
def SetpointOverrideStatus.outFields : List (OutField SetpointOverrideStatus) :=
  [.always "value" (Encoder.ptr Encoder.int) (·.value),
   .always "last_error" (Encoder.ptr Encoder.string) (·.lastError),
   .always "request_id" (Encoder.ptr Encoder.string) (·.requestID)]

/-! ## Members -/

namespace FieldType

/-- How a member of a type is marshalled. -/
def encoder : (t : FieldType) → Encoder t.denote
  | .bool => Encoder.bool
  | .int => Encoder.int
  | .float64 => Encoder.float64
  | .string => Encoder.string
  | .ptrBool => Encoder.ptr Encoder.bool
  | .ptrFloat64 => Encoder.ptr Encoder.float64
  | .ptrString => Encoder.ptr Encoder.string
  | .mapAny => Encoder.map Encoder.any
  | .mapBool => Encoder.map Encoder.bool
  | .mapFloat64 => Encoder.map Encoder.float64
  | .mapString => Encoder.map Encoder.string
  | .sliceString => Encoder.slice Encoder.string
  | .sliceFloat64 => Encoder.slice Encoder.float64
  | .essMode => Encoder.struct ESSMode.outFields
  | .dailyStats => Encoder.struct DailyStats.outFields
  | .ptrSetpointOverride => Encoder.ptr (Encoder.struct SetpointOverrideStatus.outFields)
  | .ptrGridBackup => Encoder.ptr (Encoder.struct GridBackupStatus.outFields)
  | .ptrSolarForecast => Encoder.ptr (Encoder.struct SolarForecast.outFields)
  | .ptrCameraEvent => Encoder.ptr (Encoder.struct CameraEvent.outFields)
  | .sliceNotification => Encoder.slice (Encoder.struct Notification.outFields)
  | .sliceBattery => Encoder.slice (Encoder.struct Battery.outFields)
  | .sliceSolarSource => Encoder.slice (Encoder.struct SolarSource.outFields)
  | .sliceCharger => Encoder.slice (Encoder.struct Charger.outFields)
  | .sliceCerboDevice => Encoder.slice (Encoder.struct CerboDevice.outFields)

/-- The empty values of `omitempty`. A struct is never empty. -/
def isEmpty : (t : FieldType) → t.denote → Bool
  | .bool => fun b => !b
  | .int => fun n => decide (n = 0)
  | .float64 => fun x => x.eq 0
  | .string => fun s => s == ""
  | .ptrBool | .ptrFloat64 | .ptrString | .ptrSetpointOverride | .ptrGridBackup
  | .ptrSolarForecast | .ptrCameraEvent => Option.isNone
  | .mapAny | .mapBool | .mapFloat64 | .mapString => OutField.emptyMap
  | .sliceString | .sliceFloat64 | .sliceNotification | .sliceBattery | .sliceSolarSource
  | .sliceCharger | .sliceCerboDevice => OutField.emptySlice
  | .essMode | .dailyStats => fun _ => false

end FieldType

namespace Field

/-- The members whose tag says `omitempty`. -/
def omitEmpty : List Field :=
  [.gridL1Available, .gridL2Available, .gridL3Available, .inverterAvailable, .uiConfig, .limits,
    .perf, .loopInterval, .gridControlValid, .gridLossState, .gridLossZeroApplied,
    .telemetryAvailable, .gatewayCapabilities, .solarForecast, .uptime, .haConnected,
    .haDirectConnected, .version, .dashboardVersion, .console, .cameraEvent, .solarSources,
    .dishwasherRunning, .dishwasherDuration, .dishwasherTime, .dishwasherActive, .washerTime,
    .washerPower, .dryerTime, .dryerPower, .onlyCharging, .noFeed, .houseSupport, .chargeBattery,
    .doNotSupplyCharger, .setLimitToEVCharger, .minimizeCharging]

/-- A member that is left out. -/
def omitted (f : Field) (st : State) : Bool :=
  omitEmpty.contains f && f.type.isEmpty (st.field f)

/-- The member in the table of the state. -/
def out (f : Field) : OutField State :=
  ⟨f.jsonName, f.omitted, fun st => f.type.encoder (st.field f)⟩

end Field

/-! ## The map -/

/-- `json.Marshal` of a state, read back as the entries of an object. -/
def marshalState (st : State) : Option (List (String × Any)) :=
  Encoder.structFields (Field.all.map Field.out) st

/-- `stateToMap`: the errors are ignored, so a state that cannot be marshalled is a nil map. -/
def stateToMap (st : State) : GoMap Any :=
  (marshalState st).map fun es => es.foldl (fun m e => m.insert e.1 e.2) ∅

/-- A map filled from entries with different keys holds the entries. -/
theorem lookup_foldl_insert_of_nodup {α : Type} {es : List (String × α)}
    (hn : (es.map Prod.fst).Nodup) (m : StrMap α) (k : String) :
    (es.foldl (fun m e => m.insert e.1 e.2) m).lookup k = (es.lookup k).or (m.lookup k) := by
  cases hk : es.lookup k with
  | none =>
    have hnot : k ∉ es.map Prod.fst := by
      rw [List.mem_map]
      rintro ⟨e, he, rfl⟩
      simpa using List.lookup_eq_none_iff.mp hk e he
    show (MapFill.fill Prod.fst (fun e => some e.2) es m).lookup k = m.lookup k
    exact MapFill.lookup_fill_of_notMem hnot m
  | some v =>
    obtain ⟨l₁, l₂, rfl, -⟩ := List.lookup_eq_some_iff.mp hk
    exact MapFill.lookup_foldl_insert Prod.snd hn (List.mem_append_right l₁ List.mem_cons_self) m

/-- **The map of a state.** Under the name of a member the map holds the marshalled member, or
nothing when the member is left out. -/
theorem lookup_stateToMap {st : State} {m : StrMap Any} (h : stateToMap st = some m) (f : Field) :
    m.lookup f.jsonName = if f.omitted st then none else f.type.encoder (st.field f) := by
  obtain ⟨es, hes, rfl⟩ := Option.map_eq_some_iff.mp h
  have hnames : ((Field.all.map Field.out).map OutField.name).Nodup := by
    have heq : (Field.all.map Field.out).map OutField.name = Field.all.map Field.jsonName := by
      rw [List.map_map]
      rfl
    rw [heq]
    exact (List.nodup_map_iff Field.jsonName_injective).mpr (by decide)
  have hnd : (es.map Prod.fst).Nodup := by
    rw [Encoder.names_structFields hes]
    exact hnames.sublist (List.filter_sublist.map _)
  rw [lookup_foldl_insert_of_nodup hnd, AList.lookup_empty, Option.or_none]
  exact Encoder.lookup_structFields hnames hes (List.mem_map_of_mem f.mem_all)

end Dashboard
