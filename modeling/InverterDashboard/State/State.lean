import InverterDashboard.State.Types

set_option relaxedAutoImplicit false
set_option autoImplicit false

/-!
# The dashboard state

`state.State` is a struct of about a hundred JSON members that the program reads and writes by
reflection: `clearStateField` resets the member with a given JSON name, and controller frames
are merged into it by `json.Unmarshal`. The members are therefore an enumeration `Field` with
their names and Go types, and a state is one value of the right type for each.

## Main definitions

* `Dashboard.FieldType`, `FieldType.denote` — the Go types of the members.
* `Dashboard.Field`, `Field.jsonName`, `Field.type` — the members.
* `Dashboard.State`, `State.set` — a state and the update of one member.
* `Dashboard.clearStateField` — the reset of a member.
* `Dashboard.matchField`, `State.unmarshalEntry` — `json.Unmarshal` of a one-member object.

## Main results

* `Dashboard.matchField_eq_some_iff` — a key selects the member its folding spells.
* `Dashboard.State.unmarshalEntry_of_ne` — decoding a key changes no other member.
-/

namespace Dashboard

open Go

/-- The Go types of the members of `state.State`. -/
inductive FieldType where
  | bool | int | float64 | string | ptrBool | ptrFloat64 | ptrString
  | mapAny | mapBool | mapFloat64 | mapString | sliceString | sliceFloat64
  | essMode | dailyStats | ptrSetpointOverride | ptrGridBackup | ptrSolarForecast
  | ptrCameraEvent | sliceNotification | sliceBattery | sliceSolarSource | sliceCharger
  | sliceCerboDevice
  deriving DecidableEq

namespace FieldType

/-- The values of a member type. -/
@[reducible] def denote : FieldType → Type
  | .bool => Bool
  | .int => ℤ
  | .float64 => F64
  | .string => String
  | .ptrBool => Option Bool
  | .ptrFloat64 => Option F64
  | .ptrString => Option String
  | .mapAny => GoMap Any
  | .mapBool => GoMap Bool
  | .mapFloat64 => GoMap F64
  | .mapString => GoMap String
  | .sliceString => GoSlice String
  | .sliceFloat64 => GoSlice F64
  | .essMode => ESSMode
  | .dailyStats => DailyStats
  | .ptrSetpointOverride => Option SetpointOverrideStatus
  | .ptrGridBackup => Option GridBackupStatus
  | .ptrSolarForecast => Option SolarForecast
  | .ptrCameraEvent => Option CameraEvent
  | .sliceNotification => GoSlice Notification
  | .sliceBattery => GoSlice Battery
  | .sliceSolarSource => GoSlice SolarSource
  | .sliceCharger => GoSlice Charger
  | .sliceCerboDevice => GoSlice CerboDevice

/-- The zero value of a type. -/
def zero : (t : FieldType) → t.denote
  | .bool => false
  | .int => (0 : ℤ)
  | .float64 => (0 : F64)
  | .string => ""
  | .ptrBool | .ptrFloat64 | .ptrString => none
  | .mapAny | .mapBool | .mapFloat64 | .mapString => none
  | .sliceString | .sliceFloat64 => GoSlice.nil
  | .essMode => ({} : ESSMode)
  | .dailyStats => ({} : DailyStats)
  | .ptrSetpointOverride | .ptrGridBackup | .ptrSolarForecast | .ptrCameraEvent => none
  | .sliceNotification | .sliceBattery | .sliceSolarSource | .sliceCharger
  | .sliceCerboDevice => GoSlice.nil

/-- What `clearStateField` puts in a member: an empty map, an empty slice, else zero. -/
def cleared : (t : FieldType) → t.denote
  | .mapAny => (some ∅ : GoMap Any)
  | .mapBool => (some ∅ : GoMap Bool)
  | .mapFloat64 => (some ∅ : GoMap F64)
  | .mapString => (some ∅ : GoMap String)
  | .sliceString | .sliceFloat64 | .sliceNotification | .sliceBattery | .sliceSolarSource
  | .sliceCharger | .sliceCerboDevice => GoSlice.ofList []
  | t => t.zero

/-- Decoding into a member. -/
def decoder : (t : FieldType) → Decoder t.denote
  | .bool => Decoder.bool
  | .int => Decoder.int
  | .float64 => Decoder.float64
  | .string => Decoder.string
  | .ptrBool => Decoder.ptr false Decoder.bool
  | .ptrFloat64 => Decoder.ptr 0 Decoder.float64
  | .ptrString => Decoder.ptr "" Decoder.string
  | .mapAny => Decoder.map Any.nil Decoder.any
  | .mapBool => Decoder.map false Decoder.bool
  | .mapFloat64 => Decoder.map 0 Decoder.float64
  | .mapString => Decoder.map "" Decoder.string
  | .sliceString => Decoder.slice "" Decoder.string
  | .sliceFloat64 => Decoder.slice 0 Decoder.float64
  | .essMode => Decoder.struct ESSMode.members
  | .dailyStats => Decoder.struct DailyStats.members
  | .ptrSetpointOverride => Decoder.ptr {} (Decoder.struct SetpointOverrideStatus.members)
  | .ptrGridBackup => Decoder.ptr {} (Decoder.struct GridBackupStatus.members)
  | .ptrSolarForecast => Decoder.ptr {} (Decoder.struct SolarForecast.members)
  | .ptrCameraEvent => Decoder.ptr {} (Decoder.struct CameraEvent.members)
  | .sliceNotification => Decoder.slice {} (Decoder.struct Notification.members)
  | .sliceBattery => Decoder.slice {} (Decoder.struct Battery.members)
  | .sliceSolarSource => Decoder.slice {} (Decoder.struct SolarSource.members)
  | .sliceCharger => Decoder.slice {} (Decoder.struct Charger.members)
  | .sliceCerboDevice => Decoder.slice {} (Decoder.struct CerboDevice.members)

/-- Whether a value fits a member: decoding it saves no error. -/
def accepts (t : FieldType) (value : Any) : Bool := (t.decoder value t.zero).2

/-- Whether a value fits does not depend on the old value. -/
theorem oblivious_decoder : (t : FieldType) → t.decoder.Oblivious
  | .bool => Decoder.oblivious_bool
  | .int => Decoder.oblivious_int
  | .float64 => Decoder.oblivious_float64
  | .string => Decoder.oblivious_string
  | .ptrBool => Decoder.oblivious_ptr Decoder.oblivious_bool
  | .ptrFloat64 => Decoder.oblivious_ptr Decoder.oblivious_float64
  | .ptrString => Decoder.oblivious_ptr Decoder.oblivious_string
  | .mapAny | .mapBool | .mapFloat64 | .mapString => Decoder.oblivious_map
  | .sliceString => Decoder.oblivious_slice Decoder.oblivious_string
  | .sliceFloat64 => Decoder.oblivious_slice Decoder.oblivious_float64
  | .essMode => Decoder.oblivious_struct (by simp [ESSMode.members])
  | .dailyStats => Decoder.oblivious_struct (by simp [DailyStats.members])
  | .ptrSetpointOverride =>
    Decoder.oblivious_ptr (Decoder.oblivious_struct (by simp [SetpointOverrideStatus.members]))
  | .ptrGridBackup =>
    Decoder.oblivious_ptr (Decoder.oblivious_struct (by simp [GridBackupStatus.members]))
  | .ptrSolarForecast =>
    Decoder.oblivious_ptr (Decoder.oblivious_struct (by simp [SolarForecast.members]))
  | .ptrCameraEvent =>
    Decoder.oblivious_ptr (Decoder.oblivious_struct (by simp [CameraEvent.members]))
  | .sliceNotification =>
    Decoder.oblivious_slice (Decoder.oblivious_struct (by simp [Notification.members]))
  | .sliceBattery => Decoder.oblivious_slice (Decoder.oblivious_struct (by simp [Battery.members]))
  | .sliceSolarSource =>
    Decoder.oblivious_slice (Decoder.oblivious_struct (by simp [SolarSource.members]))
  | .sliceCharger => Decoder.oblivious_slice (Decoder.oblivious_struct (by simp [Charger.members]))
  | .sliceCerboDevice =>
    Decoder.oblivious_slice (Decoder.oblivious_struct (by simp [CerboDevice.members]))

/-- Decoding into any value succeeds exactly when the value fits. -/
theorem decoder_snd (t : FieldType) (value : Any) (v : t.denote) :
    (t.decoder value v).2 = t.accepts value :=
  t.oblivious_decoder value v t.zero

end FieldType

/-- The JSON members of `state.State`, in the order of the source. -/
inductive Field where
  | setpointOverride | setpointOverrideObservedAt | setpointOverrideControlsAvailable
  | electricityTariffObservedAt | electricityTariffControlsAvailable | gridL1Available
  | gridL2Available | gridL3Available | gridBackup | gridUsingBackup | gridBackupObservedAt
  | inverterAvailable | uiConfig | dvccLimits | limits | perf | loopInterval | gridControlValid
  | gridControlReason | gridLossState | gridLossHoldSeconds | gridLossElapsed | gridLossRemaining
  | gridLossZeroApplied | telemetryAvailable | g3 | t3 | waterValveMode | pumpMode
  | waterPumpMode | gatewayCapabilities | booleans | features | dailyStats | essMode
  | essModeObservedAt | essModeControlsAvailable | solarForecast | solarTotal | mpptTotal
  | pvInverterTotal | pvTotal | gt | g1 | g2 | tt | t1 | t2 | bc | bv | bp | setpoint
  | batteryVoltage | batteryCurrent | batteryPower | batterySOC | inverterState | uptime
  | haConnected | haDirectConnected | version | dashboardVersion | console | notifications
  | cameraEvent | batteries | solarSources | mpptChargers | mpptIndividual | pvInverters | loads
  | loadNames | carChargingPower | carSOC | evChargingKW | evPower | evChargingPower | evPresent
  | evChargerPresent | discoveredWaterEV | waterLevel | waterValve | pumpSwitch
  | dishwasherRunning | dishwasherDuration | dishwasherTime | dishwasherActive | washerTime
  | washerPower | dryerTime | dryerPower | onlyCharging | noFeed | houseSupport | chargeBattery
  | doNotSupplyCharger | setLimitToEVCharger | minimizeCharging | dryRun
  deriving DecidableEq

namespace Field

/-- Every member, in the order of the source. -/
def all : List Field :=
  [.setpointOverride, .setpointOverrideObservedAt, .setpointOverrideControlsAvailable,
   .electricityTariffObservedAt, .electricityTariffControlsAvailable, .gridL1Available,
   .gridL2Available, .gridL3Available, .gridBackup, .gridUsingBackup, .gridBackupObservedAt,
   .inverterAvailable, .uiConfig, .dvccLimits, .limits, .perf, .loopInterval, .gridControlValid,
   .gridControlReason, .gridLossState, .gridLossHoldSeconds, .gridLossElapsed,
   .gridLossRemaining, .gridLossZeroApplied, .telemetryAvailable, .g3, .t3, .waterValveMode,
   .pumpMode, .waterPumpMode, .gatewayCapabilities, .booleans, .features, .dailyStats, .essMode,
   .essModeObservedAt, .essModeControlsAvailable, .solarForecast, .solarTotal, .mpptTotal,
   .pvInverterTotal, .pvTotal, .gt, .g1, .g2, .tt, .t1, .t2, .bc, .bv, .bp, .setpoint,
   .batteryVoltage, .batteryCurrent, .batteryPower, .batterySOC, .inverterState, .uptime,
   .haConnected, .haDirectConnected, .version, .dashboardVersion, .console, .notifications,
   .cameraEvent, .batteries, .solarSources, .mpptChargers, .mpptIndividual, .pvInverters, .loads,
   .loadNames, .carChargingPower, .carSOC, .evChargingKW, .evPower, .evChargingPower, .evPresent,
   .evChargerPresent, .discoveredWaterEV, .waterLevel, .waterValve, .pumpSwitch,
   .dishwasherRunning, .dishwasherDuration, .dishwasherTime, .dishwasherActive, .washerTime,
   .washerPower, .dryerTime, .dryerPower, .onlyCharging, .noFeed, .houseSupport, .chargeBattery,
   .doNotSupplyCharger, .setLimitToEVCharger, .minimizeCharging, .dryRun]

/-- The name in the JSON tag of a member. -/
def jsonName : Field → String
  | .setpointOverride => "setpoint_override"
  | .setpointOverrideObservedAt => "setpoint_override_observed_at"
  | .setpointOverrideControlsAvailable => "setpoint_override_controls_available"
  | .electricityTariffObservedAt => "electricity_tariff_observed_at"
  | .electricityTariffControlsAvailable => "electricity_tariff_controls_available"
  | .gridL1Available => "grid_l1_available"
  | .gridL2Available => "grid_l2_available"
  | .gridL3Available => "grid_l3_available"
  | .gridBackup => "grid_backup"
  | .gridUsingBackup => "grid_using_backup"
  | .gridBackupObservedAt => "grid_backup_observed_at"
  | .inverterAvailable => "inverter_available"
  | .uiConfig => "ui_config"
  | .dvccLimits => "dvcc_limits"
  | .limits => "limits"
  | .perf => "perf"
  | .loopInterval => "loop_interval"
  | .gridControlValid => "grid_control_valid"
  | .gridControlReason => "grid_control_reason"
  | .gridLossState => "grid_loss_state"
  | .gridLossHoldSeconds => "grid_loss_hold_seconds"
  | .gridLossElapsed => "grid_loss_elapsed"
  | .gridLossRemaining => "grid_loss_remaining"
  | .gridLossZeroApplied => "grid_loss_zero_applied"
  | .telemetryAvailable => "telemetry_available"
  | .g3 => "g3"
  | .t3 => "t3"
  | .waterValveMode => "water_valve_mode"
  | .pumpMode => "pump_mode"
  | .waterPumpMode => "water_pump_mode"
  | .gatewayCapabilities => "gateway_capabilities"
  | .booleans => "booleans"
  | .features => "features"
  | .dailyStats => "daily_stats"
  | .essMode => "ess_mode"
  | .essModeObservedAt => "ess_mode_observed_at"
  | .essModeControlsAvailable => "ess_mode_controls_available"
  | .solarForecast => "solar_forecast"
  | .solarTotal => "solar_total"
  | .mpptTotal => "mppt_total"
  | .pvInverterTotal => "pv_inverter_total"
  | .pvTotal => "pv_total"
  | .gt => "gt"
  | .g1 => "g1"
  | .g2 => "g2"
  | .tt => "tt"
  | .t1 => "t1"
  | .t2 => "t2"
  | .bc => "bc"
  | .bv => "bv"
  | .bp => "bp"
  | .setpoint => "setpoint"
  | .batteryVoltage => "battery_voltage"
  | .batteryCurrent => "battery_current"
  | .batteryPower => "battery_power"
  | .batterySOC => "battery_soc"
  | .inverterState => "inverter_state"
  | .uptime => "uptime"
  | .haConnected => "ha_connected"
  | .haDirectConnected => "ha_direct_connected"
  | .version => "version"
  | .dashboardVersion => "dashboard_version"
  | .console => "console"
  | .notifications => "notifications"
  | .cameraEvent => "camera_event"
  | .batteries => "batteries"
  | .solarSources => "solar_sources"
  | .mpptChargers => "mppt_chargers"
  | .mpptIndividual => "mppt_individual"
  | .pvInverters => "pv_inverters"
  | .loads => "loads"
  | .loadNames => "load_names"
  | .carChargingPower => "car_charging_power"
  | .carSOC => "car_soc"
  | .evChargingKW => "ev_charging_kw"
  | .evPower => "ev_power"
  | .evChargingPower => "ev_charging_power"
  | .evPresent => "ev_present"
  | .evChargerPresent => "evcharger_present"
  | .discoveredWaterEV => "discovered_water_ev"
  | .waterLevel => "water_level"
  | .waterValve => "water_valve"
  | .pumpSwitch => "pump_switch"
  | .dishwasherRunning => "dishwasher_running"
  | .dishwasherDuration => "dishwasher_duration"
  | .dishwasherTime => "dishwasher_time"
  | .dishwasherActive => "dishwasher_active"
  | .washerTime => "washer_time"
  | .washerPower => "washer_power"
  | .dryerTime => "dryer_time"
  | .dryerPower => "dryer_power"
  | .onlyCharging => "only_charging"
  | .noFeed => "no_feed"
  | .houseSupport => "house_support"
  | .chargeBattery => "charge_battery"
  | .doNotSupplyCharger => "do_not_supply_charger"
  | .setLimitToEVCharger => "set_limit_to_ev_charger"
  | .minimizeCharging => "minimize_charging"
  | .dryRun => "dry_run"

/-- The Go type of a member. -/
@[reducible] def type : Field → FieldType
  | .setpointOverride => .ptrSetpointOverride
  | .setpointOverrideObservedAt | .electricityTariffObservedAt | .gridBackupObservedAt
  | .gridLossHoldSeconds | .gridLossElapsed | .gridLossRemaining | .essModeObservedAt => .ptrFloat64
  | .setpointOverrideControlsAvailable | .electricityTariffControlsAvailable | .gridUsingBackup
  | .essModeControlsAvailable | .haConnected | .haDirectConnected | .evPresent
  | .evChargerPresent | .waterValve | .pumpSwitch | .dishwasherRunning | .dishwasherActive
  | .onlyCharging | .noFeed | .houseSupport | .chargeBattery | .doNotSupplyCharger
  | .setLimitToEVCharger | .minimizeCharging => .bool
  | .gridL1Available | .gridL2Available | .gridL3Available | .inverterAvailable
  | .gridControlValid | .gridLossZeroApplied | .dryRun => .ptrBool
  | .gridBackup => .ptrGridBackup
  | .uiConfig | .dvccLimits | .limits | .perf | .booleans | .features => .mapAny
  | .loopInterval | .g3 | .t3 | .solarTotal | .mpptTotal | .pvInverterTotal | .pvTotal | .gt
  | .g1 | .g2 | .tt | .t1 | .t2 | .bc | .bv | .bp | .setpoint | .batteryVoltage | .batteryCurrent
  | .batteryPower | .batterySOC | .uptime | .carChargingPower | .carSOC | .evChargingKW
  | .evPower | .evChargingPower | .waterLevel | .dishwasherDuration | .dishwasherTime
  | .washerTime | .washerPower | .dryerTime | .dryerPower => .float64
  | .gridControlReason => .ptrString
  | .gridLossState | .inverterState | .version | .dashboardVersion => .string
  | .telemetryAvailable | .gatewayCapabilities => .mapBool
  | .waterValveMode | .pumpMode | .waterPumpMode => .int
  | .dailyStats => .dailyStats
  | .essMode => .essMode
  | .solarForecast => .ptrSolarForecast
  | .console => .sliceString
  | .notifications => .sliceNotification
  | .cameraEvent => .ptrCameraEvent
  | .batteries => .sliceBattery
  | .solarSources => .sliceSolarSource
  | .mpptChargers | .pvInverters => .sliceCharger
  | .mpptIndividual => .sliceFloat64
  | .loads => .mapFloat64
  | .loadNames => .mapString
  | .discoveredWaterEV => .sliceCerboDevice

end Field

/-- A dashboard state: a value for each JSON member, and the flag that is not part of the
JSON schema. The private push samples of gateway snapshots are consumed before a snapshot is
installed and are not kept. -/
structure State where
  field : (f : Field) → f.type.denote
  nativeESSObserved : Bool := false

namespace State

/-- The state with one member replaced. -/
def set (st : State) (f : Field) (v : f.type.denote) : State :=
  { st with field := Function.update st.field f v }

@[simp] theorem set_field_self (st : State) (f : Field) (v : f.type.denote) :
    (st.set f v).field f = v := by
  simp only [set, Function.update_self]

@[simp] theorem set_field_ne (st : State) {f g : Field} (h : g ≠ f) (v : f.type.denote) :
    (st.set f v).field g = st.field g := by
  simp only [set, Function.update_of_ne h]

@[simp] theorem set_nativeESSObserved (st : State) (f : Field) (v : f.type.denote) :
    (st.set f v).nativeESSObserved = st.nativeESSObserved := rfl

/-- Visiting each member of a list once, where a visit to `f` changes only `f`: every visited
member is updated, and no other. -/
theorem foldl_field (upd : (f : Field) → f.type.denote → f.type.denote)
    {step : State → Field → State}
    (hself : ∀ st f, (step st f).field f = upd f (st.field f))
    (hne : ∀ st f g, g ≠ f → (step st f).field g = st.field g) {fs : List Field}
    (hfs : fs.Nodup) (st : State) (g : Field) :
    (fs.foldl step st).field g = if g ∈ fs then upd g (st.field g) else st.field g := by
  induction fs generalizing st with
  | nil => simp
  | cons f fs ih =>
    obtain ⟨hf, hfs⟩ := List.nodup_cons.mp hfs
    rw [List.foldl_cons, ih hfs]
    by_cases hgf : g = f
    · subst hgf
      simp [hf, hself]
    · simp [hgf, hne st f g hgf]

/-- Visits that leave the native flag alone leave it alone together. -/
theorem foldl_nativeESSObserved {α : Type} {step : State → α → State}
    (h : ∀ st a, (step st a).nativeESSObserved = st.nativeESSObserved) (as : List α)
    (st : State) : (as.foldl step st).nativeESSObserved = st.nativeESSObserved := by
  induction as generalizing st with
  | nil => rfl
  | cons a as ih => rw [List.foldl_cons, ih, h]

/-- The zero state. -/
def zero : State := ⟨fun f => f.type.zero, false⟩

end State

/-! ## Members by name -/

namespace Field

/-- The list of members is complete. -/
theorem mem_all (f : Field) : f ∈ all := by cases f <;> decide

/-- No two member names fold to the same text. -/
theorem nodup_foldName : (all.map fun f => foldName f.jsonName).Nodup := by decide +kernel

/-- A member is determined by the folding of its name. -/
theorem eq_of_foldName_eq {f g : Field} (h : foldName f.jsonName = foldName g.jsonName) :
    f = g :=
  List.inj_on_of_nodup_map nodup_foldName (mem_all f) (mem_all g) h

/-- A member is determined by its name. -/
theorem jsonName_injective : Function.Injective jsonName := fun f g h =>
  eq_of_foldName_eq (by rw [h])

/-- The member with exactly this JSON name. -/
def ofName? (key : String) : Option Field := all.find? fun f => f.jsonName == key

/-- A member is found under its name, and nothing else is. -/
theorem ofName?_eq_some_iff {key : String} {f : Field} :
    ofName? key = some f ↔ f.jsonName = key := by
  constructor
  · intro h
    simpa using List.find?_some h
  · rintro rfl
    cases h : ofName? f.jsonName with
    | none =>
      have := List.find?_eq_none.mp h f (mem_all f)
      simp at this
    | some g =>
      have hg : g.jsonName = f.jsonName := by simpa using List.find?_some h
      rw [jsonName_injective hg]

@[simp] theorem ofName?_jsonName (f : Field) : ofName? f.jsonName = some f :=
  ofName?_eq_some_iff.mpr rfl

end Field

/-- The member a key selects in `json.Unmarshal`: by exact name, else by folding. -/
def matchField (key : String) : Option Field :=
  (Field.ofName? key).or (Field.all.find? fun f => foldName f.jsonName == foldName key)

/-- A key selects the member its folding spells.

**Proof sketch.** An exact name has the same folding, and the folding determines the member
(`Field.eq_of_foldName_eq`), so the order of the two searches does not matter. -/
theorem matchField_eq_some_iff {key : String} {f : Field} :
    matchField key = some f ↔ foldName f.jsonName = foldName key := by
  have hfold : ∀ g, Field.all.find? (fun f => foldName f.jsonName == foldName key) = some g →
      foldName g.jsonName = foldName key := by
    intro g hg
    simpa using List.find?_some hg
  unfold matchField
  cases hex : Field.ofName? key with
  | some g =>
    have hg : g.jsonName = key := Field.ofName?_eq_some_iff.mp hex
    rw [Option.some_or, Option.some.injEq]
    constructor
    · rintro rfl
      rw [hg]
    · intro h
      exact Field.eq_of_foldName_eq (by rw [hg, h])
  | none =>
    rw [Option.none_or]
    refine ⟨hfold f, fun h => ?_⟩
    cases hf : Field.all.find? fun f => foldName f.jsonName == foldName key with
    | none =>
      have := List.find?_eq_none.mp hf f (Field.mem_all f)
      simp [h] at this
    | some g => rw [Field.eq_of_foldName_eq ((hfold g hf).trans h.symm)]

@[simp] theorem matchField_jsonName (f : Field) : matchField f.jsonName = some f :=
  matchField_eq_some_iff.mpr rfl

/-! ## Reflective updates -/

/-- `clearStateField`: the member with exactly this JSON name is reset. -/
def clearStateField (st : State) (key : String) : State :=
  match Field.ofName? key with
  | none => st
  | some f => st.set f f.type.cleared

@[simp] theorem clearStateField_jsonName (st : State) (f : Field) :
    clearStateField st f.jsonName = st.set f f.type.cleared := by
  simp [clearStateField]

/-- `json.Unmarshal` of the object with the one member `key` into a state. -/
def State.unmarshalEntry (st : State) (key : String) (value : Any) : State × Bool :=
  match matchField key with
  | none => (st, true)
  | some f =>
    let r := f.type.decoder value (st.field f)
    (st.set f r.1, r.2)

/-- Decoding a key changes no member but the one its folding spells. -/
theorem State.unmarshalEntry_of_ne (st : State) {key : String} {f : Field} (value : Any)
    (h : foldName f.jsonName ≠ foldName key) :
    (st.unmarshalEntry key value).1.field f = st.field f := by
  unfold unmarshalEntry
  cases hm : matchField key with
  | none => rfl
  | some g =>
    have hne : f ≠ g := fun hfg => h (hfg ▸ matchField_eq_some_iff.mp hm)
    exact set_field_ne st hne _

@[simp] theorem State.unmarshalEntry_nativeESSObserved (st : State) (key : String)
    (value : Any) :
    (st.unmarshalEntry key value).1.nativeESSObserved = st.nativeESSObserved := by
  unfold unmarshalEntry
  cases matchField key <;> rfl

end Dashboard
