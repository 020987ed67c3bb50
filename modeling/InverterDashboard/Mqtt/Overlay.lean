import InverterDashboard.Mqtt.Leaves
import InverterDashboard.State.State

set_option relaxedAutoImplicit false
set_option autoImplicit false

/-!
# The canonical reducer of native readings

`cerboOverlay` of `internal/mqtt/cerbo.go` and its parts in `ev_ess.go`: from the cached leaves
to the telemetry members they determine. The Go map it returns is keyed by member names; here it
is a partial assignment of typed members.

## Main definitions

* `Dashboard.directFields` — the telemetry members the native reducer may own.
* `Dashboard.Overlay`, `Overlay.put` — a partial assignment of members.
* `Dashboard.cerboOverlay` — the reducer, built from `gridOverlay`, `totalsOverlay`,
  `vebusOverlay`, `batteryOverlay`, `solarOverlay`, `loadsOverlay`, `waterOverlay`,
  `applyEVOverlay` and `applyESSOverlay`.
* `Dashboard.Overlay.finite` — whether `json.Marshal` accepts the result.

## Main results

* `Dashboard.cerboOverlay_val_eq_none` — the reducer outputs only `directFields`.
* `Dashboard.cerboOverlay_modes` — a water mode is output only for a valid `Mode` leaf of the
  configured instance.
* `Dashboard.cerboOverlay_empty` — without readings only the inventory and the two presence flags
  are output.
-/

namespace Dashboard

open Go

/-- The telemetry members of the native reducer, in the order of the source. -/
def directFields : List Field :=
  [.gridL1Available, .gridL2Available, .gridL3Available, .g1, .g2, .g3, .gt, .t1, .t2, .t3, .tt,
    .bv, .bc, .bp, .batterySOC, .batteryVoltage, .batteryCurrent, .batteryPower, .setpoint,
    .inverterState, .solarTotal, .mpptTotal, .pvTotal, .pvInverterTotal, .batteries,
    .mpptChargers, .mpptIndividual, .pvInverters, .loads, .loadNames, .evPower,
    .carChargingPower, .evChargingKW, .evChargingPower, .carSOC, .evPresent, .evChargerPresent,
    .discoveredWaterEV, .essMode, .waterLevel, .waterValve, .pumpSwitch, .waterValveMode,
    .pumpMode, .waterPumpMode]

/-- `CerboOptions`: the configured device instances. -/
structure CerboOptions where
  tankInstance : ℤ
  pumpInstance : ℤ
  valveInstance : ℤ
  evInstance : ℤ
  evchargerInstance : ℤ

/-- What a reducer outputs: a value for some of the members. -/
structure Overlay where
  val : (f : Field) → Option f.type.denote

namespace Overlay

/-- No output. -/
def empty : Overlay := ⟨fun _ => none⟩

/-- `out[key] = v`. -/
def put (o : Overlay) (f : Field) (v : f.type.denote) : Overlay :=
  ⟨Function.update o.val f (some v)⟩

/-- `put(key, n, ok)`: an output only where there is a value. -/
def putIf (o : Overlay) (f : Field) (v : Option f.type.denote) : Overlay :=
  match v with
  | some v => o.put f v
  | none => o

@[simp] theorem put_val_self (o : Overlay) (f : Field) (v : f.type.denote) :
    (o.put f v).val f = some v := by
  simp only [put, Function.update_self]

@[simp] theorem put_val_ne (o : Overlay) {f g : Field} (h : g ≠ f) (v : f.type.denote) :
    (o.put f v).val g = o.val g := by
  simp only [put, Function.update_of_ne h]

@[simp] theorem putIf_val_ne (o : Overlay) {f g : Field} (h : g ≠ f)
    (v : Option f.type.denote) : (o.putIf f v).val g = o.val g := by
  cases v with
  | none => rfl
  | some v => exact put_val_ne o h v

/-- `json.Marshal` accepts a value: it has no infinity and no NaN. Only the types the reducer
outputs are looked into. -/
def finiteValue : (t : FieldType) → t.denote → Bool
  | .float64, x => x.isFinite
  | .sliceFloat64, s => s.elems.all F64.isFinite
  | .mapFloat64, m => m.all fun s => s.entries.all fun e => e.2.isFinite
  | .sliceBattery, s => s.elems.all fun b =>
      b.temperature.all F64.isFinite && b.minCellVoltage.all F64.isFinite &&
        b.maxCellVoltage.all F64.isFinite && b.voltage.isFinite && b.current.isFinite &&
        b.power.isFinite && b.soc.isFinite
  | .sliceCharger, s => s.elems.all fun r =>
      r.pvVoltage.isFinite && r.current.isFinite && r.power.isFinite
  | .sliceCerboDevice, s => s.elems.all fun d => d.soc.all F64.isFinite && d.power.all F64.isFinite
  | _, _ => true

/-- `json.Marshal` accepts the whole output. One value that is not finite fails it. -/
def finite (o : Overlay) : Bool :=
  Field.all.all fun f => (o.val f).all (finiteValue f.type)

theorem putIf_val_self (o : Overlay) (f : Field) (v : Option f.type.denote)
    (h : o.val f = none) : (o.putIf f v).val f = v := by
  cases v with
  | none => exact h
  | some v => exact put_val_self o f v

end Overlay

/-! ## Grid and consumption -/

/-- The three phases. -/
inductive Phase where
  | l1 | l2 | l3
  deriving DecidableEq

namespace Phase

/-- `L1`, `L2`, `L3`. -/
def label : Phase → String
  | .l1 => "L1"
  | .l2 => "L2"
  | .l3 => "L3"

/-- Every phase. -/
def all : List Phase := [.l1, .l2, .l3]

end Phase

/-- Active input is grid only when systemcalc identifies it as mains or shore. -/
def activeInput (sys vebus : List (String × Device)) (p : Phase) : Option F64 :=
  match firstNum sys ["Ac/ActiveIn/Source"] with
  | none => none
  | some input =>
    if input.eq 1 || input.eq 3 then
      (sortedStringKeys vebus).findSome? fun e =>
        if (e.2.num ["Ac/ActiveIn/Connected"]).any fun c => c.eq 0 then none
        else e.2.num ["Ac/ActiveIn/" ++ p.label ++ "/P", "Ac/ActiveIn/" ++ p.label ++ "/Power"]
    else none

/-- The grid power of a phase: whether its leaf was seen, and the value. -/
def gridPhase (sys grid vebus : List (String × Device)) (p : Phase) : Bool × Option F64 :=
  match firstLeaf sys ("Ac/Grid/" ++ p.label ++ "/Power") with
  | some n => (true, n)
  | none =>
    match firstLeaf grid ("Ac/" ++ p.label ++ "/Power") with
    | some n => (true, n)
    | none => (false, activeInput sys vebus p)

/-- The consumption of a phase. Some systemcalc versions publish input and output consumption
separately. -/
def consumptionPhase (sys : List (String × Device)) (p : Phase) : Option F64 :=
  (firstNum sys ["Ac/Consumption/" ++ p.label ++ "/Power"]).orElse fun _ =>
    let a := firstNum sys ["Ac/ConsumptionOnInput/" ++ p.label ++ "/Power"]
    let b := firstNum sys ["Ac/ConsumptionOnOutput/" ++ p.label ++ "/Power"]
    if a.isSome || b.isSome then some ((a.getD 0).add (b.getD 0)) else none

/-- Whether a phase is known, when its leaf was seen or it has a value. -/
def phaseKnown (r : Bool × Option F64) : Option Bool :=
  if r.1 || r.2.isSome then some r.2.isSome else none

/-- The sum of the outputs that are there. -/
def outputSum (vs : List (Option F64)) : Option F64 :=
  vs.foldl (fun total v =>
    match v with
    | some n => some ((total.getD 0).add n)
    | none => total) none

/-- The phases and their totals. -/
def gridOverlay (all : LeafMap) (out : Overlay) : Overlay :=
  let sys := devices all .system
  let grid := devices all .grid
  let vebus := devices all .vebus
  let r1 := gridPhase sys grid vebus .l1
  let r2 := gridPhase sys grid vebus .l2
  let r3 := gridPhase sys grid vebus .l3
  let t1 := consumptionPhase sys .l1
  let t2 := consumptionPhase sys .l2
  let t3 := consumptionPhase sys .l3
  let gt := (outputSum [r1.2, r2.2, r3.2]).orElse fun _ =>
    -- The meter total counts only while no phase has been seen at all.
    if (phaseKnown r1).isNone && (phaseKnown r2).isNone && (phaseKnown r3).isNone then
      firstNum grid ["Ac/Power"]
    else none
  ((((((((((out.putIf .gridL1Available ((phaseKnown r1).map some)).putIf .g1 r1.2).putIf .t1
    t1).putIf .gridL2Available ((phaseKnown r2).map some)).putIf .g2 r2.2).putIf .t2 t2).putIf
    .gridL3Available ((phaseKnown r3).map some)).putIf .g3 r3.2).putIf .t3 t3).putIf .gt gt).putIf
    .tt (outputSum [t1, t2, t3])

/-! ## Inverter -/

/-- `inverterStates`: the names of the state codes. -/
def inverterStateName (code : ℤ) : String :=
  match code with
  | 0 => "Off"
  | 1 => "Low Power"
  | 2 => "Fault"
  | 3 => "Bulk"
  | 4 => "Absorption"
  | 5 => "Float"
  | 6 => "Storage"
  | 7 => "Equalize"
  | 8 => "Passthru"
  | 9 => "Inverting"
  | 10 => "Power assist"
  | 11 => "Power supply"
  | 252 => "External control"
  | n => "? (" ++ itoa n ++ ")"

/-- The set point and the state of the inverter. -/
def vebusOverlay (all : LeafMap) (out : Overlay) : Overlay :=
  let vebus := devices all .vebus
  (out.putIf .setpoint (firstNum vebus ["Hub4/L1/AcPowerSetpoint"])).putIf .inverterState
    ((firstNum vebus ["State"]).map fun code => inverterStateName code.toInt)

/-! ## Batteries -/

/-- `VoltageSOC`: the configured 40 to 54.4 V pack estimate. -/
def voltageSOC (v : F64) : F64 :=
  (F64.max 0 (F64.min 100 (((v.sub 40).div (.fin (144 / 10))).mul 100))).round

/-- `stateFromCurrent`. -/
def stateFromCurrent (v : F64) : String :=
  if (F64.fin (1 / 2)).lt v then "Charging"
  else if v.lt (.fin (-1 / 2)) then "Discharging"
  else "Idle"

/-- The availability flags of a row. -/
def rowAvailability (flags : List (String × Bool)) : GoMap Bool :=
  some (flags.foldl (fun m e => m.insert e.1 e.2) ∅)

/-- The row of a battery. -/
def batteryRow (id : String) (d : Device) : Battery :=
  let voltage := d.num ["Dc/0/Voltage"]
  let current := d.num ["Dc/0/Current"]
  let power := d.dcPower
  let soc := d.num ["Soc"]
  let state := (current.map stateFromCurrent).getD ""
  let timeToGo := match d.num ["TimeToGo"] with
    | some s =>
      if F64.lt 0 s && s.lt (.fin (14 * 86400)) && state != "Idle" then
        let n := s.toInt.toNat
        toString (n / 3600) ++ "h " ++ twoDigits (n % 3600 / 60) ++ "m"
      else ""
    | none => ""
  { inst := id
    serial := d.str ["Serial"]
    temperature := d.num ["Dc/0/Temperature"]
    minCellVoltage := d.num ["System/MinCellVoltage"]
    maxCellVoltage := d.num ["System/MaxCellVoltage"]
    minVoltageCellID := d.str ["System/MinVoltageCellId"]
    maxVoltageCellID := d.str ["System/MaxVoltageCellId"]
    telemetryAvailable := rowAvailability
      [("voltage", voltage.isSome), ("current", current.isSome), ("power", power.isSome),
        ("soc", soc.isSome)]
    name := deviceName d ("Battery " ++ id)
    voltage := voltage.getD 0
    current := current.getD 0
    power := power.getD 0
    soc := soc.getD 0
    state := state
    timeToGo := timeToGo }

/-- The real SmartShunt: the first device named so with a voltage, else the first named so. -/
def smartShunt (bats : List (String × Device)) : Device :=
  let shunts := (sortedStringKeys bats).filter fun e =>
    containsText (toLower (deviceName e.2 "")) "shunt"
  match shunts.find? fun e => (e.2.num ["Dc/0/Voltage"]).isSome with
  | some e => e.2
  | none => (shunts.head?.map Prod.snd).getD Device.missing

/-- The battery selected by systemcalc, else the only one. -/
def selectedBattery (sys bats : List (String × Device)) : String :=
  match firstNum sys ["Dc/Battery/Instance"] with
  | some n => itoa n.toInt
  | none =>
    match bats with
    | [e] => e.1
    | _ => ""

/-- The rows and the bank metrics, which prefer the shunt and never sum overlapping strings. -/
def batteryOverlay (all : LeafMap) (out : Overlay) : Overlay :=
  let sys := devices all .system
  let bats := devices all .battery
  let rows := (sortedStringKeys bats).map fun e => batteryRow e.1 e.2
  let battery := deviceAt bats (selectedBattery sys bats)
  let shunt := smartShunt bats
  let bank (system path : String) : Option F64 :=
    ((shunt.num [path]).orElse fun _ => firstNum sys ["Dc/Battery/" ++ system]).orElse fun _ =>
      battery.num [path]
  let voltage := bank "Voltage" "Dc/0/Voltage"
  let current := bank "Current" "Dc/0/Current"
  let power := (shunt.dcPower.orElse fun _ => firstNum sys ["Dc/Battery/Power"]).orElse fun _ =>
    battery.dcPower
  let socVoltage := (shunt.num ["Dc/0/Voltage"]).orElse fun _ =>
    firstNum sys ["Dc/Battery/Voltage"]
  let out := if bats.isEmpty then out else out.put .batteries (GoSlice.ofList rows)
  ((((((out.putIf .batteryVoltage voltage).putIf .bv voltage).putIf .batterySOC
    (socVoltage.map voltageSOC)).putIf .batteryCurrent current).putIf .bc current).putIf
    .batteryPower power).putIf .bp power

/-! ## Solar -/

/-- The row of a solar charger. -/
def mpptRow (id : String) (d : Device) : Charger × Option F64 :=
  let power := (d.num ["Yield/Power"]).orElse fun _ => d.dcPower
  let pvVoltage := d.num ["Pv/V"]
  let current := d.num ["Dc/0/Current"]
  ({ inst := id
     serial := d.str ["Serial"]
     telemetryAvailable := rowAvailability
       [("pv_voltage", pvVoltage.isSome), ("current", current.isSome), ("power", power.isSome)]
     name := deviceName d ("Solar charger " ++ id)
     pvVoltage := pvVoltage.getD 0
     current := current.getD 0
     power := power.getD 0 }, power)

/-- The row of a PV inverter. -/
def pvRow (id : String) (d : Device) : Charger × Option F64 :=
  let power := d.acPower
  let pvVoltage := d.num ["Ac/L1/Voltage"]
  let current := d.num ["Ac/L1/Current"]
  ({ inst := id
     serial := d.str ["Serial"]
     telemetryAvailable := rowAvailability
       [("pv_voltage", pvVoltage.isSome), ("current", current.isSome), ("power", power.isSome)]
     name := deviceName d ("PV inverter " ++ id)
     pvVoltage := pvVoltage.getD 0
     current := current.getD 0
     power := power.getD 0 }, power)

/-- The rows and totals of both kinds. System totals cover the complete installation, even while
only some devices have published. -/
def solarOverlay (all : LeafMap) (out : Overlay) : Overlay :=
  let sys := devices all .system
  let mppts := devices all .solarcharger
  let pvs := devices all .pvinverter
  let mpptRows := (sortedStringKeys mppts).map fun e => mpptRow e.1 e.2
  let pvRows := (sortedStringKeys pvs).map fun e => pvRow e.1 e.2
  let mpptTotal := (firstNum sys ["Dc/Pv/Power"]).orElse fun _ =>
    outputSum (mpptRows.map Prod.snd)
  let systemPV := outputSum (["PvOnGrid", "PvOnOutput", "PvOnGenset"].flatMap fun location =>
    Phase.all.map fun p => firstNum sys ["Ac/" ++ location ++ "/" ++ p.label ++ "/Power"])
  let pvTotal := systemPV.orElse fun _ => outputSum (pvRows.map Prod.snd)
  let out := if mppts.isEmpty then out else
    (out.put .mpptChargers (GoSlice.ofList (mpptRows.map Prod.fst))).put .mpptIndividual
      (GoSlice.ofList (mpptRows.filterMap Prod.snd))
  let out := if pvs.isEmpty then out else
    out.put .pvInverters (GoSlice.ofList (pvRows.map Prod.fst))
  (((out.putIf .mpptTotal mpptTotal).putIf .pvTotal mpptTotal).putIf .pvInverterTotal
    pvTotal).putIf .solarTotal
      (if mpptTotal.isSome || pvTotal.isSome then
        some ((mpptTotal.getD 0).add (pvTotal.getD 0)) else none)

/-! ## Loads and water -/

/-- The AC loads with a power reading, by instance. -/
def loadsOverlay (all : LeafMap) (out : Overlay) : Overlay :=
  let ac := devices all .acload
  let rows := (sortedStringKeys ac).filterMap fun e =>
    e.2.acPower.map fun p => (e.1, p, deviceName e.2 ("AC Load " ++ e.1))
  if ac.isEmpty then out else
    (out.put .loads (some (rows.foldl (fun m r => m.insert r.1 r.2.1) ∅))).put .loadNames
      (some (rows.foldl (fun m r => m.insert r.1 r.2.2) ∅))

/-- A switch reading: only 0 and 1 count. -/
def switchReading (n : F64) : Option Bool :=
  if n.eq 0 then some false else if n.eq 1 then some true else none

/-- A mode reading: only 0, 1 and 2 count. -/
def modeReading (n : F64) : Option ℤ :=
  if F64.le 0 n && n.le 2 && n.eq n.trunc then some n.toInt else none

/-- A leaf of the configured instance of a kind. -/
def configuredNum (all : LeafMap) (kind : Kind) (inst : ℤ) (path : String) : Option F64 :=
  (deviceAt (devices all kind) (itoa inst)).num [path]

/-- Tank level, pump and valve. -/
def waterOverlay (all : LeafMap) (o : CerboOptions) (out : Overlay) : Overlay :=
  let pumpMode := (configuredNum all .pump o.pumpInstance "Mode").bind modeReading
  (((((out.putIf .waterLevel ((configuredNum all .tank o.tankInstance "Level").map fun n =>
    n.mul 1)).putIf .pumpSwitch
      ((configuredNum all .pump o.pumpInstance "State").bind switchReading)).putIf .waterValve
      ((configuredNum all .pump o.valveInstance "State").bind switchReading)).putIf .pumpMode
      pumpMode).putIf .waterValveMode
      ((configuredNum all .pump o.valveInstance "Mode").bind modeReading)).putIf .waterPumpMode
      pumpMode

/-! ## Vehicles and ESS -/

/-- `evSOC`: a percentage. -/
def evSOC (d : Device) : Option F64 :=
  (d.num ["Soc"]).filter fun n => F64.le 0 n && n.le 100

/-- `selectEV`: a negative preference discovers the first device with readings, an explicit
instance never selects a different vehicle. -/
def selectEV (ds : List (String × Device)) (preferred : ℤ) : Device :=
  if 0 ≤ preferred then deviceAt ds (itoa preferred)
  else (((sortedStringKeys ds).find? fun e =>
    (evSOC e.2).isSome || e.2.acPower.isSome).map Prod.snd).getD Device.missing

/-- A row of the inventory. -/
def inventoryRow (kind : Kind) (id : String) (d : Device) : CerboDevice :=
  { kind := kind.name
    inst := (atoi id).getD 0
    name := deviceName d (kind.name ++ " " ++ id)
    soc := evSOC d
    power := d.acPower }

/-- `applyEVOverlay`: the inventory and the presence flags are always there. -/
def applyEVOverlay (all : LeafMap) (o : CerboOptions) (out : Overlay) : Overlay :=
  let evs := devices all .ev
  let chargers := devices all .evcharger
  let inventory := [Kind.ev, .evcharger, .tank, .pump].flatMap fun kind =>
    (sortedStringKeys (devices all kind)).map fun e => inventoryRow kind e.1 e.2
  let ev := selectEV evs o.evInstance
  let charger := selectEV chargers o.evchargerInstance
  -- Some dbus-ev versions use the evcharger service name for vehicle SOC.
  let soc := (evSOC ev).orElse fun _ => if o.evInstance < 0 then evSOC charger else none
  (((((((out.put .discoveredWaterEV (GoSlice.ofList inventory)).put .evPresent
    (!evs.isEmpty)).put .evChargerPresent (!chargers.isEmpty)).putIf .evPower ev.acPower).putIf
    .carChargingPower ev.acPower).putIf .evChargingPower charger.acPower).putIf .evChargingKW
    (charger.acPower.map fun n => n.div 1000)).putIf .carSOC soc

/-- A whole number that is not negative. -/
def wholeNumber (n : F64) : Bool := F64.le 0 n && n.eq (F64.ofInt n.toInt)

/-- The name of a mode; an optimized mode is known only with its BatteryLife state. -/
def essModeName (hub : ℤ) (bl : Option ℤ) : Option String :=
  match hub with
  | 3 => some "External control"
  | 1 => bl.map fun bl =>
    match bl with
    | 0 => "Optimized without BatteryLife"
    | 10 => "Optimized without BatteryLife"
    | 9 => "Keep batteries charged"
    | _ => "Optimized (BatteryLife)"
  | n => some ("Unknown (" ++ itoa n ++ ")")

/-- The mode one settings device reports; `none` lets the next device decide. -/
def essModeOf (d : Device) : Option ESSMode := do
  let hub ← (d.num ["Settings/CGwacs/Hub4Mode"]).filter wholeNumber
  let bl := ((d.num ["Settings/CGwacs/BatteryLife/State"]).filter wholeNumber).map F64.toInt
  let name ← essModeName hub.toInt bl
  return { hub4Mode := hub.toInt
           isExternal := hub.eq 3
           batteryLifeState := bl.getD 0
           modeName := name }

/-- `applyESSOverlay`: the first settings device that reports a mode. -/
def applyESSOverlay (all : LeafMap) (out : Overlay) : Overlay :=
  out.putIf .essMode ((sortedStringKeys (devices all .settings)).findSome? fun e => essModeOf e.2)

/-- `cerboOverlay`: the canonical reducer for LAN messages and gateway snapshots. -/
def cerboOverlay (all : LeafMap) (o : CerboOptions) : Overlay :=
  applyESSOverlay all (applyEVOverlay all o (waterOverlay all o (loadsOverlay all
    (solarOverlay all (batteryOverlay all (vebusOverlay all (gridOverlay all .empty)))))))

/-! ## Which members are output -/

section Outputs

variable (all : LeafMap) (o : CerboOptions) (out : Overlay) {f : Field}

theorem gridOverlay_val
    (h : f ∉ [Field.gridL1Available, .g1, .t1, .gridL2Available, .g2, .t2, .gridL3Available, .g3,
      .t3, .gt, .tt]) : (gridOverlay all out).val f = out.val f := by
  simp only [List.mem_cons, List.not_mem_nil, or_false, not_or] at h
  simp [gridOverlay, h]

theorem vebusOverlay_val (h : f ∉ [Field.setpoint, .inverterState]) :
    (vebusOverlay all out).val f = out.val f := by
  simp only [List.mem_cons, List.not_mem_nil, or_false, not_or] at h
  simp [vebusOverlay, h]

theorem batteryOverlay_val
    (h : f ∉ [Field.batteries, .batteryVoltage, .bv, .batterySOC, .batteryCurrent, .bc,
      .batteryPower, .bp]) : (batteryOverlay all out).val f = out.val f := by
  simp only [List.mem_cons, List.not_mem_nil, or_false, not_or] at h
  unfold batteryOverlay
  dsimp only
  split_ifs <;> simp [h]

theorem solarOverlay_val
    (h : f ∉ [Field.mpptChargers, .mpptIndividual, .pvInverters, .mpptTotal, .pvTotal,
      .pvInverterTotal, .solarTotal]) : (solarOverlay all out).val f = out.val f := by
  simp only [List.mem_cons, List.not_mem_nil, or_false, not_or] at h
  unfold solarOverlay
  dsimp only
  split_ifs <;> simp [h]

theorem loadsOverlay_val (h : f ∉ [Field.loads, .loadNames]) :
    (loadsOverlay all out).val f = out.val f := by
  simp only [List.mem_cons, List.not_mem_nil, or_false, not_or] at h
  unfold loadsOverlay
  dsimp only
  split_ifs <;> simp [h]

theorem waterOverlay_val
    (h : f ∉ [Field.waterLevel, .pumpSwitch, .waterValve, .pumpMode, .waterValveMode,
      .waterPumpMode]) : (waterOverlay all o out).val f = out.val f := by
  simp only [List.mem_cons, List.not_mem_nil, or_false, not_or] at h
  simp [waterOverlay, h]

theorem applyEVOverlay_val
    (h : f ∉ [Field.discoveredWaterEV, .evPresent, .evChargerPresent, .evPower,
      .carChargingPower, .evChargingPower, .evChargingKW, .carSOC]) :
    (applyEVOverlay all o out).val f = out.val f := by
  simp only [List.mem_cons, List.not_mem_nil, or_false, not_or] at h
  simp [applyEVOverlay, h]

theorem applyESSOverlay_val (h : f ≠ .essMode) : (applyESSOverlay all out).val f = out.val f := by
  simp [applyESSOverlay, h]

end Outputs

/-- The reducer outputs only `directFields`. -/
theorem cerboOverlay_val_eq_none (all : LeafMap) (o : CerboOptions) {f : Field}
    (h : f ∉ directFields) : (cerboOverlay all o).val f = none := by
  have hne : ∀ fs : List Field, fs ⊆ directFields → f ∉ fs := fun fs hfs hf => h (hfs hf)
  have hess : f ≠ .essMode := fun hf => h (by rw [hf]; decide)
  unfold cerboOverlay
  rw [applyESSOverlay_val all _ hess,
    applyEVOverlay_val all o _ (hne _ (by decide)), waterOverlay_val all o _ (hne _ (by decide)),
    loadsOverlay_val all _ (hne _ (by decide)), solarOverlay_val all _ (hne _ (by decide)),
    batteryOverlay_val all _ (hne _ (by decide)), vebusOverlay_val all _ (hne _ (by decide)),
    gridOverlay_val all _ (hne _ (by decide))]
  rfl

/-- The water modes that are output are the valid readings of the configured `Mode` leaves. -/
theorem cerboOverlay_modes (all : LeafMap) (o : CerboOptions) :
    (cerboOverlay all o).val .pumpMode =
        (configuredNum all .pump o.pumpInstance "Mode").bind modeReading ∧
      (cerboOverlay all o).val .waterValveMode =
        (configuredNum all .pump o.valveInstance "Mode").bind modeReading := by
  have hnone : ∀ f ∈ [Field.pumpMode, .waterValveMode],
      (loadsOverlay all (solarOverlay all (batteryOverlay all (vebusOverlay all
        (gridOverlay all .empty))))).val f = none := by
    intro f hf
    rw [loadsOverlay_val, solarOverlay_val, batteryOverlay_val, vebusOverlay_val,
      gridOverlay_val]
    · rfl
    all_goals
      rcases List.mem_pair.mp hf with rfl | rfl <;> decide
  unfold cerboOverlay
  constructor
  · rw [applyESSOverlay_val all _ (by decide), applyEVOverlay_val all o _ (by decide)]
    unfold waterOverlay
    rw [Overlay.putIf_val_ne _ (by decide), Overlay.putIf_val_ne _ (by decide),
      Overlay.putIf_val_self]
    rw [Overlay.putIf_val_ne _ (by decide), Overlay.putIf_val_ne _ (by decide),
      Overlay.putIf_val_ne _ (by decide)]
    exact hnone _ (by decide)
  · rw [applyESSOverlay_val all _ (by decide), applyEVOverlay_val all o _ (by decide)]
    unfold waterOverlay
    rw [Overlay.putIf_val_ne _ (by decide), Overlay.putIf_val_self]
    rw [Overlay.putIf_val_ne _ (by decide), Overlay.putIf_val_ne _ (by decide),
      Overlay.putIf_val_ne _ (by decide), Overlay.putIf_val_ne _ (by decide)]
    exact hnone _ (by decide)

/-- The ESS mode that is output is that of the first settings device that reports one. -/
theorem cerboOverlay_essMode_eq (all : LeafMap) (o : CerboOptions) :
    (cerboOverlay all o).val .essMode =
      (sortedStringKeys (devices all .settings)).findSome? fun e => essModeOf e.2 := by
  have hnone : (applyEVOverlay all o (waterOverlay all o (loadsOverlay all (solarOverlay all
      (batteryOverlay all (vebusOverlay all (gridOverlay all .empty))))))).val .essMode = none := by
    rw [applyEVOverlay_val, waterOverlay_val, loadsOverlay_val, solarOverlay_val,
      batteryOverlay_val, vebusOverlay_val, gridOverlay_val]
    · rfl
    all_goals decide
  exact Overlay.putIf_val_self _ _ _ hnone

/-- No native reading supports the selection of a mode. -/
theorem cerboOverlay_essMode {all : LeafMap} {o : CerboOptions} {m : ESSMode}
    (h : (cerboOverlay all o).val .essMode = some m) : m.selectionSupported = false := by
  rw [cerboOverlay_essMode_eq] at h
  obtain ⟨e, -, he⟩ := List.exists_of_findSome?_eq_some h
  simp only [essModeOf, Option.bind_eq_bind, Option.bind_eq_some_iff, Option.pure_def,
    Option.some.injEq] at he
  obtain ⟨hub, -, name, -, rfl⟩ := he
  rfl

/-- Without readings only the empty inventory and the two presence flags are output. -/
theorem cerboOverlay_empty (o : CerboOptions) :
    cerboOverlay ∅ o = ((Overlay.empty.put .discoveredWaterEV (GoSlice.ofList [])).put .evPresent
      false).put .evChargerPresent false := by
  unfold cerboOverlay applyEVOverlay selectEV
  split_ifs <;> rfl

end Dashboard
