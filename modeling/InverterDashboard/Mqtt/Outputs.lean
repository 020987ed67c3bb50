import InverterDashboard.Mqtt.Canonical
import InverterDashboard.Mqtt.Commit

set_option relaxedAutoImplicit false
set_option autoImplicit false

/-!
# When the reducer outputs a member

For each part of `cerboOverlay`, the members it outputs and the readings that are needed for each.
The conditions are about which readings there are, not about their values.

## Main definitions

* `Dashboard.GridOutput`, `VebusOutput`, `BatteryOutput`, `SolarOutput`, `LoadsOutput`,
  `WaterOutput`, `EVOutput`, `ESSOutput` — what each part outputs.
* `Dashboard.Output` — what the reducer outputs.

## Main results

* `Dashboard.outputs_cerboOverlay_iff` — the reducer outputs a member exactly then.
-/

namespace Dashboard

open Go

namespace Overlay

/-- The member is output. -/
def outputs (o : Overlay) (f : Field) : Prop := (o.val f).isSome = true

theorem outputs_put (o : Overlay) (g f : Field) (v : g.type.denote) :
    (o.put g v).outputs f ↔ f = g ∨ o.outputs f := by
  unfold outputs
  by_cases h : f = g
  · subst h
    simp
  · simp [h]

theorem outputs_putIf (o : Overlay) (g f : Field) (v : Option g.type.denote) :
    (o.putIf g v).outputs f ↔ f = g ∧ v.isSome = true ∨ o.outputs f := by
  cases v with
  | none => simp [putIf]
  | some v => simp [putIf, outputs_put]

end Overlay

/-! ## Readings of the cache -/

section Readings

variable (all : LeafMap)

/-- The grid power of a phase. -/
def gridReading (p : Phase) : Bool × Option F64 :=
  gridPhase (devices all .system) (devices all .grid) (devices all .vebus) p

/-- The consumption of a phase. -/
def consumptionReading (p : Phase) : Option F64 := consumptionPhase (devices all .system) p

/-- The shunt of the bank. -/
def shuntDevice : Device := smartShunt (devices all .battery)

/-- The battery that systemcalc selects. -/
def bankDevice : Device :=
  deviceAt (devices all .battery) (selectedBattery (devices all .system) (devices all .battery))

/-- A metric of the bank. -/
def bankReading (name : String) : Option F64 :=
  (((shuntDevice all).num ["Dc/0/" ++ name]).orElse fun _ =>
    firstNum (devices all .system) ["Dc/Battery/" ++ name]).orElse fun _ =>
    (bankDevice all).num ["Dc/0/" ++ name]

/-- The power of the bank. -/
def bankPower : Option F64 :=
  ((shuntDevice all).dcPower.orElse fun _ =>
    firstNum (devices all .system) ["Dc/Battery/Power"]).orElse fun _ => (bankDevice all).dcPower

/-- The voltage behind the estimate of the state of charge. -/
def socVoltage : Option F64 :=
  ((shuntDevice all).num ["Dc/0/Voltage"]).orElse fun _ =>
    firstNum (devices all .system) ["Dc/Battery/Voltage"]

/-- The total of the solar chargers. -/
def mpptReading : Option F64 :=
  (firstNum (devices all .system) ["Dc/Pv/Power"]).orElse fun _ =>
    outputSum ((sortedStringKeys (devices all .solarcharger)).map fun e => (mpptRow e.1 e.2).2)

/-- The leaves of the system that hold the power of PV inverters. -/
def systemPVPaths : List String :=
  ["PvOnGrid", "PvOnOutput", "PvOnGenset"].flatMap fun location =>
    Phase.all.map fun p => "Ac/" ++ location ++ "/" ++ p.label ++ "/Power"

/-- The total of the PV inverters. -/
def pvReading : Option F64 :=
  (outputSum (systemPVPaths.map fun path => firstNum (devices all .system) [path])).orElse fun _ =>
    outputSum ((sortedStringKeys (devices all .pvinverter)).map fun e => (pvRow e.1 e.2).2)

/-- The vehicle that is shown. -/
def evDevice (o : CerboOptions) : Device := selectEV (devices all .ev) o.evInstance

/-- The charging station that is shown. -/
def evchargerDevice (o : CerboOptions) : Device :=
  selectEV (devices all .evcharger) o.evchargerInstance

end Readings

/-! ## Outputs of the parts -/

namespace Phase

/-- The member that says whether the grid power of the phase is known. -/
def available : Phase → Field
  | .l1 => .gridL1Available
  | .l2 => .gridL2Available
  | .l3 => .gridL3Available

/-- The member with the grid power of the phase. -/
def grid : Phase → Field
  | .l1 => .g1
  | .l2 => .g2
  | .l3 => .g3

/-- The member with the consumption of the phase. -/
def consumption : Phase → Field
  | .l1 => .t1
  | .l2 => .t2
  | .l3 => .t3

theorem exists_iff {p : Phase → Prop} : (∃ x, p x) ↔ p .l1 ∨ p .l2 ∨ p .l3 := by
  constructor
  · rintro ⟨x, hx⟩
    cases x
    · exact Or.inl hx
    · exact Or.inr (Or.inl hx)
    · exact Or.inr (Or.inr hx)
  · rintro (h | h | h) <;> exact ⟨_, h⟩

theorem forall_iff {p : Phase → Prop} : (∀ x, p x) ↔ p .l1 ∧ p .l2 ∧ p .l3 := by
  constructor
  · exact fun h => ⟨h .l1, h .l2, h .l3⟩
  · rintro ⟨h₁, h₂, h₃⟩ (_ | _ | _)
    · exact h₁
    · exact h₂
    · exact h₃

end Phase

section Parts

variable (all : LeafMap) (o : CerboOptions) (f : Field)

/-- The members of a phase `gridOverlay` outputs. -/
def PhaseOutput (p : Phase) : Prop :=
  f = p.consumption ∧ (consumptionReading all p).isSome = true ∨
    f = p.grid ∧ (gridReading all p).2.isSome = true ∨
    f = p.available ∧ (phaseKnown (gridReading all p)).isSome = true

/-- The members `gridOverlay` outputs. -/
inductive GridOutput : Prop
  | phase (p : Phase) (h : PhaseOutput all f p)
  | gridTotal (hf : f = .gt) (h : (∃ p, (gridReading all p).2.isSome = true) ∨
      (∀ p, (phaseKnown (gridReading all p)).isSome = false) ∧
        (firstNum (devices all .grid) ["Ac/Power"]).isSome = true)
  | consumptionTotal (hf : f = .tt) (h : ∃ p, (consumptionReading all p).isSome = true)

/-- The members `vebusOverlay` outputs. -/
inductive VebusOutput : Prop
  | setpoint (hf : f = .setpoint)
      (h : (firstNum (devices all .vebus) ["Hub4/L1/AcPowerSetpoint"]).isSome = true)
  | state (hf : f = .inverterState)
      (h : (firstNum (devices all .vebus) ["State"]).isSome = true)

/-- The members `batteryOverlay` outputs. -/
inductive BatteryOutput : Prop
  | rows (hf : f = .batteries) (h : (devices all .battery).isEmpty = false)
  | soc (hf : f = .batterySOC) (h : (socVoltage all).isSome = true)
  | voltage (hf : f = .batteryVoltage ∨ f = .bv) (h : (bankReading all "Voltage").isSome = true)
  | current (hf : f = .batteryCurrent ∨ f = .bc) (h : (bankReading all "Current").isSome = true)
  | power (hf : f = .batteryPower ∨ f = .bp) (h : (bankPower all).isSome = true)

/-- The members `solarOverlay` outputs. -/
inductive SolarOutput : Prop
  | mpptRows (hf : f = .mpptChargers ∨ f = .mpptIndividual)
      (h : (devices all .solarcharger).isEmpty = false)
  | pvRows (hf : f = .pvInverters) (h : (devices all .pvinverter).isEmpty = false)
  | mppt (hf : f = .mpptTotal ∨ f = .pvTotal) (h : (mpptReading all).isSome = true)
  | pv (hf : f = .pvInverterTotal) (h : (pvReading all).isSome = true)
  | total (hf : f = .solarTotal)
      (h : (mpptReading all).isSome = true ∨ (pvReading all).isSome = true)

/-- The members `loadsOverlay` outputs. -/
def LoadsOutput : Prop :=
  (f = .loads ∨ f = .loadNames) ∧ (devices all .acload).isEmpty = false

/-- The members `waterOverlay` outputs. -/
inductive WaterOutput : Prop
  | level (hf : f = .waterLevel)
      (h : (configuredNum all .tank o.tankInstance "Level").isSome = true)
  | pump (hf : f = .pumpSwitch)
      (h : ((configuredNum all .pump o.pumpInstance "State").bind switchReading).isSome = true)
  | valve (hf : f = .waterValve)
      (h : ((configuredNum all .pump o.valveInstance "State").bind switchReading).isSome = true)
  | pumpMode (hf : f = .pumpMode ∨ f = .waterPumpMode)
      (h : ((configuredNum all .pump o.pumpInstance "Mode").bind modeReading).isSome = true)
  | valveMode (hf : f = .waterValveMode)
      (h : ((configuredNum all .pump o.valveInstance "Mode").bind modeReading).isSome = true)

/-- The members `applyEVOverlay` outputs. -/
inductive EVOutput : Prop
  | inventory (hf : f = .discoveredWaterEV ∨ f = .evPresent ∨ f = .evChargerPresent)
  | ev (hf : f = .evPower ∨ f = .carChargingPower) (h : (evDevice all o).acPower.isSome = true)
  | charger (hf : f = .evChargingPower ∨ f = .evChargingKW)
      (h : (evchargerDevice all o).acPower.isSome = true)
  | soc (hf : f = .carSOC) (h : (evSOC (evDevice all o)).isSome = true ∨
      o.evInstance < 0 ∧ (evSOC (evchargerDevice all o)).isSome = true)

/-- The member `applyESSOverlay` outputs. -/
def ESSOutput : Prop :=
  f = .essMode ∧ ∃ e ∈ devices all .settings, (essModeOf e.2).isSome = true

/-- The members the reducer outputs. -/
inductive Output : Prop
  | grid (h : GridOutput all f)
  | vebus (h : VebusOutput all f)
  | battery (h : BatteryOutput all f)
  | solar (h : SolarOutput all f)
  | loads (h : LoadsOutput all f)
  | water (h : WaterOutput all o f)
  | ev (h : EVOutput all o f)
  | ess (h : ESSOutput all f)

end Parts

/-! ## What the parts output -/

/-- A sum is there when one of its summands is. -/
theorem outputSum_isSome_iff (vs : List (Option F64)) :
    (outputSum vs).isSome = true ↔ ∃ v ∈ vs, v.isSome = true := by
  have hfold : ∀ {f : Option F64 → Option F64 → Option F64},
      (∀ total v, (f total v).isSome = true ↔ total.isSome = true ∨ v.isSome = true) →
        ∀ total, (vs.foldl f total).isSome = true ↔
          total.isSome = true ∨ ∃ v ∈ vs, v.isSome = true := by
    intro f hf
    induction vs with
    | nil => simp
    | cons v vs ih =>
      intro total
      rw [List.foldl_cons, ih, hf, or_assoc, List.exists_mem_cons_iff]
  unfold outputSum
  rw [hfold (fun total v => by cases v <;> simp)]
  simp

theorem isSome_orElse {α : Type} (a b : Option α) :
    (a.orElse fun _ => b).isSome = true ↔ a.isSome = true ∨ b.isSome = true := by
  cases a <;> simp

/-- Two readings are added up when one of them is there. -/
theorem isSome_ite_add (a b : Option F64) :
    (if (a.isSome || b.isSome) = true then some ((a.getD 0).add (b.getD 0)) else none).isSome =
      true ↔ a.isSome = true ∨ b.isSome = true := by
  cases a <;> cases b <;> simp

section Parts

variable {all : LeafMap} {o : CerboOptions} {out : Overlay} {f : Field}

/-- `gridOverlay` outputs the phases and their totals. -/
theorem outputs_gridOverlay :
    (gridOverlay all out).outputs f ↔ GridOutput all f ∨ out.outputs f := by
  have htt : (outputSum [consumptionReading all .l1, consumptionReading all .l2,
      consumptionReading all .l3]).isSome = true ↔
      ∃ p, (consumptionReading all p).isSome = true := by
    rw [outputSum_isSome_iff, Phase.exists_iff]
    simp
  have hgt : ((outputSum [(gridReading all .l1).2, (gridReading all .l2).2,
      (gridReading all .l3).2]).orElse fun _ =>
      if (phaseKnown (gridReading all .l1)).isNone && (phaseKnown (gridReading all .l2)).isNone &&
          (phaseKnown (gridReading all .l3)).isNone then
        firstNum (devices all .grid) ["Ac/Power"]
      else none).isSome = true ↔ (∃ p, (gridReading all p).2.isSome = true) ∨
        (∀ p, (phaseKnown (gridReading all p)).isSome = false) ∧
          (firstNum (devices all .grid) ["Ac/Power"]).isSome = true := by
    rw [isSome_orElse, outputSum_isSome_iff, Phase.exists_iff, Phase.forall_iff]
    refine or_congr (by simp) ?_
    split_ifs with h
    · simp_all
    · simp_all
  have hmembers : (gridOverlay all out).outputs f ↔
      f = .tt ∧ (∃ p, (consumptionReading all p).isSome = true) ∨
      f = .gt ∧ ((∃ p, (gridReading all p).2.isSome = true) ∨
        (∀ p, (phaseKnown (gridReading all p)).isSome = false) ∧
          (firstNum (devices all .grid) ["Ac/Power"]).isSome = true) ∨
      PhaseOutput all f .l3 ∨ PhaseOutput all f .l2 ∨ PhaseOutput all f .l1 ∨ out.outputs f := by
    rw [← htt, ← hgt]
    simp only [gridOverlay, Overlay.outputs_putIf, Option.isSome_map, PhaseOutput, or_assoc]
    rfl
  have hphase : (∃ p, PhaseOutput all f p) ↔
      PhaseOutput all f .l1 ∨ PhaseOutput all f .l2 ∨ PhaseOutput all f .l3 := Phase.exists_iff
  rw [hmembers]
  constructor
  · rintro (⟨hf, h⟩ | ⟨hf, h⟩ | h | h | h | h)
    · exact Or.inl (.consumptionTotal hf h)
    · exact Or.inl (.gridTotal hf h)
    · exact Or.inl (.phase .l3 h)
    · exact Or.inl (.phase .l2 h)
    · exact Or.inl (.phase .l1 h)
    · exact Or.inr h
  · rintro ((⟨p, h⟩ | ⟨hf, h⟩ | ⟨hf, h⟩) | h)
    · rcases hphase.mp ⟨p, h⟩ with h | h | h <;> simp [h]
    · exact Or.inr (Or.inl ⟨hf, h⟩)
    · exact Or.inl ⟨hf, h⟩
    · simp [h]

theorem outputs_vebusOverlay :
    (vebusOverlay all out).outputs f ↔ VebusOutput all f ∨ out.outputs f := by
  simp only [vebusOverlay, Overlay.outputs_putIf, Option.isSome_map]
  constructor
  · rintro (⟨hf, h⟩ | ⟨hf, h⟩ | h)
    · exact Or.inl (.state hf h)
    · exact Or.inl (.setpoint hf h)
    · exact Or.inr h
  · rintro ((⟨hf, h⟩ | ⟨hf, h⟩) | h)
    · exact Or.inr (Or.inl ⟨hf, h⟩)
    · exact Or.inl ⟨hf, h⟩
    · exact Or.inr (Or.inr h)

theorem outputs_batteryOverlay :
    (batteryOverlay all out).outputs f ↔ BatteryOutput all f ∨ out.outputs f := by
  have hmembers : (batteryOverlay all out).outputs f ↔
      f = .bp ∧ (bankPower all).isSome = true ∨ f = .batteryPower ∧ (bankPower all).isSome = true ∨
      f = .bc ∧ (bankReading all "Current").isSome = true ∨
      f = .batteryCurrent ∧ (bankReading all "Current").isSome = true ∨
      f = .batterySOC ∧ (socVoltage all).isSome = true ∨
      f = .bv ∧ (bankReading all "Voltage").isSome = true ∨
      f = .batteryVoltage ∧ (bankReading all "Voltage").isSome = true ∨
      f = .batteries ∧ (devices all .battery).isEmpty = false ∨ out.outputs f := by
    have hrows : ∀ v, (if (devices all .battery).isEmpty then out else out.put .batteries v).outputs
        f ↔ f = .batteries ∧ (devices all .battery).isEmpty = false ∨ out.outputs f := by
      intro v
      cases h : (devices all .battery).isEmpty with
      | true => simp
      | false => simp [Overlay.outputs_put]
    unfold batteryOverlay
    dsimp only
    simp only [Overlay.outputs_putIf, Option.isSome_map, hrows]
    rfl
  rw [hmembers]
  constructor
  · rintro (⟨hf, h⟩ | ⟨hf, h⟩ | ⟨hf, h⟩ | ⟨hf, h⟩ | ⟨hf, h⟩ | ⟨hf, h⟩ | ⟨hf, h⟩ | ⟨hf, h⟩ | h)
    · exact Or.inl (.power (Or.inr hf) h)
    · exact Or.inl (.power (Or.inl hf) h)
    · exact Or.inl (.current (Or.inr hf) h)
    · exact Or.inl (.current (Or.inl hf) h)
    · exact Or.inl (.soc hf h)
    · exact Or.inl (.voltage (Or.inr hf) h)
    · exact Or.inl (.voltage (Or.inl hf) h)
    · exact Or.inl (.rows hf h)
    · exact Or.inr h
  · rintro ((⟨hf, h⟩ | ⟨hf, h⟩ | ⟨hf | hf, h⟩ | ⟨hf | hf, h⟩ | ⟨hf | hf, h⟩) | h) <;> simp [*]

/-- The total of the chargers as `solarOverlay` takes it, from the second parts of the rows. -/
theorem mpptTotal_eq (all : LeafMap) :
    ((firstNum (devices all .system) ["Dc/Pv/Power"]).orElse fun _ =>
      outputSum (((sortedStringKeys (devices all .solarcharger)).map fun e =>
        mpptRow e.1 e.2).map Prod.snd)) = mpptReading all := by
  rw [List.map_map]
  rfl

/-- The total of the PV inverters as `solarOverlay` takes it. -/
theorem pvTotal_eq (all : LeafMap) :
    ((outputSum (["PvOnGrid", "PvOnOutput", "PvOnGenset"].flatMap fun location =>
      Phase.all.map fun p => firstNum (devices all .system)
        ["Ac/" ++ location ++ "/" ++ p.label ++ "/Power"])).orElse fun _ =>
      outputSum (((sortedStringKeys (devices all .pvinverter)).map fun e =>
        pvRow e.1 e.2).map Prod.snd)) = pvReading all := by
  rw [List.map_map]
  rfl

theorem outputs_solarOverlay :
    (solarOverlay all out).outputs f ↔ SolarOutput all f ∨ out.outputs f := by
  have hmppts : ∀ (b : Bool) (o₁ : Overlay) (v : Field.type .mpptChargers |>.denote)
      (w : Field.type .mpptIndividual |>.denote),
      (if b = true then o₁ else (o₁.put .mpptChargers v).put .mpptIndividual w).outputs f ↔
        f = .mpptIndividual ∧ b = false ∨ f = .mpptChargers ∧ b = false ∨ o₁.outputs f := by
    intro b o₁ v w
    cases b <;> simp [Overlay.outputs_put]
  have hpvs : ∀ (b : Bool) (o₁ : Overlay) (v : Field.type .pvInverters |>.denote),
      (if b = true then o₁ else o₁.put .pvInverters v).outputs f ↔
        f = .pvInverters ∧ b = false ∨ o₁.outputs f := by
    intro b o₁ v
    cases b <;> simp [Overlay.outputs_put]
  have hmembers : (solarOverlay all out).outputs f ↔
      f = .solarTotal ∧ ((mpptReading all).isSome = true ∨ (pvReading all).isSome = true) ∨
      f = .pvInverterTotal ∧ (pvReading all).isSome = true ∨
      f = .pvTotal ∧ (mpptReading all).isSome = true ∨
      f = .mpptTotal ∧ (mpptReading all).isSome = true ∨
      f = .pvInverters ∧ (devices all .pvinverter).isEmpty = false ∨
      f = .mpptIndividual ∧ (devices all .solarcharger).isEmpty = false ∨
      f = .mpptChargers ∧ (devices all .solarcharger).isEmpty = false ∨ out.outputs f := by
    unfold solarOverlay
    dsimp only
    rw [mpptTotal_eq, pvTotal_eq]
    simp only [Overlay.outputs_putIf, hmppts, hpvs, isSome_ite_add]
  rw [hmembers]
  constructor
  · rintro (⟨hf, h⟩ | ⟨hf, h⟩ | ⟨hf, h⟩ | ⟨hf, h⟩ | ⟨hf, h⟩ | ⟨hf, h⟩ | ⟨hf, h⟩ | h)
    · exact Or.inl (.total hf h)
    · exact Or.inl (.pv hf h)
    · exact Or.inl (.mppt (Or.inr hf) h)
    · exact Or.inl (.mppt (Or.inl hf) h)
    · exact Or.inl (.pvRows hf h)
    · exact Or.inl (.mpptRows (Or.inr hf) h)
    · exact Or.inl (.mpptRows (Or.inl hf) h)
    · exact Or.inr h
  · rintro ((⟨hf | hf, h⟩ | ⟨hf, h⟩ | ⟨hf | hf, h⟩ | ⟨hf, h⟩ | ⟨hf, h⟩) | h) <;> simp [*]

theorem outputs_loadsOverlay :
    (loadsOverlay all out).outputs f ↔ LoadsOutput all f ∨ out.outputs f := by
  unfold loadsOverlay LoadsOutput
  dsimp only
  cases h : (devices all .acload).isEmpty with
  | true => simp
  | false => simp [Overlay.outputs_put, or_assoc, or_left_comm]

theorem outputs_waterOverlay :
    (waterOverlay all o out).outputs f ↔ WaterOutput all o f ∨ out.outputs f := by
  simp only [waterOverlay, Overlay.outputs_putIf, Option.isSome_map]
  constructor
  · rintro (⟨hf, h⟩ | ⟨hf, h⟩ | ⟨hf, h⟩ | ⟨hf, h⟩ | ⟨hf, h⟩ | ⟨hf, h⟩ | h)
    · exact Or.inl (.pumpMode (Or.inr hf) h)
    · exact Or.inl (.valveMode hf h)
    · exact Or.inl (.pumpMode (Or.inl hf) h)
    · exact Or.inl (.valve hf h)
    · exact Or.inl (.pump hf h)
    · exact Or.inl (.level hf h)
    · exact Or.inr h
  · rintro ((⟨hf, h⟩ | ⟨hf, h⟩ | ⟨hf, h⟩ | ⟨hf | hf, h⟩ | ⟨hf, h⟩) | h) <;> simp [*]

theorem outputs_applyEVOverlay :
    (applyEVOverlay all o out).outputs f ↔ EVOutput all o f ∨ out.outputs f := by
  have hsoc : ((evSOC (evDevice all o)).orElse fun _ =>
      if o.evInstance < 0 then evSOC (evchargerDevice all o) else none).isSome = true ↔
      (evSOC (evDevice all o)).isSome = true ∨
        o.evInstance < 0 ∧ (evSOC (evchargerDevice all o)).isSome = true := by
    rw [isSome_orElse]
    split_ifs with h <;> simp [h]
  have hmembers : (applyEVOverlay all o out).outputs f ↔
      f = .carSOC ∧ ((evSOC (evDevice all o)).isSome = true ∨
        o.evInstance < 0 ∧ (evSOC (evchargerDevice all o)).isSome = true) ∨
      f = .evChargingKW ∧ (evchargerDevice all o).acPower.isSome = true ∨
      f = .evChargingPower ∧ (evchargerDevice all o).acPower.isSome = true ∨
      f = .carChargingPower ∧ (evDevice all o).acPower.isSome = true ∨
      f = .evPower ∧ (evDevice all o).acPower.isSome = true ∨
      f = .evChargerPresent ∨ f = .evPresent ∨ f = .discoveredWaterEV ∨ out.outputs f := by
    rw [← hsoc]
    simp only [applyEVOverlay, Overlay.outputs_putIf, Overlay.outputs_put, Option.isSome_map]
    rfl
  rw [hmembers]
  constructor
  · rintro (⟨hf, h⟩ | ⟨hf, h⟩ | ⟨hf, h⟩ | ⟨hf, h⟩ | ⟨hf, h⟩ | hf | hf | hf | h)
    · exact Or.inl (.soc hf h)
    · exact Or.inl (.charger (Or.inr hf) h)
    · exact Or.inl (.charger (Or.inl hf) h)
    · exact Or.inl (.ev (Or.inr hf) h)
    · exact Or.inl (.ev (Or.inl hf) h)
    · exact Or.inl (.inventory (Or.inr (Or.inr hf)))
    · exact Or.inl (.inventory (Or.inr (Or.inl hf)))
    · exact Or.inl (.inventory (Or.inl hf))
    · exact Or.inr h
  · rintro (((hf | hf | hf) | ⟨hf | hf, h⟩ | ⟨hf | hf, h⟩ | ⟨hf, h⟩) | h) <;> simp [*]

theorem outputs_applyESSOverlay :
    (applyESSOverlay all out).outputs f ↔ ESSOutput all f ∨ out.outputs f := by
  rw [applyESSOverlay, Overlay.outputs_putIf, List.findSome?_isSome_iff]
  simp only [mem_sortedStringKeys, ESSOutput]

/-- The reducer outputs a member exactly when one of its parts does. -/
theorem outputs_cerboOverlay_iff : (cerboOverlay all o).outputs f ↔ Output all o f := by
  have hempty : ¬Overlay.empty.outputs f := fun h => by cases h
  unfold cerboOverlay
  rw [outputs_applyESSOverlay, outputs_applyEVOverlay, outputs_waterOverlay, outputs_loadsOverlay,
    outputs_solarOverlay, outputs_batteryOverlay, outputs_vebusOverlay, outputs_gridOverlay]
  constructor
  · rintro (h | h | h | h | h | h | h | h | h)
    · exact .ess h
    · exact .ev h
    · exact .water h
    · exact .loads h
    · exact .solar h
    · exact .battery h
    · exact .vebus h
    · exact .grid h
    · exact absurd h hempty
  · rintro (h | h | h | h | h | h | h | h) <;> simp [h]

/-- No other part outputs a member of the bank. -/
theorem Output.bank (h : Output all o f)
    (hf : f ∈ [Field.batteryVoltage, .bv, .batteryCurrent, .bc, .batteryPower, .bp]) :
    BatteryOutput all f := by
  have hnot : ∀ fs : List Field, (∀ g ∈ [Field.batteryVoltage, .bv, .batteryCurrent, .bc,
      .batteryPower, .bp], g ∉ fs) → f ∉ fs := fun fs hfs => hfs f hf
  have hess : f ≠ .essMode := fun he => hnot [.essMode] (by decide) (by rw [he]; decide)
  rw [← outputs_cerboOverlay_iff, Overlay.outputs, cerboOverlay, applyESSOverlay_val _ _ hess,
    applyEVOverlay_val _ _ _ (hnot _ (by decide)), waterOverlay_val _ _ _ (hnot _ (by decide)),
    loadsOverlay_val _ _ (hnot _ (by decide)), solarOverlay_val _ _ (hnot _ (by decide))] at h
  rcases outputs_batteryOverlay.mp h with h | h
  · exact h
  · rw [Overlay.outputs, vebusOverlay_val _ _ (hnot _ (by decide)),
      gridOverlay_val _ _ (hnot _ (by decide))] at h
    cases h

/-- No other part outputs a total of the solar readings. -/
theorem Output.solarTotals (h : Output all o f)
    (hf : f ∈ [Field.mpptTotal, .pvTotal, .solarTotal]) : SolarOutput all f := by
  have hnot : ∀ fs : List Field, (∀ g ∈ [Field.mpptTotal, .pvTotal, .solarTotal], g ∉ fs) →
      f ∉ fs := fun fs hfs => hfs f hf
  have hess : f ≠ .essMode := fun he => hnot [.essMode] (by decide) (by rw [he]; decide)
  rw [← outputs_cerboOverlay_iff, Overlay.outputs, cerboOverlay, applyESSOverlay_val _ _ hess,
    applyEVOverlay_val _ _ _ (hnot _ (by decide)), waterOverlay_val _ _ _ (hnot _ (by decide)),
    loadsOverlay_val _ _ (hnot _ (by decide))] at h
  rcases outputs_solarOverlay.mp h with h | h
  · exact h
  · rw [Overlay.outputs, batteryOverlay_val _ _ (hnot _ (by decide)),
      vebusOverlay_val _ _ (hnot _ (by decide)), gridOverlay_val _ _ (hnot _ (by decide))] at h
    cases h

theorem Output.bankVoltage (h : Output all o f) (hf : f = .batteryVoltage ∨ f = .bv) :
    (bankReading all "Voltage").isSome = true := by
  rcases h.bank (by rcases hf with rfl | rfl <;> decide) with
    ⟨hf', -⟩ | ⟨hf', -⟩ | ⟨-, h⟩ | ⟨hf', -⟩ | ⟨hf', -⟩
  case voltage => exact h
  all_goals rcases hf with rfl | rfl <;> simp at hf'

theorem Output.bankCurrent (h : Output all o f) (hf : f = .batteryCurrent ∨ f = .bc) :
    (bankReading all "Current").isSome = true := by
  rcases h.bank (by rcases hf with rfl | rfl <;> decide) with
    ⟨hf', -⟩ | ⟨hf', -⟩ | ⟨hf', -⟩ | ⟨-, h⟩ | ⟨hf', -⟩
  case current => exact h
  all_goals rcases hf with rfl | rfl <;> simp at hf'

theorem Output.bankPower (h : Output all o f) (hf : f = .batteryPower ∨ f = .bp) :
    (Dashboard.bankPower all).isSome = true := by
  rcases h.bank (by rcases hf with rfl | rfl <;> decide) with
    ⟨hf', -⟩ | ⟨hf', -⟩ | ⟨hf', -⟩ | ⟨hf', -⟩ | ⟨-, h⟩
  case power => exact h
  all_goals rcases hf with rfl | rfl <;> simp at hf'

theorem Output.mppt (h : Output all o f) (hf : f = .mpptTotal ∨ f = .pvTotal) :
    (mpptReading all).isSome = true := by
  rcases h.solarTotals (by rcases hf with rfl | rfl <;> decide) with
    ⟨hf', -⟩ | ⟨hf', -⟩ | ⟨-, h⟩ | ⟨hf', -⟩ | ⟨hf', -⟩
  case mppt => exact h
  all_goals rcases hf with rfl | rfl <;> simp at hf'

theorem Output.solarTotal (h : Output all o .solarTotal) :
    (mpptReading all).isSome = true ∨ (pvReading all).isSome = true := by
  rcases h.solarTotals (by decide) with ⟨hf, -⟩ | ⟨hf, -⟩ | ⟨hf, -⟩ | ⟨hf, -⟩ | ⟨-, h⟩
  case total => exact h
  all_goals simp at hf

end Parts

end Dashboard
