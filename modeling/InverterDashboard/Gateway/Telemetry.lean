import InverterDashboard.Gateway.Map
import InverterDashboard.Lan.Ownership

set_option relaxedAutoImplicit false
set_option autoImplicit false

/-!
# Telemetry-only snapshots

`SnapshotToState` of `internal/gateway/map.go`, and what `ApplyState` of `internal/mqtt/client.go`
keeps of the controller when a snapshot has no inverter section.

## Main definitions

* `Dashboard.Gateway.Snapshot`, `Snapshot.leafMap` — a decoded answer of `GET /v1/snapshot`.
* `Dashboard.Gateway.MapOptions` — the configured device instances and their defaults.
* `Dashboard.Gateway.cerboSnapshotToState`, `snapshotToState` — the state of a snapshot.
* `Dashboard.controllerMembers` — `controllerFields`, `dry_run` and the seven flags.
* `Dashboard.Gateway.KeepsController` — a snapshot left the controller members alone.

## Main results

* `Dashboard.Gateway.controllerBlank_of_telemetryOnly` — a snapshot without an inverter section
  maps to a state without controller data.
* `Dashboard.State.preserve_controller` — which controller members `ApplyState` keeps.
* `Dashboard.Gateway.keepsController_iff` — when the controller survives such a snapshot.
-/

namespace Dashboard

open Go

namespace Gateway

/-! ## Snapshots -/

/-- `Snapshot`: `inverterPresent` is the presence of the exact key, and a nil map is `none`. -/
structure Snapshot where
  capabilities : GoMap Bool := none
  inverterPresent : Bool := false
  inverter : Option Frame := none
  leaves : Kind → RawLeaves := fun _ => []
  platform : RawLeaves := []

/-- `decoded`, for the services of the native reducer. A key without a second level names no leaf
of a device. -/
def Snapshot.leafMap (snap : Snapshot) : LeafMap :=
  (Kind.all.flatMap fun k => (decodeLeaves (snap.leaves k)).filterMap fun e =>
    match e.1 with
    | inst :: p :: ps => some ((⟨k, inst, topicText (p :: ps)⟩ : Leaf), e.2)
    | _ => none).foldl (fun m e => m.insert e.1 e.2) ∅

/-- The leaves that carry banners. -/
def Snapshot.banners (snap : Snapshot) : SnapshotLeaves :=
  { platform := snap.platform, battery := snap.leaves .battery, vebus := snap.leaves .vebus }

/-- `MapOptions`. -/
structure MapOptions where
  tankInstance : ℤ := 0
  pumpInstance : ℤ := 0
  valveInstance : ℤ := 0
  evInstance : ℤ := 0
  evchargerInstance : ℤ := 0
  evInstancesConfigured : Bool := false
  waterInstancesConfigured : Bool := false

/-- `withDefaults`, as the options of the reducer. -/
def MapOptions.withDefaults (o : MapOptions) : CerboOptions :=
  let fill (configured : Bool) (n default : ℤ) : ℤ := if !configured && n == 0 then default else n
  { tankInstance := fill o.waterInstancesConfigured o.tankInstance 21
    pumpInstance := fill o.waterInstancesConfigured o.pumpInstance 1
    valveInstance := fill o.waterInstancesConfigured o.valveInstance 2
    evInstance := fill o.evInstancesConfigured o.evInstance (-1)
    evchargerInstance := fill o.evInstancesConfigured o.evchargerInstance (-1) }

/-- The throw-away client of `CerboSnapshotToState`. -/
def snapshotClient (all : LeafMap) (o : CerboOptions) : Client :=
  { state := .zero
    cerboLeaves := all
    tankInstance := o.tankInstance
    pumpInstance := o.pumpInstance
    valveInstance := o.valveInstance
    evInstance := o.evInstance
    evchargerInstance := o.evchargerInstance }

/-- `CerboSnapshotToState`. -/
def cerboSnapshotToState (all : LeafMap) (o : CerboOptions) : Option State :=
  (snapshotClient all o).applyCerboOverlays.map (·.state)

/-- The controller section of `SnapshotToState`. -/
def applyInverter (snap : Snapshot) (now : Time) (st : State) : Option State := do
  let data := snap.inverter.getD []
  let st ← applyControllerSnapshot st data
  let st := if (snap.capabilities.find "setpoint_override").getD false then
      let status := parseOverrideStatus ((entry data "setpoint_override").getD .nil)
      let st := st.set .setpointOverride status
      if status.isSome then st.set .setpointOverrideObservedAt (some (receiptSeconds now)) else st
    else st
  let st := if (snap.capabilities.find "electricity_tariff").getD false then
      st.set .electricityTariffObservedAt (some (receiptSeconds now))
    else st
  let st := match st.field .gridBackup with
    | some b => st.set .gridBackupObservedAt b.measurementTime
    | none => st
  return if ((entry data "ess_mode").bind Any.object?).isSome then
      st.set .essModeObservedAt (some (receiptSeconds now))
    else st

/-- `SnapshotToState`. The push samples are consumed by `ApplyState` before the snapshot is
installed and are not kept. -/
def snapshotToState (r : NativeScalars) (snap : Snapshot) (opt : MapOptions) (now : Time) :
    Option State := do
  let st ← cerboSnapshotToState snap.leafMap opt.withDefaults
  let st := st.set .gatewayCapabilities snap.capabilities
  let st := st.set .notifications (GoSlice.ofList (mapNotifications r snap.banners))
  if snap.inverterPresent || snap.inverter.isSome then applyInverter snap now st else some st

end Gateway

/-! ## Members taken over -/

namespace State

theorem inherit_native (st prev : State) (cond : Bool) (fs : List Field) :
    (st.inherit prev cond fs).nativeESSObserved = st.nativeESSObserved := by
  unfold inherit
  split_ifs
  · exact foldl_nativeESSObserved (fun _ _ => set_nativeESSObserved _ _ _) fs st
  · rfl

end State

/-- The members of the controller section with the seven flags; `dry_run` is one of the section. -/
def controllerMembers : List Field :=
  controllerFields ++ [.onlyCharging, .noFeed, .houseSupport, .chargeBattery,
    .doNotSupplyCharger, .setLimitToEVCharger, .minimizeCharging]

/-- A state without controller data: no verdict on the inverter, and zero members. -/
structure ControllerBlank (st : State) : Prop where
  omitted : st.field .inverterAvailable = none
  zero : ∀ f ∈ controllerMembers, f ≠ .essMode → st.field f = f.type.zero
  ess : st.nativeESSObserved = false → st.field .essMode = {} ∧ st.available "ess_mode" = false

/-- The controller members that `ApplyState` has no rule for. -/
def droppedMembers : List Field := [.gridBackup, .gridUsingBackup, .uptime]

namespace State

/-- **Preservation.** Over a state without controller data `ApplyState` takes over every controller
member but three.

**Proof sketch.** Each rule looks at members no earlier rule has touched, so its guard holds of the
blank state; what is left is which list names the member. -/
theorem preserve_controller {st : State} (prev : State) (h : ControllerBlank st) {f : Field}
    (hf : f ∈ controllerMembers) (hess : f = .essMode → st.nativeESSObserved = false) :
    (st.preserve prev).field f = if f ∈ droppedMembers then f.type.zero else prev.field f := by
  have hz : ∀ g ∈ controllerMembers, g ≠ .essMode → st.field g = g.type.zero := h.zero
  have hnone : (st.field .features).isNone ∧ (st.field .gridControlValid).isNone ∧
      (st.field .perf).isNone ∧ (st.field .limits).isNone ∧ (st.field .dvccLimits).isNone ∧
      (st.field .uiConfig).isNone ∧ (st.field .booleans).isNone ∧
      (st.field .solarForecast).isNone := by
    refine ⟨?_, ?_, ?_, ?_, ?_, ?_, ?_, ?_⟩ <;> rw [hz _ (by decide) (by decide)] <;> rfl
  have hzero : (st.field .loopInterval).eq 0 = true ∧ (st.field .dailyStats).isZero = true ∧
      (st.field .version == "") = true := by
    refine ⟨?_, ?_, ?_⟩ <;> rw [hz _ (by decide) (by decide)] <;> decide
  simp only [preserve, inherit_field, inherit_native, available, List.mem_cons, List.not_mem_nil,
    reduceCtorEq, or_false, and_false, if_false, h.omitted, Option.isNone_none, Bool.true_and,
    hnone, hzero, true_and]
  by_cases hmode : f = .essMode
  · subst hmode
    obtain ⟨hblank, hav⟩ := h.ess (hess rfl)
    rw [available] at hav
    simp [hblank, hav, hess rfl, droppedMembers]
  by_cases hdrop : f ∈ droppedMembers
  · rw [if_pos hdrop, ← hz f hf hmode]
    fin_cases hdrop <;> simp
  · rw [if_neg hdrop]
    fin_cases hf <;> first
      | exact absurd rfl hmode
      | exact absurd (by decide) hdrop
      | simp

end State

namespace Gateway

/-- A snapshot without an inverter section, neither under the exact key nor under a folded one. -/
def Snapshot.TelemetryOnly (snap : Snapshot) : Prop :=
  snap.inverterPresent = false ∧ snap.inverter = none

instance (snap : Snapshot) : Decidable snap.TelemetryOnly :=
  inferInstanceAs (Decidable (_ ∧ _))

/-- The reducer leaves the controller members of a zero state alone. -/
theorem controllerBlank_of_cerboSnapshotToState {all : LeafMap} {o : CerboOptions} {st : State}
    (h : cerboSnapshotToState all o = some st) : ControllerBlank st := by
  obtain ⟨c, hc, rfl⟩ := Option.map_eq_some_iff.mp h
  have hov := Client.overlaid_of_eq_some hc
  refine ⟨?_, fun f hf hess => ?_, fun hnative => ?_⟩
  · exact hov.field_of_not_direct (by decide) (by decide)
  · refine hov.field_of_not_direct (fun hd => ?_) ?_
    · fin_cases hf <;> first | exact hess rfl | exact absurd hd (by decide)
    · rintro rfl
      exact absurd hf (by decide)
  · -- Without a `Hub4Mode` leaf nothing claims the mode.
    have howned : c.cerboOwned.has .essMode = false := by
      by_contra ho
      rw [hov.native_of_owned (by simpa using ho)] at hnative
      cases hnative
    refine ⟨?_, ?_⟩
    · rw [hov.field .essMode (by decide) (fun _ => rfl), howned]
      rfl
    · show c.state.available Field.essMode.jsonName = false
      rw [hov.avail .essMode, howned]
      rfl

/-- **Telemetry-only snapshots.** Without an inverter section `SnapshotToState` returns a state
without controller data. -/
theorem controllerBlank_of_telemetryOnly (r : NativeScalars) {snap : Snapshot} (opt : MapOptions)
    (now : Time) (h : snap.TelemetryOnly) :
    ∃ st, snapshotToState r snap opt now = some st ∧ ControllerBlank st := by
  obtain ⟨c, hc, -⟩ := (snapshotClient snap.leafMap opt.withDefaults).applyCerboOverlays_spec
  have hst : cerboSnapshotToState snap.leafMap opt.withDefaults = some c.state := by
    rw [cerboSnapshotToState, hc]
    rfl
  have hblank := controllerBlank_of_cerboSnapshotToState hst
  have hset : ∀ f, f ≠ .gatewayCapabilities → f ≠ .notifications →
      ((c.state.set .gatewayCapabilities snap.capabilities).set .notifications
        (GoSlice.ofList (mapNotifications r snap.banners))).field f = c.state.field f := by
    intro f hcap hnot
    rw [State.set_field_ne _ hnot, State.set_field_ne _ hcap]
  have hne : ∀ f ∈ controllerMembers, f ≠ .gatewayCapabilities ∧ f ≠ .notifications := by decide
  refine ⟨(c.state.set .gatewayCapabilities snap.capabilities).set .notifications
    (GoSlice.ofList (mapNotifications r snap.banners)), ?_,
    ⟨?_, fun f hf hess => ?_, fun hnative => ?_⟩⟩
  · rw [snapshotToState, hst, h.1, h.2]
    rfl
  · rw [hset _ (by decide) (by decide), hblank.omitted]
  · rw [hset f (hne f hf).1 (hne f hf).2, hblank.zero f hf hess]
  · obtain ⟨hmode, hav⟩ := hblank.ess hnative
    refine ⟨by rw [hset _ (by decide) (by decide), hmode], ?_⟩
    rw [State.available, hset _ (by decide) (by decide)]
    exact hav

/-! ## The controller after a snapshot -/

/-- The call left the controller members alone, apart from an ESS mode that the snapshot
observed. -/
def KeepsController (c : Client) (st : State) (c' : Client) : Prop :=
  ∀ f ∈ controllerMembers, (f = .essMode → st.nativeESSObserved = false) →
    c'.state.field f = c.state.field f

/-- What a client holds of the members without a rule is what a snapshot without them says. -/
def NothingToDrop (c : Client) : Prop := ∀ f ∈ droppedMembers, c.state.field f = f.type.zero

/-- The state of a client after a snapshot. -/
theorem applyState_state (c : Client) (st : State) (now : Time) :
    (c.applyState st now).state = st.preserve c.state := by
  unfold Client.applyState
  cases st.field .inverterAvailable <;> rfl

/-- **Controller data over telemetry-only snapshots.** A snapshot without an inverter section
leaves the controller members alone exactly if the client holds no grid backup, does not use one
and holds no uptime.

**Proof sketch.** `SnapshotToState` returns a state without controller data, and `ApplyState` takes
over every member it has a rule for. A member without a rule becomes zero. -/
theorem keepsController_iff (c : Client) (r : NativeScalars) (snap : Snapshot) (opt : MapOptions)
    (now : Time) (h : snap.TelemetryOnly) :
    ∃ st, snapshotToState r snap opt now = some st ∧
      (KeepsController c st (c.applyState st now) ↔
        c.state.field .gridBackup = none ∧ c.state.field .gridUsingBackup = false ∧
          c.state.field .uptime = 0) := by
  obtain ⟨st, hst, hblank⟩ := controllerBlank_of_telemetryOnly r opt now h
  have hkeep : KeepsController c st (c.applyState st now) ↔ NothingToDrop c := by
    unfold KeepsController
    rw [applyState_state]
    constructor
    · intro hk f hf
      have hmem : f ∈ controllerMembers ∧ f ≠ .essMode := by fin_cases hf <;> decide
      rw [← hk f hmem.1 fun hess => absurd hess hmem.2,
        State.preserve_controller _ hblank hmem.1 fun hess => absurd hess hmem.2, if_pos hf]
    · intro hno f hf hess
      rw [State.preserve_controller _ hblank hf hess]
      split_ifs with hdrop
      · exact (hno f hdrop).symm
      · rfl
  refine ⟨st, hst, hkeep.trans ?_⟩
  unfold NothingToDrop droppedMembers
  simp only [List.forall_mem_cons, List.not_mem_nil, false_imp_iff, implies_true, and_true]
  rfl

/-- A client in gateway mode that a snapshot has told about the grid backup. -/
def backedUp : Client :=
  (newClient {}).enableGateway.applyState
    ((snapshotToState Lan.noScalars
      { inverterPresent := true
        inverter := some [("grid_using_backup", .bool true), ("uptime", .float64 60)] } {} 0).getD
      .zero) 0

theorem keepsController_iff_newClient : Snapshot.TelemetryOnly {} ∧
    ∃ st, snapshotToState Lan.noScalars {} {} 0 = some st ∧
      KeepsController (newClient {}).enableGateway st
        ((newClient {}).enableGateway.applyState st 0) := by
  obtain ⟨st, hst, hiff⟩ :=
    keepsController_iff (newClient {}).enableGateway Lan.noScalars {} {} 0 (by decide)
  exact ⟨by decide, st, hst, hiff.mpr (by decide)⟩

/-- A snapshot without an inverter section ends the grid backup that an earlier one reported. -/
theorem not_keepsController_backedUp : backedUp.gatewayMode = true ∧
    Snapshot.TelemetryOnly {} ∧ ∃ st, snapshotToState Lan.noScalars {} {} 1000 = some st ∧
      backedUp.state.field .gridUsingBackup = true ∧
      (backedUp.applyState st 1000).state.field .gridUsingBackup = false ∧
      ¬ KeepsController backedUp st (backedUp.applyState st 1000) := by
  obtain ⟨st, hst, hblank⟩ := controllerBlank_of_telemetryOnly Lan.noScalars {} 1000
    (by decide : Snapshot.TelemetryOnly {})
  have hbefore : backedUp.state.field .gridUsingBackup = true := by decide
  have hafter : (backedUp.applyState st 1000).state.field .gridUsingBackup = false := by
    rw [applyState_state, State.preserve_controller _ hblank (by decide) fun h => by cases h]
    rfl
  refine ⟨by decide, by decide, st, hst, hbefore, hafter, fun hk => ?_⟩
  have hsame := hk .gridUsingBackup (by decide) fun h => by cases h
  rw [hbefore, hafter] at hsame
  cases hsame

end Gateway

end Dashboard
