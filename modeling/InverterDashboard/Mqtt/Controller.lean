import InverterDashboard.Mqtt.Client

set_option relaxedAutoImplicit false
set_option autoImplicit false

/-!
# Controller frames

`controller.go`, `controller_commands.go`, `ess_mode.go` and `mergeDaemonState` of `cerbo.go`: how
a frame on `inverter/state` or `inverter/setpoint_override` changes the client.

## Main definitions

* `Dashboard.applyControllerSnapshot` — the controller section of a state.
* `Dashboard.Client.mergeDaemonState` — a frame merged key by key.
* `Dashboard.Client.observeESSMode`, `observeControllerCommands` — the receipts.
* `Dashboard.Client.applyControllerMessage` — the callback body.
* `Dashboard.Client.expireOptionalTelemetry`, `clearOptionalTelemetry` — expiry.

## Main results

* `Dashboard.applyControllerSnapshot_spec` — the snapshot never panics, and what it does
  (`Snapshotted`).
-/

namespace Dashboard

open Go

/-- The members of the controller section, in the order of the source. -/
def controllerFields : List Field :=
  [.gridBackup, .gridUsingBackup, .booleans, .features, .essMode, .dryRun, .dailyStats,
    .solarForecast, .uiConfig, .dvccLimits, .limits, .perf, .loopInterval, .gridControlValid,
    .gridControlReason, .gridLossState, .gridLossHoldSeconds, .gridLossElapsed,
    .gridLossRemaining, .gridLossZeroApplied, .version, .uptime]

/-- The names `isNativeSectionField` refuses. -/
def nativeSectionNames : List String :=
  ["g1", "g2", "g3", "gt", "t1", "t2", "t3", "tt", "setpoint_override",
    "setpoint_override_observed_at", "setpoint_override_controls_available",
    "electricity_tariff_observed_at", "electricity_tariff_controls_available",
    "grid_l1_available", "grid_l2_available", "grid_l3_available", "grid_backup_observed_at",
    "loads", "load_names", "water_level", "pump_switch", "water_valve", "pump_mode",
    "water_pump_mode", "water_valve_mode", "battery_soc", "gateway_capabilities", "telemetry",
    "car_soc", "ev_power", "car_charging_power", "ev_charging_kw", "ev_charging_power",
    "ev_present", "evcharger_present", "discovered_water_ev", "ess_mode_observed_at",
    "ess_mode_controls_available"]

/-- `isNativeSectionField`: an exact comparison of the key. -/
def isNativeSectionField (key : String) : Bool := nativeSectionNames.contains key

/-! ## The controller section -/

/-- The seven control flags of the controller. -/
def controlFlags : List String :=
  ["only_charging", "no_feed", "house_support", "charge_battery", "do_not_supply_charger",
    "set_limit_to_ev_charger", "minimize_charging"]

/-- `IsControlFlag`. -/
def isControlFlag (key : String) : Bool :=
  controlFlags.contains (trimPrefix (trimSpace key) "input_boolean.")

/-- `ControlBool`. -/
def controlBool : Any → Option Bool
  | .bool b => some b
  | .float64 x => if x.eq 0 || x.eq 1 then some (x.eq 1) else none
  | .int i => if i = 0 ∨ i = 1 then some (decide (i = 1)) else none
  | .string s =>
    if ["true", "on", "1"].contains (toLower (trimSpace s)) then some true
    else if ["false", "off", "0"].contains (toLower (trimSpace s)) then some false
    else none
  | _ => none

/-- `controllerBooleans`: aliases of the control flags are canonicalised, values that are no
flag are dropped, other entries are kept. -/
def controllerBooleans (raw : Any) : StrMap Any :=
  (raw.object?.getD []).foldl (fun flags e =>
    let canonical := trimPrefix e.1 "input_boolean."
    if isControlFlag canonical then
      match controlBool e.2 with
      | some flag => flags.insert canonical (.bool flag)
      | none => flags
    else flags.insert e.1 e.2) ∅

/-- `FormatHeaderToggles`. -/
def formatHeaderToggles : Any :=
  .list ([("only_charging", "ONLY CHARGING"), ("no_feed", "NO FEED"),
    ("house_support", "HOUSE SUPPORT"), ("charge_battery", "CHARGE BATTERY"),
    ("do_not_supply_charger", "DO NOT SUPPLY EV"), ("set_limit_to_ev_charger", "LIMIT TO EV"),
    ("minimize_charging", "MINIMIZE CHARGING")].map fun e =>
      .object [("id", .string e.1), ("label", .string e.2), ("entity", .string e.1)])

/-- The ESS mode an object decodes to; `none` on any other value and on a decoding error. -/
def decodeESSMode (raw : Any) : Option ESSMode :=
  match raw with
  | .object _ =>
    let r := Decoder.struct ESSMode.members raw {}
    if r.2 then some r.1 else none
  | _ => none

/-- A decoded mode is what decoding into the zero mode gives. -/
theorem decodeESSMode_eq_some {raw : Any} {m : ESSMode} (h : decodeESSMode raw = some m) :
    (Decoder.struct ESSMode.members raw {}).1 = m := by
  unfold decodeESSMode at h
  split at h
  · dsimp only at h
    split_ifs at h
    exact Option.some.inj h
  · cases h

/-- The members a snapshot may replace: those whose native reading does not hold them. -/
def openControllerFields (st : State) : List Field :=
  controllerFields.filter fun f =>
    !(st.available f.jsonName || (f == .essMode && st.nativeESSObserved))

/-- `applyControllerFields`. Clearing members changes none of the flags that guard the loop, so
the guards are read up front; each entry is then decoded on its own. -/
def applyControllerFields (st : State) (data : Frame) : State :=
  let fields := openControllerFields st
  let st := fields.foldl (fun st f => clearStateField st f.jsonName) st
  fields.foldl (fun st f =>
    match entry data f.jsonName with
    | some value => (st.unmarshalEntry f.jsonName value).1
    | none => st) st

/-- A control flag of the decoded booleans. -/
def flagOf (flags : StrMap Any) (name : String) : Bool :=
  ((flags.lookup name).bind Any.bool?).getD false

/-- The flag members of a snapshot. -/
def applyFlags (st : State) (flags : StrMap Any) : State :=
  (((((((st.set .booleans (some flags)).set .onlyCharging (flagOf flags "only_charging")).set
    .noFeed (flagOf flags "no_feed")).set .houseSupport (flagOf flags "house_support")).set
    .chargeBattery (flagOf flags "charge_battery")).set .doNotSupplyCharger
    (flagOf flags "do_not_supply_charger")).set .setLimitToEVCharger
    (flagOf flags "set_limit_to_ev_charger")).set .minimizeCharging
    (flagOf flags "minimize_charging")

/-- The default header toggles of an available controller. -/
def applyHeaderToggles (st : State) (available : Bool) : Option State :=
  let st := if (st.field .uiConfig).isSome then st else st.set .uiConfig (some ∅)
  if available && (((st.field .uiConfig).find "header_toggles").getD .nil).isNil then
    ((st.field .uiConfig).write "header_toggles" formatHeaderToggles).map (st.set .uiConfig)
  else some st

/-- What an empty snapshot withdraws. -/
def withdrawCommands (st : State) : State :=
  ((st.set .setpointOverride none).set .setpointOverrideObservedAt none).set
    .electricityTariffObservedAt none

/-- The members a snapshot resets before the section is decoded. -/
def resetSection (st : State) (data : Frame) : State :=
  let st := (st.set .essModeObservedAt none).set .gridBackupObservedAt none
  let st := if data.isEmpty then withdrawCommands st else st
  st.set .inverterAvailable (some !data.isEmpty)

/-- The supported ESS mode of a frame. -/
def supportedESSMode (data : Frame) : Option ESSMode :=
  ((entry data "ess_mode").bind decodeESSMode).filter fun m => m.selectionSupported

/-- `ApplyControllerSnapshot`: a null snapshot clears the section. -/
def applyControllerSnapshot (st : State) (data : Frame) : Option State :=
  let st := applyControllerFields (resetSection st data) data
  let st := Client.installESSMode st (supportedESSMode data)
  let st := st.set .dryRun ((entry data "dry_run").bind Any.bool?)
  let st := applyFlags st (controllerBooleans ((entry data "booleans").getD .nil))
  applyHeaderToggles st !data.isEmpty

/-! ## What a snapshot does -/

/-- The members `applyControllerSnapshot` may change. -/
def snapshotFields : List Field :=
  controllerFields ++ [.essModeObservedAt, .gridBackupObservedAt, .setpointOverride,
    .setpointOverrideObservedAt, .electricityTariffObservedAt, .inverterAvailable, .onlyCharging,
    .noFeed, .houseSupport, .chargeBattery, .doNotSupplyCharger, .setLimitToEVCharger,
    .minimizeCharging]

/-- A member of the section as a frame gives it: decoded into the cleared member. -/
def decodedEntry (data : Frame) (f : Field) : f.type.denote :=
  match entry data f.jsonName with
  | some value => (f.type.decoder value f.type.cleared).1
  | none => f.type.cleared

/-- A member of the section after the section was decoded. -/
def sectionValue (st : State) (data : Frame) (f : Field) : f.type.denote :=
  if f ∈ openControllerFields st then decodedEntry data f else st.field f

theorem nodup_controllerFields : controllerFields.Nodup := by decide

/-- Decoding by the exact name is decoding into the member. -/
theorem unmarshalEntry_jsonName (st : State) (f : Field) (value : Any) :
    (st.unmarshalEntry f.jsonName value).1 = st.set f (f.type.decoder value (st.field f)).1 := by
  simp [State.unmarshalEntry]

/-- The open members hold what the frame says, and the others stay. -/
theorem applyControllerFields_field (st : State) (data : Frame) (f : Field) :
    (applyControllerFields st data).field f = sectionValue st data f := by
  have hnd : (openControllerFields st).Nodup := nodup_controllerFields.filter _
  unfold applyControllerFields sectionValue
  rw [State.foldl_field (fun f v => match entry data f.jsonName with
      | some value => (f.type.decoder value v).1
      | none => v) ?_ ?_ hnd,
    State.foldl_field (fun f _ => f.type.cleared) ?_ ?_ hnd]
  · split_ifs
    · rfl
    · rfl
  · exact fun st f => by simp
  · exact fun st f g hg => by simp [State.set_field_ne st hg]
  · intro st f
    cases entry data f.jsonName with
    | none => rfl
    | some value => simp [unmarshalEntry_jsonName]
  · intro st f g hg
    cases entry data f.jsonName with
    | none => rfl
    | some value => simp [unmarshalEntry_jsonName, State.set_field_ne st hg]

theorem applyControllerFields_native (st : State) (data : Frame) :
    (applyControllerFields st data).nativeESSObserved = st.nativeESSObserved := by
  unfold applyControllerFields
  rw [State.foldl_nativeESSObserved, State.foldl_nativeESSObserved]
  · exact fun st f => by simp
  · intro st f
    cases entry data f.jsonName with
    | none => rfl
    | some value => simp

/-- What `applyControllerSnapshot` does. -/
structure Snapshotted (st : State) (data : Frame) (st' : State) : Prop where
  native : st'.nativeESSObserved = st.nativeESSObserved
  frame : ∀ f, f ∉ snapshotFields → st'.field f = st.field f
  override : st'.field .setpointOverride =
    if data.isEmpty then none else st.field .setpointOverride
  overrideObserved : st'.field .setpointOverrideObservedAt =
    if data.isEmpty then none else st.field .setpointOverrideObservedAt
  tariffObserved : st'.field .electricityTariffObservedAt =
    if data.isEmpty then none else st.field .electricityTariffObservedAt
  essObserved : st'.field .essModeObservedAt = none
  backupObserved : st'.field .gridBackupObservedAt = none
  inverterAvailable : st'.field .inverterAvailable = some !data.isEmpty
  dryRun : st'.field .dryRun = (entry data "dry_run").bind Any.bool?
  essMode : st'.field .essMode = (supportedESSMode data).getD (sectionValue st data .essMode)
  uiConfig : ∀ key, key ≠ "header_toggles" →
    (st'.field .uiConfig).find key = (GoMap.find (sectionValue st data .uiConfig) key)

/-- The header toggles are written to a map that is there, and only they are written. -/
theorem applyHeaderToggles_spec (st : State) (available : Bool) :
    ∃ st', applyHeaderToggles st available = some st' ∧
      (∀ f, f ≠ .uiConfig → st'.field f = st.field f) ∧
      (∀ key, key ≠ "header_toggles" →
        (st'.field .uiConfig).find key = (st.field .uiConfig).find key) ∧
      st'.nativeESSObserved = st.nativeESSObserved := by
  have hwrite : ∀ st : State, (st.field .uiConfig).isSome → ∃ st',
      ((st.field .uiConfig).write "header_toggles" formatHeaderToggles).map (st.set .uiConfig) =
        some st' ∧ (∀ f, f ≠ .uiConfig → st'.field f = st.field f) ∧
      (∀ key, key ≠ "header_toggles" →
        (st'.field .uiConfig).find key = (st.field .uiConfig).find key) ∧
      st'.nativeESSObserved = st.nativeESSObserved := by
    intro st hst
    obtain ⟨m, hm⟩ := Option.isSome_iff_exists.mp hst
    refine ⟨st.set .uiConfig (some (m.insert "header_toggles" formatHeaderToggles)), ?_,
      fun f hf => State.set_field_ne st hf _, fun key hkey => ?_, rfl⟩
    · simp [hm]
    · rw [State.set_field_self, GoMap.find_insert, if_neg hkey, hm]
  unfold applyHeaderToggles
  by_cases hui : (st.field .uiConfig).isSome
  · simp only [hui, if_true]
    split_ifs
    · exact hwrite st hui
    · exact ⟨st, rfl, fun _ _ => rfl, fun _ _ => rfl, rfl⟩
  · simp only [hui, if_false, Bool.false_eq_true]
    have hfind : ∀ key, (GoMap.find (some (∅ : StrMap Any)) key) =
        (st.field .uiConfig).find key := by
      intro key
      rw [Option.not_isSome_iff_eq_none.mp hui]
      simp [GoMap.find]
    have hset : ∀ f, f ≠ Field.uiConfig →
        (st.set .uiConfig (some ∅)).field f = st.field f := fun f hf => State.set_field_ne st hf _
    split_ifs
    · obtain ⟨st', h, hf, hk, hn⟩ := hwrite (st.set .uiConfig (some ∅)) (by simp)
      refine ⟨st', h, fun f hne =>
        by rw [hf f hne, hset f hne], fun key hkey => ?_, by rw [hn]; rfl⟩
      rw [hk key hkey, State.set_field_self, hfind]
    · exact ⟨_, rfl, hset, fun key _ => by rw [State.set_field_self, hfind], rfl⟩

/-- The members `applyFlags` sets. -/
def flagFields : List Field :=
  [.booleans, .onlyCharging, .noFeed, .houseSupport, .chargeBattery, .doNotSupplyCharger,
    .setLimitToEVCharger, .minimizeCharging]

theorem applyFlags_field (st : State) (flags : StrMap Any) {f : Field} (h : f ∉ flagFields) :
    (applyFlags st flags).field f = st.field f := by
  simp only [flagFields, List.mem_cons, List.not_mem_nil, or_false, not_or] at h
  simp [applyFlags, h]

/-- The members `resetSection` sets. -/
def resetFields : List Field :=
  [.essModeObservedAt, .gridBackupObservedAt, .setpointOverride, .setpointOverrideObservedAt,
    .electricityTariffObservedAt, .inverterAvailable]

theorem resetSection_field (st : State) (data : Frame) {f : Field} (h : f ∉ resetFields) :
    (resetSection st data).field f = st.field f := by
  simp only [resetFields, List.mem_cons, List.not_mem_nil, or_false, not_or] at h
  unfold resetSection
  dsimp only
  split_ifs <;> simp [withdrawCommands, h]

/-- The reset members: what a command may rely on is withdrawn by an empty frame only. -/
theorem resetSection_reset (st : State) (data : Frame) :
    (resetSection st data).field .setpointOverride =
        (if data.isEmpty then none else st.field .setpointOverride) ∧
      (resetSection st data).field .setpointOverrideObservedAt =
        (if data.isEmpty then none else st.field .setpointOverrideObservedAt) ∧
      (resetSection st data).field .electricityTariffObservedAt =
        (if data.isEmpty then none else st.field .electricityTariffObservedAt) ∧
      (resetSection st data).field .essModeObservedAt = none ∧
      (resetSection st data).field .gridBackupObservedAt = none ∧
      (resetSection st data).field .inverterAvailable = some !data.isEmpty := by
  unfold resetSection
  dsimp only
  split_ifs <;> simp [withdrawCommands]

theorem resetSection_native (st : State) (data : Frame) :
    (resetSection st data).nativeESSObserved = st.nativeESSObserved := by
  unfold resetSection
  dsimp only
  split_ifs <;> rfl

/-- The reset changes nothing the section depends on. -/
theorem sectionValue_resetSection (st : State) (data : Frame) {f : Field}
    (h : f ∉ resetFields) :
    sectionValue (resetSection st data) data f = sectionValue st data f := by
  have hopen : openControllerFields (resetSection st data) = openControllerFields st := by
    unfold openControllerFields State.available
    rw [resetSection_field st data (by decide), resetSection_native]
  rw [sectionValue, sectionValue, hopen, resetSection_field st data h]

/-- A member outside the section is not decoded. -/
theorem sectionValue_of_notMem (st : State) (data : Frame) {f : Field}
    (h : f ∉ controllerFields) : sectionValue st data f = st.field f := by
  have hopen : f ∉ openControllerFields st := fun hf => h (List.mem_of_mem_filter hf)
  rw [sectionValue, if_neg hopen]

/-- A snapshot never panics.

**Proof sketch.** The stages set disjoint members, apart from the ESS mode and `dry_run`, which
later stages decide; each claim follows the member through the stages that set it. -/
theorem applyControllerSnapshot_spec (st : State) (data : Frame) :
    ∃ st', applyControllerSnapshot st data = some st' ∧ Snapshotted st data st' := by
  obtain ⟨st', h, hf, hk, hn⟩ := applyHeaderToggles_spec
    (applyFlags ((Client.installESSMode (applyControllerFields (resetSection st data) data)
      (supportedESSMode data)).set .dryRun ((entry data "dry_run").bind Any.bool?))
      (controllerBooleans ((entry data "booleans").getD .nil))) (!data.isEmpty)
  -- A member that neither the flags nor `dry_run` nor the ESS mode decide.
  have hbase : ∀ f, f ≠ .uiConfig → f ∉ flagFields → f ≠ .dryRun → f ≠ .essMode →
      st'.field f = sectionValue (resetSection st data) data f := by
    intro f hui hflag hdry hess
    rw [hf f hui, applyFlags_field _ _ hflag, State.set_field_ne _ hdry,
      Client.installESSMode_field _ _ fun hf => absurd hf hess, applyControllerFields_field]
  have hreset : ∀ f, f ≠ .uiConfig → f ∉ flagFields → f ∉ controllerFields →
      st'.field f = (resetSection st data).field f := by
    intro f hui hflag hctl
    rw [hbase f hui hflag (fun h => hctl (by rw [h]; decide)) (fun h => hctl (by rw [h]; decide)),
      sectionValue_of_notMem _ _ hctl]
  obtain ⟨hr₁, hr₂, hr₃, hr₄, hr₅, hr₆⟩ := resetSection_reset st data
  refine ⟨st', h, ?_, ?_, ?_, ?_, ?_, ?_, ?_, ?_, ?_, ?_, ?_⟩
  · rw [hn]
    show (Client.installESSMode _ _).nativeESSObserved = _
    rw [Client.installESSMode_native, applyControllerFields_native, resetSection_native]
  · intro f hnot
    have hne : ∀ fs : List Field, fs ⊆ snapshotFields → f ∉ fs := fun fs hfs hf => hnot (hfs hf)
    rw [hreset f (fun h => hnot (by rw [h]; decide)) (hne _ (by decide)) (hne _ (by decide)),
      resetSection_field st data (hne _ (by decide))]
  · rw [hreset _ (by decide) (by decide) (by decide), hr₁]
  · rw [hreset _ (by decide) (by decide) (by decide), hr₂]
  · rw [hreset _ (by decide) (by decide) (by decide), hr₃]
  · rw [hreset _ (by decide) (by decide) (by decide), hr₄]
  · rw [hreset _ (by decide) (by decide) (by decide), hr₅]
  · rw [hreset _ (by decide) (by decide) (by decide), hr₆]
  · rw [hf _ (by decide), applyFlags_field _ _ (by decide), State.set_field_self]
  · rw [hf _ (by decide), applyFlags_field _ _ (by decide), State.set_field_ne _ (by decide)]
    cases hs : supportedESSMode data with
    | none =>
      rw [Client.installESSMode_field _ _ fun _ => rfl, applyControllerFields_field,
        sectionValue_resetSection st data (by decide)]
      rfl
    | some mode => exact State.set_field_self _ _ _
  · intro key hkey
    rw [hk key hkey, applyFlags_field _ _ (by decide), State.set_field_ne _ (by decide),
      Client.installESSMode_field _ _ (fun h => by cases h), applyControllerFields_field,
      sectionValue_resetSection st data (by decide)]

namespace Client

/-! ## Receipts -/

/-- The receipt of a frame: only a live one has a time, and it is never decoded from the frame. -/
def receiptTime (retained : Bool) (now : Time) : Option F64 :=
  if retained then none else some (receiptSeconds now)

/-- The cached mode of the controller and its receipt after a frame: an empty frame and one with an
unusable mode drop both, and a frame without a mode keeps both. -/
def essReceipts (old : Option ESSMode × Option F64) (data : Frame) (retained : Bool)
    (now : Time) : Option ESSMode × Option F64 :=
  if data.isEmpty then (none, none)
  else
    match entry data "ess_mode" with
    | none => old
    | some raw =>
      match decodeESSMode raw with
      | none => (none, none)
      | some mode => (some mode, receiptTime retained now)

/-- `observeESSMode`. -/
def observeESSMode (c : Client) (data : Frame) (retained : Bool) (now : Time) : Client :=
  let r := essReceipts (c.controllerESSMode, c.controllerESSObserved) data retained now
  { c with controllerESSMode := r.1, controllerESSObserved := r.2 }

/-- The override part of `observeControllerCommands`. -/
def observeOverride (c : Client) (data : Frame) (retained : Bool) (now : Time) : Client :=
  match entry data "setpoint_override" with
  | none => c
  | some raw =>
    let status := parseOverrideStatus raw
    { c with
      overrideReceipt := c.overrideReceipt + 1
      state := (c.state.set .setpointOverride status).set .setpointOverrideObservedAt
        (if status.isSome then receiptTime retained now else none) }

/-- The tariff part of `observeControllerCommands`. -/
def observeTariff (c : Client) (data : Frame) (retained : Bool) (now : Time) : Client :=
  match entry data "ui_config" with
  | none => c
  | some _ =>
    { c with
      state := c.state.set .electricityTariffObservedAt (receiptTime retained now) }

/-- `observeControllerCommands`. -/
def observeControllerCommands (c : Client) (data : Frame) (retained : Bool) (now : Time) :
    Client :=
  (c.observeOverride data retained now).observeTariff data retained now

/-! ## Merging a frame -/

/-- Whether `mergeDaemonState` skips a key. -/
def skipsKey (c : Client) (key : String) : Bool :=
  c.cerboOwned.hasName key || key == "telemetry_available" || isNativeSectionField key

/-- One iteration of the first loop of `mergeDaemonState`: a decoding error leaves what was
decoded before it and keeps the entry out of `clean`. -/
def mergeEntry (c : Client) (acc : State × Frame) (e : String × Any) : State × Frame :=
  if c.skipsKey e.1 then acc
  else
    let r := acc.1.unmarshalEntry e.1 e.2
    (r.1, if r.2 then acc.2 ++ [e] else acc.2)

/-- The members whose flag the second loop of `mergeDaemonState` sets. -/
def markAvailable (clean : Frame) : List Field → State → Option State
  | [], st => some st
  | f :: fs, st => do
    let st ← if (entry clean f.jsonName).any fun v => !v.isNil then st.setAvailable f true
      else some st
    markAvailable clean fs st

/-- Without a native reading the flag of the ESS mode is taken back. -/
def resetESSFlag (c : Client) (st : State) : Option State :=
  if c.cerboOwned.has .essMode then some st else st.setAvailable .essMode false

/-- `mergeDaemonState`. -/
def mergeDaemonState (c : Client) (data : Frame) : Option Client := do
  let c := c.initCerboMaps
  let (st, clean) := data.foldl c.mergeEntry (c.state, [])
  let st ← markAvailable clean directFields st
  let st ← c.resetESSFlag st
  let st ← applyControllerSnapshot st data
  { c with state := st.set .dashboardVersion c.currentVersion }.applyCerboOverlays

/-- The frame a message carries; `none` when the callback ignores the payload. -/
def controllerFrame (override : Bool) (payload : Payload) : Option Frame :=
  if override then
    match payload with
    | .empty => decodeControllerState (.json (.obj [("setpoint_override", .null)]))
    | .invalid => none
    | .json j => decodeControllerState (.json (.obj [("setpoint_override", j)]))
  else decodeControllerState payload

/-- The part of a state commit before the merge: the times and the ESS receipt. -/
def receiveState (c : Client) (data : Frame) (retained : Bool) (now : Time) : Client :=
  { c with
    controllerLastSeen := some now
    controllerLiveAt := if retained then none else some now }.observeESSMode data retained now

/-- The part of a state commit behind the merge: the receipts that become visible. -/
def finishState (c : Client) (data : Frame) (retained : Bool) (now : Time) : Client :=
  let c := c.observeControllerCommands data retained now
  let st := c.state.set .essModeObservedAt c.controllerESSObserved
  let st := match st.field .gridBackup with
    | some b => st.set .gridBackupObservedAt b.measurementTime
    | none => st
  { c with state := st }

/-- The state section of `applyControllerMessage`. -/
def commitState (c : Client) (data : Frame) (retained : Bool) (now : Time) : Option Client := do
  let c ← (c.receiveState data retained now).mergeDaemonState data
  return c.finishState data retained now

/-- The commit of a controller frame under both locks. -/
def commitController (c : Client) (override : Bool) (data : Frame) (retained : Bool)
    (now : Time) : Option Client :=
  if override then some (c.observeControllerCommands data retained now)
  else c.commitState data retained now

/-- Whether a callback with these tokens may commit. -/
def sourceCurrent (c : Client) (generation session : ℕ) : Bool :=
  !c.gatewayMode && c.mqttSession == session && c.pushGeneration == generation

/-- `applyControllerMessage` for a callback that captured these tokens. -/
def applyControllerMessage (c : Client) (payload : Payload) (retained : Bool)
    (session generation : ℕ) (override : Bool) (now : Time) : Option Client :=
  match controllerFrame override payload with
  | none => some c
  | some data =>
    if c.sourceCurrent generation session then
      (c.commitController override data retained now).map fun c =>
        { c with lastStateTime := some now }
    else some c

/-- **Inversion.** A controller callback did nothing, or committed the frame it carries. -/
theorem applyControllerMessage_cases {c c' : Client} {payload : Payload} {retained override : Bool}
    {session generation : ℕ} {now : Time}
    (h : c.applyControllerMessage payload retained session generation override now = some c') :
    c' = c ∨ ∃ data c₁, controllerFrame override payload = some data ∧
      c.sourceCurrent generation session = true ∧
      c.commitController override data retained now = some c₁ ∧
      c' = { c₁ with lastStateTime := some now } := by
  unfold applyControllerMessage at h
  cases hd : controllerFrame override payload with
  | none =>
    rw [hd] at h
    exact Or.inl (Option.some.inj h).symm
  | some data =>
    rw [hd] at h
    dsimp only at h
    split_ifs at h with hcur
    · obtain ⟨c₁, hc₁, rfl⟩ := Option.map_eq_some_iff.mp h
      exact Or.inr ⟨data, c₁, rfl, hcur, hc₁, rfl⟩
    · exact Or.inl (Option.some.inj h).symm

/-! ## Expiry and readiness -/

/-- The time a silent controller keeps its display, in milliseconds. -/
def optionalTelemetryTTL : ℤ := 120000

/-- `expireOptionalTelemetry`. -/
def expireOptionalTelemetry (c : Client) (now : Time) : Option Client := do
  let c := c.initCerboMaps
  match c.controllerLastSeen with
  | none => return c
  | some seen =>
    if now - seen < 0 ∨ optionalTelemetryTTL < now - seen then
      let st ← c.resetESSFlag c.state
      let st ← applyControllerSnapshot st []
      return { c with
        state := st
        controllerESSMode := none
        controllerESSObserved := none
        controllerLastSeen := none
        controllerLiveAt := none }
    else return c

/-- The members `clearOptionalTelemetry` resets. -/
def optionalFields : List Field :=
  [.essMode, .evPower, .carChargingPower, .carSOC, .evChargingKW, .evChargingPower, .evPresent,
    .evChargerPresent, .discoveredWaterEV]

/-- `clearOptionalTelemetry`. -/
def clearOptionalTelemetry (c : Client) : Option Client := do
  let c := { c with controllerESSMode := none, controllerESSObserved := none }.initCerboMaps
  let st ← c.state.clearAll false optionalFields
  let st ← applyControllerSnapshot st []
  return { c with state := st, controllerLastSeen := none, controllerLiveAt := none }

/-- `controllerControlReady`. -/
def controllerControlReady (c : Client) (now : Time) : Bool :=
  c.state.field .inverterAvailable == some true &&
    c.controllerLiveAt.any fun at_ => decide (0 ≤ now - at_ ∧ now - at_ ≤ 30000)

/-! ## What resetting and expiry do -/

/-- A completed reset of the ESS flag changes that flag at most. -/
theorem resetESSFlag_of_eq_some (c : Client) {st st' : State}
    (h : c.resetESSFlag st = some st') :
    (∀ f, f ≠ .telemetryAvailable → st'.field f = st.field f) ∧
      st'.nativeESSObserved = st.nativeESSObserved ∧
      (∀ key, st'.available key = true → st.available key = true) ∧
      (c.cerboOwned.has .essMode = false → st'.available "ess_mode" = false) := by
  unfold resetESSFlag at h
  split_ifs at h with ho
  · obtain rfl := Option.some.inj h
    exact ⟨fun _ _ => rfl, rfl, fun _ h => h, fun h => by rw [ho] at h; cases h⟩
  · have hp : (st.field .telemetryAvailable).isSome := by
      cases hp : st.field .telemetryAvailable with
      | none => simp [State.setAvailable, hp] at h
      | some m => rfl
    obtain ⟨st'', hst'', -, hf, ha, hn⟩ := State.setAvailable_spec hp .essMode false
    obtain rfl := Option.some.inj (hst''.symm.trans h)
    refine ⟨hf, hn, fun key hk => ?_, fun _ => ?_⟩
    · rw [State.available, ha] at hk
      split_ifs at hk
      · cases hk
      · exact hk
    · rw [State.available, ha]
      rfl

/-- A snapshot that completed did what the specification says. -/
theorem snapshotted_of_eq_some {st st' : State} {data : Frame}
    (h : applyControllerSnapshot st data = some st') : Snapshotted st data st' := by
  obtain ⟨st'', hst'', hs⟩ := applyControllerSnapshot_spec st data
  exact Option.some.inj (hst''.symm.trans h) ▸ hs

/-- An overlay that completed did what the specification says. -/
theorem overlaid_of_eq_some {c c' : Client} (h : c.applyCerboOverlays = some c') :
    Overlaid c c' := by
  obtain ⟨c'', hc'', hs⟩ := c.applyCerboOverlays_spec
  exact Option.some.inj (hc''.symm.trans h) ▸ hs

end Client

end Dashboard
