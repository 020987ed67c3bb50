import InverterDashboard.Mqtt.Callbacks
import InverterDashboard.Push.Processor

set_option relaxedAutoImplicit false
set_option autoImplicit false

/-!
# What the client hands to the push service

`internal/mqtt/push.go`, and the calls of `observePush` in `applyCerboDeviceMessage`,
`applyPlatformNotification` and `applyNotificationMessage`. A changed path is the list of its levels
behind the portal, and the empty list stands for a complete snapshot.

## Main definitions

* `Dashboard.nativePushNotifications` — the banners as notifications with their times.
* `Dashboard.nativePushSamples` — the samples of a cache.
* `Dashboard.Client.notificationPush`, `Dashboard.Client.devicePush` — the observations of a
  message.
-/

namespace Dashboard

open Go

/-! ## Notifications -/

/-- A banner as a notification: without a time while its severity is incomplete. `parse` is
`time.Parse(time.RFC3339Nano, ·)`, the zero time where that fails. -/
def nativePushNotification (parse : String → Push.Instant) (n : Notification) : Push.Native :=
  { id := n.id
    source := n.source
    level := if n.level = "alarm" then "error" else n.level
    title := n.title
    body := n.body
    timestamp := if n.pushIncomplete then Push.zeroTime else parse n.ts }

/-- `nativePushNotifications`. -/
def nativePushNotifications (parse : String → Push.Instant) (l : List Notification) :
    List Push.Native := l.map (nativePushNotification parse)

/-! ## Samples -/

/-- The path is that of a leaf of a device. -/
def isLeafOf (changed : List String) (kind : Kind) (inst : String) (leaf : List String) : Bool :=
  changed == kind.name :: inst :: leaf

/-- The text of a device. -/
def deviceID (kind : Kind) (inst : String) : String := kind.name ++ "/" ++ inst

/-- `add`: a sample for a change of the leaf or of `Connected`; only the leaf brings a value. -/
def addSample (changed : List String) (kind : String) (service : Kind) (inst : String)
    (leaf : List String) (value : Option Any) (enabled : Bool) (minimum maximum : F64) :
    List Push.Sample :=
  if changed ≠ [] ∧ !isLeafOf changed service inst leaf ∧
      !isLeafOf changed service inst ["Connected"] then []
  else
    let fresh := enabled && (changed == [] || isLeafOf changed service inst leaf)
    let reading := (value.bind number).filter fun n => F64.le minimum n && F64.le n maximum &&
      ((kind != "pump" && kind != "valve") || n.eq 0 || n.eq 1)
    [{ kind := kind, id := deviceID service inst, value := if fresh then reading else none }]

/-- The samples of the configured pump or valve. -/
def waterSamples (all : LeafMap) (changed : List String) (kind : String) (instance_ : ℤ) :
    List Push.Sample :=
  let inst := itoa instance_
  let d := deviceLeaves all .pump inst
  let leaf := if (d "State").isSome then "State" else "Status"
  addSample changed kind .pump inst [leaf] (d leaf) d.enabled 0 1

/-- The charger that is sampled: the configured one, else the first with a power. -/
def pushCharger (all : LeafMap) (configured : ℤ) : Option String :=
  if configured < 0 then
    ((sortedStringKeys (devices all .evcharger)).find? fun e =>
      (e.2.num ["Ac/Power"]).isSome).map Prod.fst
  else some (itoa configured)

/-- The samples of the charger. -/
def chargerSamples (all : LeafMap) (changed : List String) (configured : ℤ) : List Push.Sample :=
  match pushCharger all configured with
  | none => []
  | some inst =>
    let d := entry (devices all .evcharger) inst
    addSample changed "ev" .evcharger inst ["Ac", "Power"] (d.bind fun d => d "Ac/Power") d.isSome 0
      1000000000

/-- The system whose state of charge is exposed. -/
def pushSystem (all : LeafMap) : Option (String × Device) :=
  (sortedStringKeys (devices all .system)).find? fun e => (e.2 "Dc/Battery/Soc").isSome

/-- The battery that a system selects, else the only one. -/
def pushBattery (all : LeafMap) : Option String :=
  let selected := (sortedStringKeys (devices all .system)).findSome? fun e =>
    ((e.2.num ["Dc/Battery/Instance"]).filter fun n => F64.le 0 n && n.eq (F64.ofInt n.toInt)).map
      fun n => itoa n.toInt
  match selected with
  | some inst => some inst
  | none =>
    match devices all .battery with
    | [e] => some e.1
    | _ => none

/-- The samples of the state of charge: the system's when it is exposed, else a battery's. -/
def socSamples (all : LeafMap) (changed : List String) : List Push.Sample :=
  match pushSystem all with
  | some (inst, d) =>
    addSample changed "soc" .system inst ["Dc", "Battery", "Soc"] (d "Dc/Battery/Soc") true 0 100
  | none =>
    match pushBattery all with
    | none =>
      if 2 ≤ changed.length ∧ (changed.head? = some "battery" ∨ changed.head? = some "system") then
        [{ kind := "soc", id := "battery/unknown", value := none }]
      else []
    | some inst =>
      let d := entry (devices all .battery) inst
      addSample changed "soc" .battery inst ["Soc"] (d.bind fun d => d "Soc") d.isSome 0 100

/-- The invalidations that depend on the changed path only. -/
def pathSamples (changed : List String) : List Push.Sample :=
  (if ["Dc", "Battery", "Instance"].isSuffixOf changed.tail then
    [{ kind := "soc", id := "battery/selection", value := none }] else []) ++
  match changed with
  | [kind, inst, "Connected"] =>
    (if kind = "evcharger" then [{ kind := "ev", id := kind ++ "/" ++ inst, value := none }]
      else []) ++
    if kind = "battery" ∨ kind = "system" then
      [{ kind := "soc", id := kind ++ "/" ++ inst, value := none }] else []
  | _ => []

/-- `NativePushSamples`. -/
def nativePushSamples (all : LeafMap) (o : CerboOptions) (changed : List String) :
    List Push.Sample :=
  waterSamples all changed "pump" o.pumpInstance ++
    waterSamples all changed "valve" o.valveInstance ++
    chargerSamples all changed o.evchargerInstance ++ socSamples all changed ++ pathSamples changed

/-! ## Observations -/

namespace Client

/-- `notificationPush`. -/
def notificationPush (c : Client) (parse : String → Push.Instant) (retained : Bool) :
    Push.Observation :=
  { notifications := some (nativePushNotifications parse c.banners.elems), retained := retained }

/-- The changed path of a device message: a tombstone of the device counts as one of its
`Connected` leaf. -/
def changedPath (parts : List String) (payload : Payload) : List String :=
  if payload = .empty ∧ parts.length = 4 then parts.drop 2 ++ ["Connected"] else parts.drop 2

/-- The samples of a device message, out of the cache behind it; a message that was not accepted
only invalidates. -/
def devicePush (c : Client) (parts : List String) (payload : Payload) (changed retained : Bool) :
    Push.Observation :=
  { samples := (nativePushSamples c.cerboLeaves c.options (changedPath parts payload)).map fun σ =>
      if changed then σ else { σ with value := none }
    retained := retained }

/-- What an admitted native message hands to the push service. -/
def nativePush (c : Client) (r : NativeScalars) (parse : String → Push.Instant)
    (parts : List String) (payload : Payload) (retained : Bool) (now : Time) :
    Option Push.Observation :=
  if parts.length = 3 then none
  else if parts.getD 2 "" = "platform" ∧ hasInnerLevel parts "Notifications" then
    (decodePlatformNotification r parts payload).map fun u =>
      (c.commitPlatform r u).notificationPush parse retained
  else if hasInnerLevel parts "Alarms" then none
  else (c.handleCerboDevice parts payload now).map fun e =>
    e.1.devicePush parts payload e.2 retained

end Client

end Dashboard
