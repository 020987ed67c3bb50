import InverterDashboard.Mqtt.Notifications

set_option relaxedAutoImplicit false
set_option autoImplicit false

/-!
# The banners of a gateway snapshot

`mapNotifications` of `internal/gateway/map.go` and `decodeLeaves` of `snapshot.go`. A leaf map is
the list of its entries in the order of the next `range` statement, and a key is the list of its
levels.

## Main definitions

* `Dashboard.Gateway.decodeLeaves` — the values of a service.
* `Dashboard.Gateway.parsePlatformSlots`, `toNotification` — the slots and their banners.
* `Dashboard.Gateway.prettyAlarmName`, `prettyServiceName` — the names in a banner.
* `Dashboard.Gateway.mapAlarmLeaves`, `mapNotifications` — the banners.
-/

namespace Dashboard

namespace Gateway

open Go

/-- The leaves of a service as they are in the snapshot. -/
abbrev RawLeaves : Type := List (List String × Json)

/-- The decoded leaves of a service. -/
abbrev LeafValues : Type := List (List String × Any)

/-- `nativeAlarmPath`: the instance and the name of an alarm. -/
def nativeAlarmPath (key : List String) : Option (String × String) :=
  if key.length < 3 ∨ key.getD 1 "" ≠ "Alarms" ∨ "" ∈ key then none
  else some (key.getD 0 "", key.getLastD "")

/-- The value of a leaf: enums, flags and dates keep their literals. -/
def decodeLeaf (key : List String) : Json → Option Any
  | .null => some .nil
  | v =>
    if (parsePlatformNotificationKey key).isSome || (nativeAlarmPath key).isSome then
      some v.useNumber
    else v.toAny

/-- `decodeLeaves`. -/
def decodeLeaves (raw : RawLeaves) : LeafValues :=
  raw.filterMap fun e => (decodeLeaf e.1 e.2).map fun v => (e.1, v)

/-! ## Slots -/

/-- A leaf read into its slot. -/
def readField (r : NativeScalars) (ps : PlatformSlot) (field : PlatformField) (raw : Any) :
    PlatformSlot :=
  match field with
  | .description =>
    match raw.string? with
    | some str => { ps with description := trimSpace str }
    | none => ps
  | .deviceName =>
    match raw.string? with
    | some str => { ps with deviceName := trimSpace str }
    | none => ps
  | .service =>
    match raw.string? with
    | some str => { ps with service := trimSpace str }
    | none => ps
  | .dateTime => { ps with dateTime := r.time raw }
  | .type =>
    match r.level raw with
    | some level =>
      { ps with pushTypeKnown := raw.string?.isNone, notifType := level, hasType := true }
    | none => ps
  | .acknowledged =>
    match r.flag raw with
    | some b => { ps with acknowledged := b }
    | none => ps
  | .active =>
    match r.flag raw with
    | some b => { ps with active := some b }
    | none => ps
  | .silenced => ps

/-- The slot, the field and the value of a valid notification leaf. -/
def slotLeaf (r : NativeScalars) (e : List String × Any) : Option PlatformUpdate := do
  let (inst, slot, field) ← parsePlatformNotificationKey e.1
  if validPlatformNotificationValue r field e.2 then some { inst, slot, field, value := e.2 }
  else none

/-- One leaf of the first loop of `parsePlatformSlots`. -/
def readLeaf (r : NativeScalars) (byKey : AList fun _ : ℕ × ℕ => PlatformSlot)
    (u : PlatformUpdate) : AList fun _ : ℕ × ℕ => PlatformSlot :=
  let ps := (byKey.lookup (u.inst, u.slot)).getD { inst := u.inst, slot := u.slot }
  byKey.insert (u.inst, u.slot) (readField r ps u.field u.value)

/-- Slots by instance and number. -/
def slotLe (a b : PlatformSlot) : Prop := a.inst < b.inst ∨ a.inst = b.inst ∧ a.slot ≤ b.slot

instance : DecidableRel slotLe := fun a b =>
  inferInstanceAs (Decidable (a.inst < b.inst ∨ a.inst = b.inst ∧ a.slot ≤ b.slot))

/-- `parsePlatformSlots`, with whether a notification leaf was seen. -/
def parsePlatformSlots (r : NativeScalars) (m : LeafValues) : List PlatformSlot × Bool :=
  let byKey := (m.filterMap (slotLeaf r)).foldl (readLeaf r) ∅
  ((byKey.entries.map fun e => e.2).insertionSort slotLe, (m.filterMap (slotLeaf r)) ≠ [])

/-- `toNotification`. -/
def toNotification (ps : PlatformSlot) : Option Notification :=
  if ps.acknowledged then none
  else
    let desc := trimSpace ps.description
    if desc == "" then none
    else
      let level := if ps.hasType then
          (if ps.notifType = 0 then "warning" else if ps.notifType = 2 then "info" else "alarm")
        else "alarm"
      some
        { id := "victron-platform-" ++ toString ps.inst ++ "-" ++ toString ps.slot
          level := level
          title := desc
          body := if ps.deviceName == "" then ps.service else ps.deviceName
          source := "victron"
          ts := ps.dateTime
          pushIncomplete := !ps.pushTypeKnown }

/-! ## Names -/

/-- `strings.ToUpper(s[:1]) + s[1:]`. -/
def upperFirst (s : String) : String := capitalize s

/-- `flush` of `prettyAlarmName`: the written words and the current one. -/
def flush (acc : String × List Char) : String × List Char :=
  if acc.2.isEmpty then acc
  else ((if acc.1 ≠ "" then acc.1 ++ " " else acc.1) ++ upperFirst (String.ofList acc.2), [])

/-- One rune of `prettyAlarmName`. -/
def nameStep (acc : String × List Char) (ch : Char) : String × List Char :=
  let lastIsLower := acc.2.getLast?.any fun c => 'a' ≤ c && c ≤ 'z'
  if 'A' ≤ ch && ch ≤ 'Z' && !acc.2.isEmpty && lastIsLower then ((flush acc).1, [ch])
  else if ch == '_' || ch == '-' || ch == ' ' then flush acc
  else (acc.1, acc.2 ++ [ch])

/-- `prettyAlarmName`. -/
def prettyAlarmName (name : String) : String := (flush (name.toList.foldl nameStep ("", []))).1

/-- `prettyServiceName`. -/
def prettyServiceName (service : String) : String :=
  let cs := service.toList
  let name := cs.takeWhile (· != '_')
  let inst := String.ofList (cs.drop name.length).tail
  if cs.contains '_' && (atoi inst).isSome then
    if name.isEmpty then service else upperFirst (String.ofList name) ++ " " ++ inst
  else if service == "" then service
  else upperFirst service

/-! ## Banners -/

/-- The banner of an alarm leaf at level 1 or 2. -/
def alarmNotification (service : String) (key : List String) (inst name : String) (value : ℕ) :
    Notification :=
  { id := "victron-" ++ service ++ "/" ++ topicText key
    level := if value = 2 then "alarm" else "warning"
    title := prettyServiceName (service ++ "_" ++ inst)
    body := prettyAlarmName name ++ ": " ++ if value = 2 then "Alarm" else "Warning"
    source := "victron" }

/-- One leaf of `mapAlarmLeaves`. -/
def mapAlarmLeaf (r : NativeScalars) (service : String) (e : List String × Any) :
    Option Notification := do
  let (inst, name) ← nativeAlarmPath e.1
  let value ← r.level e.2
  if value = 1 ∨ value = 2 then some (alarmNotification service e.1 inst name value) else none

/-- The leaves of a snapshot that carry banners. -/
structure SnapshotLeaves where
  platform : RawLeaves := []
  battery : RawLeaves := []
  vebus : RawLeaves := []

/-- `mapNotifications`: raw alarms only while no notification leaf is there. -/
def mapNotifications (r : NativeScalars) (leaves : SnapshotLeaves) : List Notification :=
  let parsed := parsePlatformSlots r (decodeLeaves leaves.platform)
  if parsed.2 then parsed.1.filterMap toNotification
  else (decodeLeaves leaves.battery).filterMap (mapAlarmLeaf r "battery") ++
    (decodeLeaves leaves.vebus).filterMap (mapAlarmLeaf r "vebus")

end Gateway

end Dashboard
