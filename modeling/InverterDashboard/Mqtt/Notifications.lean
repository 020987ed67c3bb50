import InverterDashboard.Mqtt.Controller

set_option relaxedAutoImplicit false
set_option autoImplicit false

/-!
# Banner notifications

`internal/mqtt/notifications.go`: banners from the controller, from raw alarm topics and from the
notification slots of the platform service. Topics are lists of their levels.

## Main definitions

* `Dashboard.NativeScalars` — the readers of native scalars the reducers call.
* `Dashboard.upsertNotification` — the banner list.
* `Dashboard.Client.commitNotification`, `commitAlarm`, `commitPlatform` — the three commits.
* `Dashboard.Client.resetNativeNotifications` — what a retired source leaves.

## Main results

* `Dashboard.Client.commitAlarm_frame` and its namesakes — a banner commit changes the banner list
  and the notification caches only (`BannersOnly`).
-/

namespace Dashboard

open Go

/-- The readers of native scalars in `internal/state`: `NativeNotificationLevel`,
`NativeNotificationBool` and `NotificationTime`. The reducers are the same for every reading of
the number texts. -/
structure NativeScalars where
  level : Any → Option ℕ
  flag : Any → Option Bool
  time : Any → String

/-- A topic as text: `strings.Join(parts, "/")`. -/
def topicText : List String → String
  | [] => ""
  | [part] => part
  | part :: parts => part ++ "/" ++ topicText parts

/-- A text without a slash is a topic of one level. -/
theorem eq_singleton_of_topicText {parts : List String} {text : String}
    (h : topicText parts = text) (hne : text ≠ "") (hslash : '/' ∉ text.toList) :
    parts = [text] := by
  match parts with
  | [] => exact absurd h.symm hne
  | [part] => rw [← h, topicText]
  | a :: b :: rest =>
    refine absurd ?_ hslash
    rw [← h, topicText]
    · simp
    · exact fun h => by cases h

/-! ## Names -/

/-- `capitalize`: the first byte in upper case. A text stands for the runes that `range` and
`encoding/json` read from it: cut off from its rune, a byte behind ASCII is read as U+FFFD, and so
is each byte that it leaves behind. -/
def capitalize (s : String) : String :=
  match s.toList with
  | [] => ""
  | c :: cs =>
    if c.toNat < 128 then String.ofList (c.toUpper :: cs)
    else String.ofList (List.replicate c.utf8Size (Char.ofNat 0xFFFD) ++ cs)

/-- One step of `splitCamel` over the finished words and the current one. -/
def splitStep (acc : List (List Char) × List Char) (ch : Char) : List (List Char) × List Char :=
  let lastIsLower := acc.2.getLast?.any fun c => 'a' ≤ c && c ≤ 'z'
  if 'A' ≤ ch && ch ≤ 'Z' && lastIsLower then (acc.1 ++ [acc.2], [ch])
  else if ch == '_' || ch == '-' || ch == ' ' then
    (if acc.2.isEmpty then acc.1 else acc.1 ++ [acc.2], [])
  else (acc.1, acc.2 ++ [ch])

/-- `splitCamel`. -/
def splitCamel (s : String) : List String :=
  let acc := s.toList.foldl splitStep ([], [])
  (if acc.2.isEmpty then acc.1 else acc.1 ++ [acc.2]).map String.ofList

/-- `prettyAlarmName`. -/
def prettyAlarmName (name : String) : String :=
  " ".intercalate ((splitCamel name).map capitalize)

/-- `prettyServiceName`: the part behind the first underscore is set apart when it is a
number. -/
def prettyServiceName (service : String) : String :=
  let cs := service.toList
  let name := cs.takeWhile (· != '_')
  let inst := (cs.drop name.length).tail
  if cs.contains '_' && !inst.isEmpty && inst.all Char.isDigit then
    capitalize (String.ofList name) ++ " " ++ String.ofList inst
  else capitalize service

/-! ## Decoding -/

/-- The entry `value` of a payload object with its literals; the outer `none` is a payload
without one. -/
def payloadValue : Payload → Option Any
  | .json (.obj fs) => (entry fs.reverse "value").map Json.useNumber
  | _ => none

/-- `decodeAlarmValue`: an empty payload and a null clear the alarm. -/
def decodeAlarmValue (r : NativeScalars) : Payload → Option ℕ
  | .empty => some 0
  | p => (payloadValue p).bind fun v => if v.isNil then some 0 else r.level v

/-- The leaves of a notification slot. -/
inductive PlatformField where
  | description | deviceName | service | dateTime | type | acknowledged | active | silenced
  deriving DecidableEq

/-- The leaf a topic level names. -/
def PlatformField.ofName? : String → Option PlatformField
  | "Description" => some .description
  | "DeviceName" => some .deviceName
  | "Service" => some .service
  | "DateTime" => some .dateTime
  | "Type" => some .type
  | "Acknowledged" => some .acknowledged
  | "Active" => some .active
  | "Silenced" => some .silenced
  | _ => none

/-- `ParsePlatformNotificationKey` on the levels behind the service. -/
def parsePlatformNotificationKey : List String → Option (ℕ × ℕ × PlatformField)
  | [inst, "Notifications", slot, field] => do
    let inst ← (digitsValue inst.toList).filter fun n => n < 2 ^ 32
    let slot ← (digitsValue slot.toList).filter fun n => n ≤ 20
    let field ← PlatformField.ofName? field
    return (inst, slot, field)
  | _ => none

/-- `ValidPlatformNotificationValue`. -/
def validPlatformNotificationValue (r : NativeScalars) (field : PlatformField) (value : Any) :
    Bool :=
  value.isNil ||
    match field with
    | .description | .deviceName | .service => value.string?.isSome
    | .dateTime =>
      match value with
      | .string _ | .number _ | .float64 _ | .int _ | .bool _ => true
      | _ => false
    | .type => (r.level value).isSome
    | .acknowledged | .active | .silenced => (r.flag value).isSome

/-- `platformNotificationUpdate`. -/
structure PlatformUpdate where
  inst : ℕ
  slot : ℕ
  field : PlatformField
  value : Any

/-- The characters of `validPortal`. -/
def validPortal (portal : String) : Bool :=
  portal != "" && portal.toList.all fun c =>
    ('a' ≤ c && c ≤ 'z') || ('A' ≤ c && c ≤ 'Z') || ('0' ≤ c && c ≤ '9') || c == '-' || c == '_'

/-- `decodePlatformNotification`. -/
def decodePlatformNotification (r : NativeScalars) (parts : List String) (payload : Payload) :
    Option PlatformUpdate :=
  match parts with
  | "N" :: portal :: "platform" :: rest => do
    let (inst, slot, field) ← parsePlatformNotificationKey rest
    let value ← match payload with
      | .empty => some .nil
      | p => payloadValue p
    if validPortal portal && validPlatformNotificationValue r field value then
      some { inst, slot, field, value }
    else none
  | _ => none

/-! ## Slots -/

namespace PlatformSlot

/-- `clearField`. -/
def clearField (ps : PlatformSlot) : PlatformField → PlatformSlot
  | .description => { ps with description := "" }
  | .deviceName => { ps with deviceName := "" }
  | .service => { ps with service := "" }
  | .dateTime => { ps with dateTime := "" }
  | .type => { ps with hasType := false, pushTypeKnown := false }
  | .acknowledged => { ps with acknowledged := false }
  | .active => { ps with active := none }
  | .silenced => ps

/-- `setType`. -/
def setType (r : NativeScalars) (ps : PlatformSlot) (value : Any) : PlatformSlot :=
  match r.level value with
  | some level =>
    { ps with pushTypeKnown := value.string?.isNone, notifType := level, hasType := true }
  | none => { ps with pushTypeKnown := false }

/-- `updateField`: a null clears, and a value that does not fit changes nothing. -/
def updateField (r : NativeScalars) (ps : PlatformSlot) (field : PlatformField) (value : Any) :
    PlatformSlot :=
  if value.isNil then ps.clearField field
  else
    match field with
    | .description => { ps with description := (value.string?.map trimSpace).getD ps.description }
    | .deviceName => { ps with deviceName := (value.string?.map trimSpace).getD ps.deviceName }
    | .service => { ps with service := (value.string?.map trimSpace).getD ps.service }
    | .dateTime => { ps with dateTime := r.time value }
    | .type => ps.setType r value
    | .acknowledged => { ps with acknowledged := (r.flag value).getD ps.acknowledged }
    | .active => { ps with active := (r.flag value).or ps.active }
    | .silenced => ps

/-- `bannerID`. -/
def bannerID (ps : PlatformSlot) : String :=
  "victron-platform-" ++ toString ps.inst ++ "-" ++ toString ps.slot

/-- `toNotification`: an acknowledged slot and one without a description show nothing. -/
def toNotification (ps : PlatformSlot) : Option Notification :=
  if ps.acknowledged || trimSpace ps.description == "" then none
  else some
    { id := ps.bannerID
      level := if ps.hasType && ps.notifType == 0 then "warning"
        else if ps.hasType && ps.notifType == 2 then "info" else "alarm"
      title := trimSpace ps.description
      body := if ps.deviceName == "" then ps.service else ps.deviceName
      source := "victron"
      ts := ps.dateTime
      pushIncomplete := !ps.pushTypeKnown }

end PlatformSlot

/-! ## The banner list -/

/-- The cap of the banner list. -/
def maxNotifications : ℕ := 100

/-- The last `maxNotifications` entries. -/
def capNotifications (l : GoSlice Notification) : GoSlice Notification :=
  if maxNotifications < l.elems.length then l.takeLast maxNotifications else l

/-- `upsertNotification`: the new entry replaces the one with its ID and goes last. -/
def upsertNotification (l : GoSlice Notification) (n : Notification) : GoSlice Notification :=
  capNotifications ((l.filterInPlace fun e => e.id != n.id).append [n])

namespace Client

/-- The state with another banner list. -/
def setBanners (c : Client) (l : GoSlice Notification) : Client :=
  { c with state := c.state.set .notifications l }

/-- The banner list. -/
def banners (c : Client) : GoSlice Notification := c.state.field .notifications

/-- The level of a controller notification: one of the three, else `info`. -/
def notificationLevel (level : String) : String :=
  let level := toLower (trimSpace level)
  if ["info", "warning", "alarm"].contains level then level else "info"

/-- `json.Unmarshal` of a text into a notification: members in the order of the text. -/
def unmarshalNotification : Payload → Notification × Bool
  | .json .null => ({}, true)
  | .json (.obj fs) => Decoder.structFields Notification.members (Json.useNumberFields fs) {}
  | _ => ({}, false)

/-- The banner of a payload on `inverter/notifications`; `none` when it is ignored. -/
def decodeNotification (payload : Payload) : Option Notification :=
  let r := unmarshalNotification payload
  let id := trimSpace r.1.id
  let title := trimSpace r.1.title
  if r.2 && !(id == "" && title == "") then
    some
      { id := if id == "" then title else id
        level := notificationLevel r.1.level
        title := if title == "" then id else title
        body := r.1.body
        source := if r.1.source == "" then "inverter-control" else r.1.source
        ts := r.1.ts }
  else none

/-- The commit of `applyNotificationMessage`. -/
def commitNotification (c : Client) (n : Notification) : Client :=
  c.setBanners (upsertNotification c.banners n)

/-- The service and the name of an alarm topic. -/
def alarmNames (parts : List String) : String × String :=
  if 4 < parts.length then
    let service := parts.getD 2 ""
    (if 5 < parts.length && parts.getD 4 "" == "Alarms" then
      service ++ "_" ++ parts.getD 3 "" else service, parts.getLastD "")
  else ("device", topicText parts)

/-- The banner of an alarm at level 1 or 2. -/
def alarmBanner (parts : List String) (value : ℕ) : Notification :=
  let names := alarmNames parts
  { id := "victron-" ++ topicText parts
    level := if value == 2 then "alarm" else "warning"
    title := prettyServiceName names.1
    body := prettyAlarmName names.2 ++ ": " ++ if value == 2 then "Alarm" else "Warning"
    source := "victron" }

/-- `onAlarmMessage`: raw alarms are silent once the platform notifies, and only a transition
changes the list. -/
def commitAlarm (c : Client) (r : NativeScalars) (parts : List String) (payload : Payload) :
    Client :=
  if c.platformNotifsSeen then c
  else
    match decodeAlarmValue r payload with
    | none => c
    | some value =>
      let topic := topicText parts
      if (c.alarmValues.lookup topic).getD 0 = value then c
      else
        let c := { c with alarmValues := c.alarmValues.insert topic value }
        if value = 1 ∨ value = 2 then
          c.setBanners (upsertNotification c.banners (alarmBanner parts value))
        else c.setBanners (c.banners.filterInPlace fun e => e.id != "victron-" ++ topic)

/-- The slots after an update (`updatePlatformSlots`). -/
def updatePlatformSlots (c : Client) (r : NativeScalars) (u : PlatformUpdate) : Client :=
  let ps := (c.platformSlots.lookup (u.inst, u.slot)).getD { inst := u.inst, slot := u.slot }
  { c with
    platformNotifsSeen := true
    platformSlots := c.platformSlots.insert (u.inst, u.slot) (ps.updateField r u.field u.value) }

/-- The commit of `applyPlatformNotification`: banners of the controller stay, and the native
ones are rebuilt from the slots. -/
def commitPlatform (c : Client) (r : NativeScalars) (u : PlatformUpdate) : Client :=
  let c := c.updatePlatformSlots r u
  let slots := c.platformSlots.entries.map fun e => e.2
  c.setBanners (capNotifications ((c.banners.filterInPlace fun e =>
    !hasPrefix e.id "victron-").append (slots.filterMap PlatformSlot.toNotification)))

/-- `resetNativeNotifications`. -/
def resetNativeNotifications (c : Client) (clearBanners : Bool) : Client :=
  let c := { c with platformSlots := ∅, platformNotifsSeen := false, alarmValues := ∅ }
  if clearBanners then
    c.setBanners (c.banners.filterInPlace fun e =>
      e.source != "victron" && !hasPrefix e.id "victron-")
  else c

/-! ## Banner commits change banners only -/

/-- The two clients differ in the banner list and the notification caches only. -/
def BannersOnly (c c' : Client) : Prop :=
  ∃ l slots seen alarms, c' = { c with
    state := c.state.set .notifications l
    platformSlots := slots
    platformNotifsSeen := seen
    alarmValues := alarms }

theorem State.set_banners_self (st : State) :
    st.set .notifications (st.field .notifications) = st := by
  simp [State.set, Function.update_eq_self]

theorem bannersOnly_refl (c : Client) : BannersOnly c c :=
  ⟨c.banners, c.platformSlots, c.platformNotifsSeen, c.alarmValues, by
    rw [banners, State.set_banners_self]⟩

theorem commitNotification_frame (c : Client) (n : Notification) :
    BannersOnly c (c.commitNotification n) := ⟨_, _, _, _, rfl⟩

theorem commitAlarm_frame (c : Client) (r : NativeScalars) (parts : List String)
    (payload : Payload) : BannersOnly c (c.commitAlarm r parts payload) := by
  unfold commitAlarm
  split_ifs
  · exact bannersOnly_refl c
  · cases decodeAlarmValue r payload with
    | none => exact bannersOnly_refl c
    | some value =>
      dsimp only
      split_ifs
      · exact bannersOnly_refl c
      · exact ⟨_, _, _, _, rfl⟩
      · exact ⟨_, _, _, _, rfl⟩

/-- An alarm leaves the slots alone. -/
theorem commitAlarm_platformSlots (c : Client) (r : NativeScalars) (parts : List String)
    (payload : Payload) : (c.commitAlarm r parts payload).platformSlots = c.platformSlots := by
  unfold commitAlarm
  split_ifs
  · rfl
  · cases decodeAlarmValue r payload with
    | none => rfl
    | some value =>
      dsimp only
      split_ifs <;> rfl

theorem commitPlatform_frame (c : Client) (r : NativeScalars) (u : PlatformUpdate) :
    BannersOnly c (c.commitPlatform r u) := ⟨_, _, _, _, rfl⟩

theorem resetNativeNotifications_frame (c : Client) (clearBanners : Bool) :
    BannersOnly c (c.resetNativeNotifications clearBanners) := by
  unfold resetNativeNotifications
  dsimp only
  split_ifs
  · exact ⟨_, _, _, _, rfl⟩
  · exact ⟨c.banners, _, _, _, by rw [banners, State.set_banners_self]⟩

end Client

end Dashboard
