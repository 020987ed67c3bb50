import InverterDashboard.Mqtt.Notifications

set_option relaxedAutoImplicit false
set_option autoImplicit false

/-!
# Native device messages

`handleCerboDevice`, `acceptPortal`, `updateWaterModeObservation` and `applyCerboMessage` of
`internal/mqtt/cerbo.go`: a message on `N/<portal>/<kind>/<instance>/<path>` updates the leaf cache
and is reduced again.

## Main definitions

* `Dashboard.parseCerboPayload` — the value of a payload.
* `Dashboard.Client.handleCerboDevice` — the leaf update.
* `Dashboard.Client.acceptPortal`, `applyPortalMessage` — discovery.
* `Dashboard.Client.updateWaterModeObservation`, `waterControlReady` — the water receipts.
* `Dashboard.Client.applyCerboMessage` — the native callback body.

## Main results

* `Dashboard.Client.handleCerboDevice_spec` — a message is rejected, or the new cache (`Stored`) is
  reduced; it never panics.
* `Dashboard.Client.waterMode_known` — a water mode is known only from its `Mode` leaf.
-/

namespace Dashboard

open Go

/-- `parseCerboPayload`: the entry `value` of an object. -/
def parseCerboPayload : Payload → Option Any
  | .json (.obj fs) => do
    let values ← Json.toAnyFields fs
    entry (lastWins values) "value"
  | _ => none

/-- The cache without the leaves of a device. -/
def LeafMap.eraseDevice (all : LeafMap) (kind : Kind) (inst : String) : LeafMap :=
  ⟨all.entries.filter fun e => !(e.1.kind == kind && e.1.inst == inst),
    List.NodupKeys.sublist List.filter_sublist all.nodupKeys⟩

/-- A leaf is left when it is of another device. -/
theorem LeafMap.lookup_eraseDevice (all : LeafMap) (kind : Kind) (inst : String) (l : Leaf) :
    (all.eraseDevice kind inst).lookup l =
      if l.kind = kind ∧ l.inst = inst then none else all.lookup l := by
  apply Option.ext
  intro v
  have hmem : (all.eraseDevice kind inst).lookup l = some v ↔
      Sigma.mk l v ∈ (all.eraseDevice kind inst).entries := AList.mem_lookup_iff
  have hold : all.lookup l = some v ↔ Sigma.mk l v ∈ all.entries := AList.mem_lookup_iff
  rw [hmem, LeafMap.eraseDevice, List.mem_filter, ← hold]
  split_ifs with h
  · simp [h.1, h.2]
  · have : (!(l.kind == kind && l.inst == inst)) = true := by
      rw [Bool.not_eq_true', Bool.and_eq_false_iff, beq_eq_false_iff_ne, beq_eq_false_iff_ne]
      exact not_and_or.mp h
    simp [this]

/-- A `Connected` reading other than 0 and 1 counts as unknown. -/
def normaliseConnected (path : String) (value : Any) : Any :=
  if path = "Connected" ∧ !((number value).any fun n => n.eq 0 || n.eq 1) then .nil else value

/-- Whether a leaf accepts a value: metadata takes texts, readings take numbers, and null
invalidates either. -/
def acceptsValue (path : String) (value : Any) : Bool :=
  match value with
  | .nil => true
  | .string _ => hasSuffix path "Name" || path == "Serial" || hasSuffix path "CellId" ||
      path == "Dc/Battery/BatteryService"
  | v => (number v).isSome

/-- The portal of a payload on `inverter/portal`: a JSON string, else the trimmed text. -/
structure PortalText where
  text : String
  quoted : Option String

namespace Client

/-- The leaf update of `handleCerboDevice`. A null claims the members that a number would make
known, found with a sample that is discarded again. -/
def storeLeaf (c : Client) (leaf : Leaf) (value : Any) (now : Time) : Option Client :=
  let c := if value.isNil then
      { c with cerboOwned := c.cerboOwned.claimOutputs
                (c.cerboLeaves.insert leaf (.float64 0)) c.options }
    else c
  { c with cerboLeaves := c.cerboLeaves.insert leaf value
           nativeLastSeen := some now }.applyCerboOverlays

/-- The branch of `handleCerboDevice` for a payload that is not empty. -/
def handleLeaf (c : Client) (kind : Kind) (inst : String) (rest : List String)
    (payload : Payload) (now : Time) : Option (Client × Bool) :=
  match parseCerboPayload payload with
  | none => some (c, false)
  | some v =>
    let path := topicText rest
    let value := normaliseConnected path v
    if rest ≠ [] ∧ acceptsValue path value then
      (c.storeLeaf ⟨kind, inst, path⟩ value now).map fun c => (c, true)
    else some (c, false)

/-- The branch of `handleCerboDevice` for an empty payload: dbus-flashmq emits one when a service
disappears. -/
def removeDevice (c : Client) (kind : Kind) (inst : String) : Option (Client × Bool) :=
  ({ c with cerboLeaves := c.cerboLeaves.eraseDevice kind inst }.applyCerboOverlays).map
    fun c => (c, true)

/-- `handleCerboDevice`, with whether the message was accepted. -/
def handleCerboDevice (c : Client) (parts : List String) (payload : Payload) (now : Time) :
    Option (Client × Bool) :=
  match parts with
  | "N" :: portal :: kindName :: inst :: rest =>
    match Kind.ofName? kindName with
    | none => some (c, false)
    | some kind =>
      if (c.portalID ≠ "" ∧ portal ≠ c.portalID) ∨ (atoi inst).isNone then some (c, false)
      else if payload = .empty then c.initCerboMaps.removeDevice kind inst
      else c.initCerboMaps.handleLeaf kind inst rest payload now
  | _ => some (c, false)

/-! ## Discovery -/

/-- `acceptPortal`. -/
def acceptPortal (c : Client) (portal : String) (generation session : ℕ) : Client × Bool :=
  if !validPortal portal || !c.sourceCurrent generation session then (c, false)
  else if c.portalID ≠ "" then (c, c.portalID == portal)
  else ({ c with portalID := portal }, true)

/-- `applyPortalMessage`, without the refresh it starts. -/
def applyPortalMessage (c : Client) (p : PortalText) (generation session : ℕ) : Client :=
  if c.portalID ≠ "" then c
  else (c.acceptPortal (p.quoted.getD (trimSpace p.text)) generation session).1

/-- `validateCerboMessagePayload`: selected-mode tombstones revoke receipts, but an unknown portal
is only discovered by a real value. -/
def validateCerboMessagePayload (c : Client) (parts : List String) (payload : Payload) : Bool :=
  let value := parseCerboPayload payload
  let isEmpty := match payload with
    | .empty => true
    | _ => false
  let selectedMode := c.portalID != "" && parts.getD 1 "" == c.portalID && parts.length == 5 &&
    parts.getD 2 "" == "pump" && parts.getD 4 "" == "Mode"
  if value.isNone && !isEmpty && !selectedMode then false
  else if c.portalID ≠ "" then true
  else
    match value with
    | none | some .nil | some (.bool _) => false
    | some (.string s) => trimSpace s != ""
    | some _ => true

/-! ## Water receipts -/

/-- The configured instance of a device. -/
def waterInstance (c : Client) : WaterDevice → ℤ
  | .pump => c.pumpInstance
  | .valve => c.valveInstance

/-- The topic levels behind the portal of the selected `Mode` leaf. -/
def isModeOf (c : Client) (d : WaterDevice) (parts : List String) : Bool :=
  parts.length == 5 && parts.getD 2 "" == "pump" && parts.getD 4 "" == "Mode" &&
    parts.getD 3 "" == itoa (c.waterInstance d)

/-- `updateWaterModeObservation`: every message of a selected `Mode` leaf drops the receipt, and
only an accepted live one renews it. -/
def updateWaterModeObservation (c : Client) (parts : List String) (changed retained : Bool)
    (now : Time) : Client :=
  { c with waterModeObserved := fun d =>
      if c.isModeOf d parts then
        (if changed && !retained && c.state.available d.field.jsonName then some now else none)
      else c.waterModeObserved d }

/-- `waterControlReady`. -/
def waterControlReady (c : Client) (d : WaterDevice) (now : Time) : Bool :=
  c.state.available d.field.jsonName &&
    (c.waterModeObserved d).any fun at_ => decide (0 ≤ now - at_ ∧ now - at_ ≤ 30000)

/-! ## The native callback -/

/-- `strings.Contains(topic, "/" + level + "/")`: a level strictly inside the topic. -/
def hasInnerLevel (parts : List String) (level : String) : Bool :=
  parts.tail.dropLast.contains level

/-- The commit of `applyCerboDeviceMessage`. The push samples of the message go to the push
service, which is not part of the client. -/
def commitDevice (c : Client) (parts : List String) (payload : Payload) (retained : Bool)
    (now : Time) : Option Client := do
  let (c, changed) ← c.handleCerboDevice parts payload now
  let c := c.updateWaterModeObservation parts changed retained now
  return if changed then { c with lastStateTime := some now } else c

/-- The body of `applyCerboMessage` behind the portal check. -/
def commitNative (c : Client) (r : NativeScalars) (parts : List String) (payload : Payload)
    (retained : Bool) (now : Time) : Option Client :=
  if parts.length = 3 then some c
  else if parts.getD 2 "" = "platform" ∧ hasInnerLevel parts "Notifications" then
    match decodePlatformNotification r parts payload with
    | some u => some (c.commitPlatform r u)
    | none => some c
  else if hasInnerLevel parts "Alarms" then some (c.commitAlarm r parts payload)
  else c.commitDevice parts payload retained now

/-- `applyCerboMessage` for a callback that captured these tokens and is not interrupted. -/
def applyCerboMessage (c : Client) (r : NativeScalars) (parts : List String) (payload : Payload)
    (retained : Bool) (generation session : ℕ) (now : Time) : Option Client :=
  if generation ≠ c.pushGeneration ∨ parts.length < 3 ∨ parts.getD 0 "" ≠ "N" then some c
  else if !c.validateCerboMessagePayload parts payload then some c
  else
    let (c, accepted) := c.acceptPortal (parts.getD 1 "") generation session
    if !accepted || !c.sourceCurrent generation session then some c
    else c.commitNative r parts payload retained now

/-! ## What a device message does -/

/-- The client whose cache an accepted device message has updated, before it is reduced: the
device is gone after an empty payload, and else one leaf has the value of the payload. -/
structure Stored (c : Client) (parts : List String) (payload : Payload) (c₁ : Client) :
    Prop where
  frame : c₁ = { c with
    state := c.initCerboMaps.state
    cerboLeaves := c₁.cerboLeaves
    cerboOwned := c₁.cerboOwned
    nativeLastSeen := c₁.nativeLastSeen }
  owned : ∀ f, c.cerboOwned.has f = true → c₁.cerboOwned.has f = true
  leaves : ∃ portal kindName kind inst rest,
    parts = "N" :: portal :: kindName :: inst :: rest ∧ Kind.ofName? kindName = some kind ∧
    (c.portalID ≠ "" → portal = c.portalID) ∧
    (payload = .empty ∧ c₁.cerboLeaves = c.cerboLeaves.eraseDevice kind inst ∨
      ∃ v, rest ≠ [] ∧ parseCerboPayload payload = some v ∧ c₁.cerboLeaves =
        c.cerboLeaves.insert ⟨kind, inst, topicText rest⟩ (normaliseConnected (topicText rest) v))

/-- The empty-payload branch reduces the cache without the device. -/
theorem removeDevice_spec (c : Client) (kind : Kind) (inst : String) :
    ∃ c', c.removeDevice kind inst = some (c', true) ∧
      Overlaid { c with cerboLeaves := c.cerboLeaves.eraseDevice kind inst } c' := by
  obtain ⟨c', hc', hov⟩ :=
    ({ c with cerboLeaves := c.cerboLeaves.eraseDevice kind inst }).applyCerboOverlays_spec
  exact ⟨c', by rw [removeDevice, hc']; rfl, hov⟩

/-- The other branch rejects the payload, or reduces the cache with the new leaf. -/
theorem handleLeaf_spec (c : Client) (kind : Kind) (inst : String) (rest : List String)
    (payload : Payload) (now : Time) :
    c.handleLeaf kind inst rest payload now = some (c, false) ∨
      ∃ v owned c', rest ≠ [] ∧ parseCerboPayload payload = some v ∧
        c.handleLeaf kind inst rest payload now = some (c', true) ∧
        (∀ f, c.cerboOwned.has f = true → owned.has f = true) ∧
        Overlaid { c with
          cerboOwned := owned
          cerboLeaves := c.cerboLeaves.insert ⟨kind, inst, topicText rest⟩
            (normaliseConnected (topicText rest) v)
          nativeLastSeen := some now } c' := by
  unfold handleLeaf
  cases hv : parseCerboPayload payload with
  | none => exact Or.inl rfl
  | some v =>
    dsimp only
    split_ifs with hacc
    · right
      unfold storeLeaf
      split_ifs
      · obtain ⟨c', hc', hov⟩ := Client.applyCerboOverlays_spec { c with
          cerboOwned := c.cerboOwned.claimOutputs
            (c.cerboLeaves.insert ⟨kind, inst, topicText rest⟩ (.float64 0)) c.options
          cerboLeaves := c.cerboLeaves.insert ⟨kind, inst, topicText rest⟩
            (normaliseConnected (topicText rest) v)
          nativeLastSeen := some now }
        refine ⟨v, _, c', hacc.1, rfl, by rw [hc']; rfl, fun f hf => ?_, hov⟩
        simp [OwnedFields.claimOutputs, hf]
      · obtain ⟨c', hc', hov⟩ := Client.applyCerboOverlays_spec { c with
          cerboLeaves := c.cerboLeaves.insert ⟨kind, inst, topicText rest⟩
            (normaliseConnected (topicText rest) v)
          nativeLastSeen := some now }
        exact ⟨v, _, c', hacc.1, rfl, by rw [hc']; rfl, fun _ hf => hf, hov⟩
    · exact Or.inl rfl

/-- `handleCerboDevice` never panics: it rejects the message, or reduces the updated cache. -/
theorem handleCerboDevice_spec (c : Client) (parts : List String) (payload : Payload)
    (now : Time) : ∃ c' changed, c.handleCerboDevice parts payload now = some (c', changed) ∧
      (changed = false ∧ (c' = c ∨ c' = c.initCerboMaps) ∨
        changed = true ∧ ∃ c₁, Stored c parts payload c₁ ∧ Overlaid c₁ c') := by
  have hinit := c.initCerboMaps_spec.1
  have hleaves : c.initCerboMaps.cerboLeaves = c.cerboLeaves := by rw [hinit]
  have howned : c.initCerboMaps.cerboOwned = c.cerboOwned := by rw [hinit]
  unfold handleCerboDevice
  split
  case h_2 => exact ⟨c, false, rfl, Or.inl ⟨rfl, Or.inl rfl⟩⟩
  case h_1 portal kindName inst rest =>
    cases hk : Kind.ofName? kindName with
    | none => exact ⟨c, false, rfl, Or.inl ⟨rfl, Or.inl rfl⟩⟩
    | some kind =>
      dsimp only
      by_cases hguard : (c.portalID ≠ "" ∧ portal ≠ c.portalID) ∨ (atoi inst).isNone = true
      · rw [if_pos hguard]
        exact ⟨c, false, rfl, Or.inl ⟨rfl, Or.inl rfl⟩⟩
      · rw [if_neg hguard]
        have hportal : c.portalID ≠ "" → portal = c.portalID := fun hne => by
          by_contra hp
          exact hguard (Or.inl ⟨hne, hp⟩)
        by_cases hempty : payload = .empty
        · rw [if_pos hempty]
          obtain ⟨c', hc', hov⟩ := c.initCerboMaps.removeDevice_spec kind inst
          refine ⟨c', true, hc', Or.inr ⟨rfl, _, ⟨?_, ?_, ?_⟩, hov⟩⟩
          · rw [hinit]
          · exact fun f hf => howned ▸ hf
          · exact ⟨portal, kindName, kind, inst, rest, rfl, hk, hportal,
              Or.inl ⟨hempty, by rw [hleaves]⟩⟩
        · rw [if_neg hempty]
          rcases c.initCerboMaps.handleLeaf_spec kind inst rest payload now with
            hrej | ⟨v, owned, c', hrest, hv, hc', ho, hov⟩
          · exact ⟨_, false, hrej, Or.inl ⟨rfl, Or.inr rfl⟩⟩
          · refine ⟨c', true, hc', Or.inr ⟨rfl, _, ⟨?_, ?_, ?_⟩, hov⟩⟩
            · rw [hinit]
            · exact fun f hf => ho f (howned ▸ hf)
            · exact ⟨portal, kindName, kind, inst, rest, rfl, hk, hportal,
                Or.inr ⟨v, hrest, hv, by rw [hleaves]⟩⟩

/-! ## Where a water mode comes from -/

/-- A value that is one of the three modes. -/
def validMode (v : Any) : Bool := ((number v).bind modeReading).isSome

/-- The cached leaf of the selected mode. -/
def modeLeaf (c : Client) (d : WaterDevice) : Leaf :=
  ⟨.pump, itoa (c.waterInstance d), "Mode"⟩

/-- A known water mode is a valid value of the selected `Mode` leaf. -/
theorem waterMode_known (c : Client) (d : WaterDevice) (h : (c.overlay.val d.field).isSome) :
    ∃ v, c.cerboLeaves.lookup (c.modeLeaf d) = some v ∧ validMode v = true := by
  have hnum : ∀ inst : ℤ,
      ((configuredNum c.cerboLeaves .pump inst "Mode").bind modeReading).isSome →
      ∃ v, c.cerboLeaves.lookup ⟨.pump, itoa inst, "Mode"⟩ = some v ∧ validMode v = true := by
    intro inst hsome
    have hdev : configuredNum c.cerboLeaves .pump inst "Mode" =
        (deviceAt (devices c.cerboLeaves .pump) (itoa inst) "Mode").bind number := by
      unfold configuredNum Device.num
      rw [List.findSome?_singleton]
    rw [hdev] at hsome
    rcases deviceAt_devices_eq c.cerboLeaves .pump (itoa inst) "Mode" with hnone | hlook
    · rw [hnone] at hsome
      cases hsome
    · rw [hlook] at hsome
      cases hv : c.cerboLeaves.lookup ⟨.pump, itoa inst, "Mode"⟩ with
      | none =>
        rw [hv] at hsome
        cases hsome
      | some v =>
        rw [hv] at hsome
        exact ⟨v, rfl, hsome⟩
  obtain ⟨hp, hv⟩ := cerboOverlay_modes c.cerboLeaves c.options
  cases d with
  | pump => exact hnum c.pumpInstance (hp ▸ h)
  | valve => exact hnum c.valveInstance (hv ▸ h)

end Client

end Dashboard
