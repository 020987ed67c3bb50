import InverterDashboard.Lan.System

set_option relaxedAutoImplicit false
set_option autoImplicit false

/-!
# Permissions on LAN

The four receipts that authorise commands on LAN and the messages they stand for. A payload that
does not decode is ignored by the controller callbacks and carries nothing; every message of a
selected `Mode` leaf counts, whatever its payload.

## Main definitions

* `Dashboard.Lan.Permissions` — each receipt is that of the latest message of the session that
  carried its datum.
* `Dashboard.Lan.Recent` — a receipt of the last 30 seconds that was not retained.

## Main results

* `Dashboard.Lan.permissions_step`, `permissions_of_reachable` — the invariant.
* `Dashboard.Lan.ready_of_latest` — readiness at dispatch is that of the latest message.
-/

namespace Dashboard

open Go

/-- `ui_config` as the section decodes it: into the cleared map. -/
def decodeUIConfig (v : Any) : GoMap Any := (Decoder.map Any.nil Decoder.any v (some ∅)).1

namespace Lan

/-- The latest message that carries a datum. -/
def latest {α : Type} (carries : Receipt → Option α) (log : List Receipt) : Option (Receipt × α) :=
  log.findSome? fun r => (carries r).map fun a => (r, a)

theorem latest_cons_none {α : Type} {carries : Receipt → Option α} {r : Receipt}
    {log : List Receipt} (h : carries r = none) :
    latest carries (r :: log) = latest carries log := by
  rw [latest, List.findSome?_cons, h]
  rfl

theorem latest_cons_some {α : Type} {carries : Receipt → Option α} {r : Receipt}
    {log : List Receipt} {a : α} (h : carries r = some a) :
    latest carries (r :: log) = some (r, a) := by
  rw [latest, List.findSome?_cons, h]
  rfl

/-- What the client knows of the receipts is what the session delivered. -/
structure Permissions (c : Client) (log : List Receipt) : Prop where
  /-- Only telemetry members have a flag that is set. -/
  flags : ∀ key, c.state.available key = true → ∃ f ∈ directFields, f.jsonName = key
  /-- A cached leaf came over a portal whose device messages are not taken for alarms. -/
  leaves : ∀ l, (c.cerboLeaves.lookup l).isSome →
    validPortal c.portalID = true ∧ c.portalID ≠ "Alarms" ∧ l.inst ≠ "Alarms"
  live : c.state.field .inverterAvailable = some true → ∃ r data,
    latest Receipt.stateFrame log = some (r, data) ∧ data ≠ [] ∧
    c.controllerLiveAt = if r.retained then none else some r.time
  override : ∀ x, c.state.field .setpointOverrideObservedAt = some x → ∃ r status,
    latest Receipt.overrideStatus log = some (r, some status) ∧ r.retained = false ∧
    x = receiptSeconds r.time
  tariffAt : ∀ x, c.state.field .electricityTariffObservedAt = some x → ∃ r v,
    latest Receipt.uiConfig log = some (r, v) ∧ r.retained = false ∧ x = receiptSeconds r.time
  tariff : ∀ rev, writableRevision (c.state.field .uiConfig) = some rev → ∃ r v,
    latest Receipt.uiConfig log = some (r, v) ∧ writableRevision (decodeUIConfig v) = some rev
  waterKnown : ∀ d : WaterDevice, c.state.available d.field.jsonName = true →
    c.cerboOwned.has d.field = true ∧ (c.overlay.val d.field).isSome
  waterAt : ∀ d t, c.waterModeObserved d = some t → (c.cerboLeaves.lookup (c.modeLeaf d)).isSome →
    ∃ r payload v, latest (fun r => r.modePayload c.portalID (c.waterInstance d)) log =
      some (r, payload) ∧ r.retained = false ∧ r.time = t ∧
      parseCerboPayload payload = some v ∧ Client.validMode v = true

/-- `ui_config` has no flag. -/
theorem Permissions.uiConfig_unflagged {c : Client} {log : List Receipt} (h : Permissions c log) :
    c.state.available "ui_config" = false := by
  by_contra hk
  obtain ⟨f, hf, hname⟩ := h.flags _ (by simpa using hk)
  have hui : f = .uiConfig := Field.jsonName_injective hname
  rw [hui] at hf
  exact absurd hf (by decide)

/-! ## Steps that carry nothing -/

/-- A client with the same view and portal has the same permissions. -/
theorem Permissions.of_sameView {c c' : Client} {log : List Receipt} (h : Permissions c log)
    (hv : c.SameView c') (hp : c'.portalID = c.portalID) : Permissions c' log := by
  have hf : ∀ f ∈ Client.permissionFields, c'.state.field f = c.state.field f := hv.field
  refine ⟨?_, ?_, ?_, ?_, ?_, ?_, ?_, ?_⟩
  · exact fun key hk => h.flags key (hv.flags key ▸ hk)
  · exact fun l hl => hp ▸ h.leaves l (hv.leaves ▸ hl)
  · rw [hf _ (by decide), hv.live]
    exact h.live
  · rw [hf _ (by decide)]
    exact h.override
  · rw [hf _ (by decide)]
    exact h.tariffAt
  · rw [hf _ (by decide)]
    exact h.tariff
  · intro d hd
    rw [hv.owned, hv.overlay]
    exact h.waterKnown d (hv.flags _ ▸ hd)
  · intro d t ht hl
    rw [Client.modeLeaf, hv.waterInstance] at hl
    rw [hp, hv.waterInstance]
    exact h.waterAt d t (hv.water ▸ ht) (hv.leaves ▸ hl)

/-- A withdrawn client has no permission of the controller, and none for water but those from
before. -/
theorem Permissions.of_withdrawn {c c' : Client} {log log' : List Receipt} (h : Permissions c log)
    (hw : c.Withdrawn c') (hp : c'.portalID = c.portalID)
    (hlog : c'.cerboLeaves = c.cerboLeaves →
      c'.waterModeObserved = c.waterModeObserved ∧ log' = log ∨ c'.cerboLeaves = ∅) :
    Permissions c' log' := by
  have hinst : ∀ d, c'.waterInstance d = c.waterInstance d := by
    intro d
    cases d
    · exact congrArg CerboOptions.pumpInstance hw.options
    · exact congrArg CerboOptions.valveInstance hw.options
  refine ⟨?_, ?_, ?_, ?_, ?_, ?_, ?_, ?_⟩
  · exact fun key hk => h.flags key (hw.flags key hk)
  · intro l hl
    rcases hw.leaves with heq | ⟨hempty, -⟩
    · exact hp ▸ h.leaves l (heq ▸ hl)
    · rw [hempty, AList.lookup_empty] at hl
      cases hl
  · intro hinv
    rw [hw.inverter] at hinv
    cases hinv
  · intro x hx
    rw [hw.override] at hx
    cases hx
  · intro x hx
    rw [hw.tariff] at hx
    cases hx
  · intro rev hrev
    rw [hw.uiConfig h.uiConfig_unflagged] at hrev
    cases hrev
  · intro d hd
    rcases hw.leaves with heq | ⟨-, hnone⟩
    · rw [hw.owned, Client.overlay, heq, hw.options]
      exact h.waterKnown d (hw.flags _ hd)
    · rw [hnone _ (by cases d <;> decide)] at hd
      cases hd
  · intro d t ht hl
    rw [Client.modeLeaf, hinst] at hl
    have hvac : c'.cerboLeaves ≠ ∅ := by
      intro hempty
      rw [hempty, AList.lookup_empty] at hl
      cases hl
    rcases hw.leaves with heq | ⟨hempty, -⟩
    · rcases hlog heq with ⟨hwater, rfl⟩ | hempty
      · rw [hp, hinst]
        exact h.waterAt d t (hwater ▸ ht) (heq ▸ hl)
      · exact absurd hempty hvac
    · exact absurd hempty hvac

/-- The start of a run has no permission. -/
theorem permissions_of_init {s : Lan} (h : s.Init) : Permissions s.client s.log := by
  obtain ⟨cfg, hc, -, -, -⟩ := h
  have hflags : ∀ key, s.client.state.available key = false := by
    intro key
    rw [hc]
    exact Client.emptyAvailability_find key
  rw [hc] at hflags ⊢
  refine ⟨fun key hk => ?_, fun l hl => ?_, fun h => ?_, fun x h => ?_, fun x h => ?_,
    fun rev h => ?_, fun d hd => ?_, fun d t h => ?_⟩
  · rw [hflags] at hk
    cases hk
  · cases hl
  · cases h
  · cases h
  · cases h
  · cases h
  · rw [hflags] at hd
    cases hd
  · cases h

/-! ## Messages that carry no controller datum -/

/-- A message that carries no datum of the controller, and no `Mode` leaf that is cached, changes
no permission. -/
theorem Permissions.cons {c : Client} {log : List Receipt} {r : Receipt} (h : Permissions c log)
    (hs : r.stateFrame = none) (ho : r.overrideStatus = none)
    (hm : ∀ d, (c.cerboLeaves.lookup (c.modeLeaf d)).isSome →
      r.modePayload c.portalID (c.waterInstance d) = none) : Permissions c (r :: log) := by
  have hu : r.uiConfig = none := by rw [Receipt.uiConfig, hs]; rfl
  refine ⟨h.flags, h.leaves, ?_, ?_, ?_, ?_, h.waterKnown, ?_⟩
  · rw [latest_cons_none hs]
    exact h.live
  · rw [latest_cons_none ho]
    exact h.override
  · rw [latest_cons_none hu]
    exact h.tariffAt
  · rw [latest_cons_none hu]
    exact h.tariff
  · intro d t ht hl
    rw [latest_cons_none (hm d hl)]
    exact h.waterAt d t ht hl

/-- With an empty cache the portal does not matter. -/
theorem Permissions.of_empty {c : Client} {log : List Receipt} (h : Permissions c log)
    (hempty : ∀ l, ¬ (c.cerboLeaves.lookup l).isSome) (portal : String) :
    Permissions { c with portalID := portal } log :=
  ⟨h.flags, fun l hl => absurd hl (hempty l), h.live, h.override, h.tariffAt, h.tariff,
    h.waterKnown, fun _ _ _ hl => absurd hl (hempty _)⟩

/-- Discovery of the portal finds an empty cache. -/
theorem Permissions.of_portal {c : Client} {log : List Receipt} (h : Permissions c log)
    (hp : c.portalID = "") (portal : String) :
    Permissions { c with portalID := portal } log := by
  refine h.of_empty (fun l hl => ?_) portal
  have hvalid := (h.leaves l hl).1
  rw [hp] at hvalid
  exact absurd hvalid (by decide)

/-! ## Device messages -/

/-- The topic of the selected `Mode` leaf. -/
def modeTopic (c : Client) (d : WaterDevice) : List String :=
  ["N", c.portalID, "pump", itoa (c.waterInstance d), "Mode"]

theorem isModeOf_modeTopic (c : Client) (d : WaterDevice) :
    c.isModeOf d (modeTopic c d) = true := by
  simp [Client.isModeOf, modeTopic]

/-- A message of this portal that `isModeOf` recognises is on the selected topic. -/
theorem eq_modeTopic {c : Client} {d : WaterDevice} {parts : List String}
    (h : c.isModeOf d parts = true) (hN : parts.getD 0 "" = "N")
    (hp : c.portalID = parts.getD 1 "") : parts = modeTopic c d := by
  unfold Client.isModeOf at h
  match parts with
  | [a, b, k, i, m] =>
    simp only [List.getD_cons_succ, List.getD_cons_zero, Bool.and_eq_true, beq_iff_eq] at h hN hp
    obtain ⟨⟨⟨-, hk⟩, hm⟩, hi⟩ := h
    rw [modeTopic, hN, hp, hk, hm, hi]
  | [] => simp at h
  | [_] => simp at h
  | [_, _] => simp at h
  | [_, _, _] => simp at h
  | [_, _, _, _] => simp at h
  | _ :: _ :: _ :: _ :: _ :: _ :: _ => simp at h

/-- The leaf a device message stores is the selected one only on its topic. -/
theorem lookup_modeLeaf_of_stored {c c₀ : Client} {parts : List String} {payload : Payload}
    (h : c.Stored parts payload c₀) (d : WaterDevice) :
    c.isModeOf d parts = false ∧
        ((c₀.cerboLeaves.lookup (c.modeLeaf d)).isSome →
          (c.cerboLeaves.lookup (c.modeLeaf d)).isSome) ∨
      c.isModeOf d parts = true ∧ ∀ v, c₀.cerboLeaves.lookup (c.modeLeaf d) = some v →
        parseCerboPayload payload = some v := by
  obtain ⟨portal, kindName, kind, inst, rest, rfl, hk, -, hleaves⟩ := h.leaves
  cases hmode : c.isModeOf d ("N" :: portal :: kindName :: inst :: rest) with
  | false =>
    refine Or.inl ⟨rfl, fun hsome => ?_⟩
    rcases hleaves with ⟨-, heq⟩ | ⟨v, -, -, heq⟩ <;> rw [heq] at hsome
    · rw [LeafMap.lookup_eraseDevice] at hsome
      split_ifs at hsome
      · cases hsome
      · exact hsome
    · by_cases hleaf : c.modeLeaf d = ⟨kind, inst, topicText rest⟩
      · obtain ⟨rfl, rfl, hpath⟩ := Leaf.mk.inj hleaf
        rw [eq_singleton_of_topicText hpath.symm (by decide) (by decide),
          Kind.name_of_ofName? hk] at hmode
        simp [Client.isModeOf, Kind.name] at hmode
      · rwa [AList.lookup_insert_ne hleaf] at hsome
  | true =>
    refine Or.inr ⟨rfl, fun v hv => ?_⟩
    have htopic : rest = ["Mode"] ∧ kindName = "pump" ∧ inst = itoa (c.waterInstance d) := by
      match rest with
      | [] => simp [Client.isModeOf] at hmode
      | [m] => simpa [Client.isModeOf, and_assoc, and_left_comm] using hmode
      | _ :: _ :: _ => simp [Client.isModeOf] at hmode
    obtain ⟨rfl, rfl, rfl⟩ := htopic
    obtain rfl : kind = .pump := (Option.some.inj hk).symm
    rcases hleaves with ⟨-, heq⟩ | ⟨v', -, hparse, heq⟩ <;> rw [heq] at hv
    · rw [LeafMap.lookup_eraseDevice, if_pos ⟨rfl, rfl⟩] at hv
      cases hv
    · have hleaf : c.modeLeaf d = ⟨.pump, itoa (c.waterInstance d), topicText ["Mode"]⟩ := rfl
      rw [hleaf, AList.lookup_insert] at hv
      rw [hparse, ← Option.some.inj hv]
      rfl

/-- The leaf a device message stores came over the portal of the client. -/
theorem leaves_of_stored {c c₀ : Client} {log : List Receipt} {parts : List String}
    {payload : Payload} (h : Permissions c log) (hst : c.Stored parts payload c₀)
    (halarm : Client.hasInnerLevel parts "Alarms" = false) (hp : c.portalID = parts.getD 1 "")
    (hvalid : validPortal (parts.getD 1 "") = true) (l : Leaf)
    (hl : (c₀.cerboLeaves.lookup l).isSome) :
    validPortal c.portalID = true ∧ c.portalID ≠ "Alarms" ∧ l.inst ≠ "Alarms" := by
  obtain ⟨portal, kindName, kind, inst, rest, rfl, -, -, hleaves⟩ := hst.leaves
  rcases hleaves with ⟨-, heq⟩ | ⟨v, hrest, -, heq⟩ <;> rw [heq] at hl
  · rw [LeafMap.lookup_eraseDevice] at hl
    split_ifs at hl
    · cases hl
    · exact h.leaves l hl
  · by_cases hleaf : l = ⟨kind, inst, topicText rest⟩
    · have hlevels : "Alarms" ∉ portal :: kindName :: inst :: rest.dropLast := by
        cases rest with
        | nil => exact absurd rfl hrest
        | cons a rest => simpa [Client.hasInnerLevel] using halarm
      simp only [List.mem_cons, not_or] at hlevels
      rw [hp, hleaf]
      exact ⟨hvalid, Ne.symm hlevels.1, Ne.symm hlevels.2.2.1⟩
    · rw [AList.lookup_insert_ne hleaf] at hl
      exact h.leaves l hl

/-- A device message keeps the permissions, with the message in the log.

**Proof sketch.** Nothing of the controller changes. The receipt of a water mode is renewed only by
an accepted live message of its `Mode` leaf that leaves the mode known, and then the known value is
the one of the payload (`lookup_modeLeaf_of_stored`, `waterMode_known`). -/
theorem Permissions.of_device {c c₁ : Client} {log : List Receipt} {parts : List String}
    {payload : Payload} {changed retained : Bool} {now : Time} (h : Permissions c log)
    (hd : c.DeviceHandled parts payload changed c₁)
    (halarm : Client.hasInnerLevel parts "Alarms" = false) (hN : parts.getD 0 "" = "N")
    (hp : c.portalID = parts.getD 1 "") (hvalid : validPortal (parts.getD 1 "") = true) :
    Permissions (c₁.updateWaterModeObservation parts changed retained now)
      (⟨now, retained, .native parts payload⟩ :: log) := by
  have hfr := hd.frame
  have hinst : ∀ d, c₁.waterInstance d = c.waterInstance d := by
    intro d
    cases d
    · exact congrArg CerboOptions.pumpInstance hfr.options
    · exact congrArg CerboOptions.valveInstance hfr.options
  have hisMode : ∀ d, c₁.isModeOf d parts = c.isModeOf d parts := by
    intro d
    rw [Client.isModeOf, hinst, Client.isModeOf]
  have hleaf : ∀ d, c₁.modeLeaf d = c.modeLeaf d := by
    intro d
    rw [Client.modeLeaf, hinst, Client.modeLeaf]
  have hwater : ∀ d : WaterDevice, c₁.state.available d.field.jsonName = true →
      c₁.cerboOwned.has d.field = true ∧ (c₁.overlay.val d.field).isSome := by
    intro d hav
    rcases hd with ⟨-, rfl | rfl⟩ | ⟨-, c₀, hst, hov⟩
    · exact h.waterKnown d hav
    · have hv := c.initCerboMaps_sameView
      rw [hv.owned, hv.overlay]
      exact h.waterKnown d (hv.flags _ ▸ hav)
    · refine hov.output_of_available (fun hav₀ => hst.owned _ (h.waterKnown d ?_).1) hav
      rw [hst.frame] at hav₀
      exact c.initCerboMaps_spec.2.2.2.1 _ ▸ hav₀
  refine ⟨?_, ?_, ?_, ?_, ?_, ?_, ?_, ?_⟩
  · intro key hk
    rcases hfr.flags key hk with hk | hk
    · exact h.flags key hk
    · exact hk
  · intro l hl
    show validPortal c₁.portalID = true ∧ c₁.portalID ≠ "Alarms" ∧ _
    rw [hfr.portal]
    rcases hd with ⟨-, rfl | rfl⟩ | ⟨-, c₀, hst, hov⟩
    · exact h.leaves l hl
    · exact h.leaves l (c.initCerboMaps_sameView.leaves ▸ hl)
    · refine leaves_of_stored h hst halarm hp hvalid l ?_
      have hlv : c₁.cerboLeaves = c₀.cerboLeaves := by rw [hov.frame]
      exact hlv ▸ hl
  · rw [latest_cons_none rfl]
    show c₁.state.field _ = _ → ∃ r data, _ ∧ _ ∧ c₁.controllerLiveAt = _
    rw [hfr.field _ (by decide) (by decide), hfr.live]
    exact h.live
  · rw [latest_cons_none rfl]
    show ∀ x, c₁.state.field _ = _ → _
    rw [hfr.field _ (by decide) (by decide)]
    exact h.override
  · rw [latest_cons_none rfl]
    show ∀ x, c₁.state.field _ = _ → _
    rw [hfr.field _ (by decide) (by decide)]
    exact h.tariffAt
  · rw [latest_cons_none rfl]
    show ∀ rev, writableRevision (c₁.state.field .uiConfig) = _ → _
    rw [hfr.field _ (by decide) (by decide)]
    exact h.tariff
  · exact hwater
  · intro d t ht hl
    replace hl : (c₁.cerboLeaves.lookup (c₁.modeLeaf d)).isSome := hl
    show ∃ r payload v, latest (fun r => r.modePayload c₁.portalID (c₁.waterInstance d)) _ = _ ∧ _
    rw [hfr.portal, hinst]
    simp only [Client.updateWaterModeObservation, hisMode] at ht
    by_cases hm : c.isModeOf d parts = true
    · rw [if_pos hm] at ht
      split_ifs at ht with hcond
      simp only [Bool.and_eq_true, Bool.not_eq_true'] at hcond
      obtain ⟨⟨rfl, hlive⟩, hav⟩ := hcond
      obtain ⟨v, hv, hok⟩ := c₁.waterMode_known d (hwater d hav).2
      rcases hd with ⟨hch, -⟩ | ⟨-, c₀, hst, hov⟩
      · cases hch
      have hlv : c₁.cerboLeaves = c₀.cerboLeaves := by rw [hov.frame]
      have htopic := eq_modeTopic hm hN hp
      refine ⟨_, payload, v, latest_cons_some (if_pos htopic), hlive, Option.some.inj ht, ?_, hok⟩
      rcases lookup_modeLeaf_of_stored hst d with ⟨hno, -⟩ | ⟨-, hparse⟩
      · rw [hm] at hno
        cases hno
      · exact hparse v (hleaf d ▸ hlv ▸ hv)
    · rw [if_neg hm, hfr.water] at ht
      have hnot : (Receipt.mk now retained (.native parts payload)).modePayload c.portalID
          (c.waterInstance d) = none := by
        refine if_neg fun htopic => hm ?_
        rw [htopic]
        exact isModeOf_modeTopic c d
      rw [latest_cons_none hnot]
      refine h.waterAt d t ht ?_
      rcases hd with ⟨-, rfl | rfl⟩ | ⟨-, c₀, hst, hov⟩
      · exact hl
      · rw [hleaf] at hl
        exact c.initCerboMaps_sameView.leaves ▸ hl
      · have hlv : c₁.cerboLeaves = c₀.cerboLeaves := by rw [hov.frame]
        rcases lookup_modeLeaf_of_stored hst d with ⟨-, hback⟩ | ⟨hyes, -⟩
        · exact hback (hleaf d ▸ hlv ▸ hl)
        · exact absurd hyes hm

/-- A selected `Mode` topic is not taken for an alarm. -/
theorem hasInnerLevel_modeTopic {c : Client} {d : WaterDevice} (hp : c.portalID ≠ "Alarms")
    (hi : itoa (c.waterInstance d) ≠ "Alarms") :
    Client.hasInnerLevel (modeTopic c d) "Alarms" = false := by
  simp [Client.hasInnerLevel, modeTopic, hp.symm, hi.symm]

/-- A message of a selected `Mode` leaf is never ignored on a portal that has cached leaves. -/
theorem applyCerboMessage_mode (c : Client) (r : NativeScalars) (d : WaterDevice)
    (payload : Payload) (retained : Bool) {session : ℕ} (now : Time)
    (hp : validPortal c.portalID = true ∧ c.portalID ≠ "Alarms" ∧
      itoa (c.waterInstance d) ≠ "Alarms")
    (hcur : c.sourceCurrent c.pushGeneration session = true) :
    c.applyCerboMessage r (modeTopic c d) payload retained c.pushGeneration session now =
      c.commitDevice (modeTopic c d) payload retained now := by
  obtain ⟨hvalid, hportal, hinst⟩ := hp
  have hne : c.portalID ≠ "" := by
    intro hempty
    rw [hempty] at hvalid
    exact absurd hvalid (by decide)
  have hpayload : c.validateCerboMessagePayload (modeTopic c d) payload = true := by
    simp [Client.validateCerboMessagePayload, modeTopic, hne]
  have haccept : c.acceptPortal c.portalID c.pushGeneration session = (c, true) := by
    simp [Client.acceptPortal, hvalid, hcur, hne]
  have hcommit : c.commitNative r (modeTopic c d) payload retained now =
      c.commitDevice (modeTopic c d) payload retained now := by
    rw [Client.commitNative, if_neg (by simp [modeTopic]), if_neg (by simp [modeTopic]),
      hasInnerLevel_modeTopic hportal hinst]
    rfl
  unfold Client.applyCerboMessage
  rw [if_neg (by simp [modeTopic]), hpayload]
  show (let p := c.acceptPortal c.portalID c.pushGeneration session
    if !p.2 || !p.1.sourceCurrent c.pushGeneration session then some p.1
    else p.1.commitNative r (modeTopic c d) payload retained now) = _
  rw [haccept]
  dsimp only
  rw [hcur]
  exact hcommit

/-- The client after a device message differs from the one before the bookkeeping in a time only. -/
theorem Permissions.of_bookkeeping {c : Client} {log : List Receipt} (h : Permissions c log)
    (changed : Bool) (now : Time) :
    Permissions (if changed then { c with lastStateTime := some now } else c) log := by
  split_ifs
  · exact h.of_sameView ⟨fun _ _ => rfl, fun _ => rfl, rfl, rfl, rfl, rfl, rfl, rfl, rfl, rfl⟩ rfl
  · exact h

/-- A native message of the current session keeps the permissions. -/
theorem Permissions.of_native {c c' : Client} {log : List Receipt} {r : NativeScalars}
    {parts : List String} {payload : Payload} {retained : Bool} {session : ℕ} {now : Time}
    (h : Permissions c log) (hlan : c.gatewayMode = false) (hsess : c.mqttSession = session)
    (hc' : c.applyCerboMessage r parts payload retained c.pushGeneration session now = some c') :
    Permissions c' (⟨now, retained, .native parts payload⟩ :: log) := by
  by_cases hmode : ∃ d, (c.cerboLeaves.lookup (c.modeLeaf d)).isSome ∧ parts = modeTopic c d
  · obtain ⟨d, hl, rfl⟩ := hmode
    have hleaf := h.leaves _ hl
    rw [applyCerboMessage_mode c r d payload retained now hleaf (by
      simp [Client.sourceCurrent, hlan, hsess])] at hc'
    obtain ⟨c₁, changed, hc₁, hspec⟩ := c.handleCerboDevice_spec (modeTopic c d) payload now
    rw [Client.commitDevice, hc₁] at hc'
    obtain rfl := Option.some.inj hc'
    have halarm := hasInnerLevel_modeTopic hleaf.2.1 hleaf.2.2
    exact Permissions.of_bookkeeping (h.of_device hspec halarm rfl rfl hleaf.1) changed now
  · have hother : ∀ d, (c.cerboLeaves.lookup (c.modeLeaf d)).isSome →
        (Receipt.mk now retained (.native parts payload)).modePayload c.portalID
          (c.waterInstance d) = none := fun d hl => if_neg fun ht => hmode ⟨d, hl, ht⟩
    rcases Client.applyCerboMessage_spec hc' with rfl | ⟨c₁, hc₁, hp, hvalid, -, hN, hn⟩
    · exact h.cons rfl rfl hother
    · have h₁ : Permissions c₁ log ∧ ∀ d, (c₁.cerboLeaves.lookup (c₁.modeLeaf d)).isSome →
          (Receipt.mk now retained (.native parts payload)).modePayload c₁.portalID
            (c₁.waterInstance d) = none := by
        rcases hc₁ with ⟨rfl, -⟩ | ⟨hempty, rfl⟩
        · exact ⟨h, hother⟩
        · refine ⟨h.of_portal hempty _, fun d hl => ?_⟩
          have hbad := (h.leaves _ hl).1
          rw [hempty] at hbad
          exact absurd hbad (by decide)
      cases hn with
      | ignored => exact h₁.1.cons rfl rfl h₁.2
      | banners hb => exact (h₁.1.cons rfl rfl h₁.2).of_sameView hb.sameView hb.portalID
      | @device c₂ _ changed halarm hd heq =>
        rw [heq]
        exact (h₁.1.of_device hd halarm hN hp hvalid).of_bookkeeping changed now

/-! ## Controller messages -/

/-- A writable revision depends on the tariff status only. -/
theorem writableRevision_congr {a b : GoMap Any}
    (h : a.find "electricity_tariff_status" = b.find "electricity_tariff_status") :
    writableRevision a = writableRevision b := by
  unfold writableRevision
  rw [h]

/-- A receipt that a frame just made. -/
theorem eq_of_receiptTime {retained : Bool} {now : Time} {x : F64}
    (h : Client.receiptTime retained now = some x) :
    retained = false ∧ x = receiptSeconds now := by
  unfold Client.receiptTime at h
  split_ifs at h with hr
  exact ⟨by simpa using hr, (Option.some.inj h).symm⟩

/-- The receipt of an override after a message that carries `status`, if any. -/
theorem override_of_carried {log : List Receipt} {r : Receipt}
    {carried : Option (Option SetpointOverrideStatus)} {old : Option F64} {x : F64}
    (hx : (match carried with
      | some status => if status.isSome then Client.receiptTime r.retained r.time else none
      | none => old) = some x)
    (hr : r.overrideStatus = carried)
    (hold : ∀ x, old = some x → ∃ r status,
      latest Receipt.overrideStatus log = some (r, some status) ∧ r.retained = false ∧
      x = receiptSeconds r.time) :
    ∃ r' status, latest Receipt.overrideStatus (r :: log) = some (r', some status) ∧
      r'.retained = false ∧ x = receiptSeconds r'.time := by
  cases carried with
  | none =>
    rw [latest_cons_none hr]
    exact hold x hx
  | some status =>
    cases status with
    | none => cases hx
    | some status =>
      obtain ⟨hlive, rfl⟩ := eq_of_receiptTime hx
      exact ⟨r, status, latest_cons_some hr, hlive, rfl⟩

/-- The commit of a state frame keeps the permissions, with the frame in the log. -/
theorem Permissions.of_stateCommitted {c c' : Client} {log : List Receipt} {payload : Payload}
    {data : Frame} {retained : Bool} {now : Time} (h : Permissions c log)
    (hdata : decodeControllerState payload = some data)
    (hc : c.StateCommitted data retained now c') :
    Permissions c' (⟨now, retained, .state payload⟩ :: log) := by
  have hframe : (Receipt.mk now retained (.state payload)).stateFrame = some data := hdata
  have hstatus : (Receipt.mk now retained (.state payload)).overrideStatus =
      Client.carriedStatus data := by
    simp [Receipt.overrideStatus, hdata]
  have hui : (Receipt.mk now retained (.state payload)).uiConfig = entry data "ui_config" := by
    simp [Receipt.uiConfig, hframe]
  have hleaves : c'.cerboLeaves = c.cerboLeaves := by rw [hc.frame]
  have hwater : c'.waterModeObserved = c.waterModeObserved := by rw [hc.frame]
  have hportal : c'.portalID = c.portalID := by rw [hc.frame]
  have hinst : ∀ d, c'.waterInstance d = c.waterInstance d := by
    intro d
    rw [hc.frame]
    cases d <;> rfl
  have hlive : c'.controllerLiveAt = if retained then none else some now := by rw [hc.frame]
  refine ⟨?_, ?_, ?_, ?_, ?_, ?_, ?_, ?_⟩
  · intro key hk
    rcases hc.flags key hk with hk | hk
    · exact h.flags key hk
    · exact hk
  · intro l hl
    rw [hportal]
    exact h.leaves l (hleaves ▸ hl)
  · intro hinv
    rw [hc.inverter] at hinv
    refine ⟨_, data, latest_cons_some hframe, ?_, hlive⟩
    rintro rfl
    cases hinv
  · intro x hx
    rw [hc.overrideObserved] at hx
    refine override_of_carried hx hstatus fun x hx => h.override x ?_
    split_ifs at hx
    exact hx
  · intro x hx
    rw [hc.tariffObserved] at hx
    cases he : entry data "ui_config" with
    | some v =>
      rw [he, Option.isSome_some, if_pos rfl] at hx
      obtain ⟨hr, rfl⟩ := eq_of_receiptTime hx
      exact ⟨_, v, latest_cons_some (hui.trans he), hr, rfl⟩
    | none =>
      rw [he] at hx
      rw [latest_cons_none (hui.trans he)]
      refine h.tariffAt x ?_
      simp only [Option.isSome_none, Bool.false_eq_true, if_false] at hx
      split_ifs at hx
      exact hx
  · intro rev hrev
    rw [writableRevision_congr (hc.uiConfig h.uiConfig_unflagged _ (by decide))] at hrev
    unfold decodedEntry at hrev
    cases he : entry data "ui_config" with
    | some v =>
      have he' : entry data (Field.jsonName .uiConfig) = some v := he
      rw [he'] at hrev
      exact ⟨_, v, latest_cons_some (hui.trans he), hrev⟩
    | none =>
      have he' : entry data (Field.jsonName .uiConfig) = none := he
      rw [he'] at hrev
      cases hrev
  · exact fun d hd => hc.water d (fun hav => (h.waterKnown d hav).1) hd
  · intro d t ht hl
    rw [latest_cons_none rfl, hportal, hinst]
    rw [Client.modeLeaf, hinst] at hl
    exact h.waterAt d t (hwater ▸ ht) (hleaves ▸ hl)

/-- An override message keeps the permissions, with the message in the log. -/
theorem Permissions.of_override {c c' : Client} {log : List Receipt} {payload : Payload}
    {data : Frame} {retained : Bool} {now : Time} (h : Permissions c log)
    (hdata : Client.controllerFrame true payload = some data)
    (hkeys : entry data "ui_config" = none)
    (hc : c.CommandsObserved data retained now c') :
    Permissions c' (⟨now, retained, .override payload⟩ :: log) := by
  have hstatus : (Receipt.mk now retained (.override payload)).overrideStatus =
      Client.carriedStatus data := by
    simp [Receipt.overrideStatus, hdata]
  have hflags : ∀ key, c'.state.available key = c.state.available key := by
    intro key
    rw [State.available, hc.field _ (by decide)]
    rfl
  have hleaves : c'.cerboLeaves = c.cerboLeaves := by rw [hc.frame]
  have hwater : c'.waterModeObserved = c.waterModeObserved := by rw [hc.frame]
  have hportal : c'.portalID = c.portalID := by rw [hc.frame]
  have howned : c'.cerboOwned = c.cerboOwned := by rw [hc.frame]
  have hover : c'.overlay = c.overlay := by rw [hc.frame]; rfl
  have hinst : ∀ d, c'.waterInstance d = c.waterInstance d := by
    intro d
    rw [hc.frame]
    cases d <;> rfl
  have hlive : c'.controllerLiveAt = c.controllerLiveAt := by rw [hc.frame]
  refine ⟨?_, ?_, ?_, ?_, ?_, ?_, ?_, ?_⟩
  · exact fun key hk => h.flags key (hflags key ▸ hk)
  · intro l hl
    rw [hportal]
    exact h.leaves l (hleaves ▸ hl)
  · rw [latest_cons_none rfl, hc.field _ (by decide), hlive]
    exact h.live
  · intro x hx
    rw [hc.overrideObserved] at hx
    exact override_of_carried hx hstatus h.override
  · intro x hx
    rw [hc.tariffObserved, hkeys] at hx
    rw [latest_cons_none rfl]
    exact h.tariffAt x hx
  · rw [latest_cons_none rfl, hc.field _ (by decide)]
    exact h.tariff
  · intro d hd
    rw [howned, hover]
    exact h.waterKnown d (hflags _ ▸ hd)
  · intro d t ht hl
    rw [latest_cons_none rfl, hportal, hinst]
    rw [Client.modeLeaf, hinst] at hl
    exact h.waterAt d t (hwater ▸ ht) (hleaves ▸ hl)

/-- An override message decodes to the one entry it is wrapped in. -/
theorem entry_controllerFrame_override {payload : Payload} {data : Frame}
    (h : Client.controllerFrame true payload = some data) {key : String}
    (hkey : key ≠ "setpoint_override") : entry data key = none := by
  have hwrap : ∀ j, decodeControllerState (.json (.obj [("setpoint_override", j)])) = some data →
      entry data key = none := by
    intro j hj
    simp only [decodeControllerState, Json.toAnyFields, Option.bind_eq_bind, Option.pure_def,
      Option.bind_eq_some_iff, Option.some.injEq] at hj
    obtain ⟨values, ⟨v, -, vs, rfl, rfl⟩, rfl⟩ := hj
    simp [lastWins, entry, hkey]
  cases payload with
  | empty => exact hwrap _ h
  | invalid => cases h
  | json j => exact hwrap _ h

/-! ## Runs -/

/-- A message of the current session keeps the permissions. -/
theorem Permissions.of_deliver {c c' : Client} {log : List Receipt} {r : NativeScalars}
    {retained : Bool} {m : Message} {now : Time} (h : Permissions c log)
    (hlan : c.gatewayMode = false)
    (hexact : (LanEvent.deliver c.mqttSession retained m).Exact)
    (hc' : c.deliver r c.mqttSession retained m now = some c') :
    Permissions c' (⟨now, retained, m⟩ :: log) := by
  have hcur : c.sourceCurrent c.pushGeneration c.mqttSession = true := by
    simp [Client.sourceCurrent, hlan]
  cases m with
  | native parts payload =>
    simp only [Client.deliver, if_true] at hc'
    exact h.of_native hlan rfl hc'
  | state payload =>
    simp only [Client.deliver, if_true, Client.applyControllerMessage] at hc'
    have hsame : Client.controllerFrame false payload = decodeControllerState payload := rfl
    rw [hsame] at hc'
    cases hd : decodeControllerState payload with
    | none =>
      rw [hd] at hc'
      obtain rfl := Option.some.inj hc'
      refine h.cons hd ?_ fun _ _ => rfl
      simp [Receipt.overrideStatus, hd]
    | some data =>
      rw [hd] at hc'
      dsimp only at hc'
      rw [if_pos hcur] at hc'
      obtain ⟨c₁, hc₁, rfl⟩ := Option.map_eq_some_iff.mp hc'
      have hcom := h.of_stateCommitted hd (c.stateCommitted_of_eq_some (hexact data hd) hc₁)
      exact hcom.of_bookkeeping true now
  | override payload =>
    simp only [Client.deliver, if_true, Client.applyControllerMessage] at hc'
    cases hd : Client.controllerFrame true payload with
    | none =>
      rw [hd] at hc'
      obtain rfl := Option.some.inj hc'
      refine h.cons rfl ?_ fun _ _ => rfl
      simp [Receipt.overrideStatus, hd]
    | some data =>
      rw [hd] at hc'
      dsimp only at hc'
      rw [if_pos hcur] at hc'
      obtain ⟨c₁, hc₁, rfl⟩ := Option.map_eq_some_iff.mp hc'
      obtain rfl := Option.some.inj hc₁
      have hcom := h.of_override hd (entry_controllerFrame_override hd (by decide))
        (c.observeControllerCommands_spec data retained now)
      exact hcom.of_bookkeeping true now
  | notification payload =>
    simp only [Client.deliver, if_true] at hc'
    obtain rfl := Option.some.inj hc'
    have hb := c.applyNotificationMessage_frame payload c.pushGeneration c.mqttSession
    exact (h.cons rfl rfl fun _ _ => rfl).of_sameView hb.sameView hb.portalID
  | portal p =>
    obtain rfl := Option.some.inj hc'
    have h₁ : Permissions c (⟨now, retained, .portal p⟩ :: log) := h.cons rfl rfl fun _ _ => rfl
    unfold Client.applyPortalMessage Client.acceptPortal
    split_ifs with hp
    · exact h₁
    · exact h₁
    · exact h₁.of_portal (by simpa using hp) _
  | camera p =>
    obtain rfl := Option.some.inj hc'
    exact (h.cons rfl rfl fun _ _ => rfl).of_sameView (c.onCameraMessage_sameView p) rfl

/-- `Subscribe` reduces an empty cache and gives no permission. -/
theorem Permissions.of_subscribed {c c₁ c₂ c' : Client} {log : List Receipt}
    (h : Permissions c log) (hv : Client.SameView { c with cerboLeaves := ∅ } c₁)
    (hov : c₁.Overlaid c₂) (hv' : c₂.SameView c') : Permissions c' log := by
  have hleaves : c₂.cerboLeaves = ∅ := by
    rw [hov.frame]
    exact hv.leaves
  have hf : ∀ f ∈ Client.permissionFields, f ∉ directFields → f ≠ .telemetryAvailable →
      c₂.state.field f = c.state.field f := by
    intro f hf hdir htel
    rw [hov.field_of_not_direct hdir htel, hv.field f hf]
  have hlive : c₂.controllerLiveAt = c.controllerLiveAt := by
    rw [hov.frame]
    exact hv.live
  have hnone : ∀ l, ¬ (c₂.cerboLeaves.lookup l).isSome := by
    intro l hl
    rw [hleaves, AList.lookup_empty] at hl
    cases hl
  have hsame : Client.SameView { c₂ with portalID := c'.portalID } c' :=
    ⟨hv'.field, hv'.flags, hv'.native, hv'.owned, hv'.leaves, hv'.options, hv'.water, hv'.live,
      hv'.essMode, hv'.essObserved⟩
  suffices h₂ : Permissions c₂ log from (h₂.of_empty hnone c'.portalID).of_sameView hsame rfl
  refine ⟨?_, fun l hl => absurd hl (hnone l), ?_, ?_, ?_, ?_,
    ?_, fun d t _ hl => absurd hl (hnone _)⟩
  · intro key hk
    rcases hov.flags hk with hk | hk
    · exact h.flags key (hv.flags key ▸ hk)
    · exact hk
  · rw [hf _ (by decide) (by decide) (by decide), hlive]
    exact h.live
  · rw [hf _ (by decide) (by decide) (by decide)]
    exact h.override
  · rw [hf _ (by decide) (by decide) (by decide)]
    exact h.tariffAt
  · rw [hf _ (by decide) (by decide) (by decide)]
    exact h.tariff
  · intro d hd
    refine hov.output_of_available (fun hav => ?_) hd
    rw [hv.owned]
    exact (h.waterKnown d (hv.flags _ ▸ hav)).1

/-- **Step.** Every event keeps the permissions. -/
theorem permissions_step {r : NativeScalars} {s s' : Lan} {e : LanEvent}
    (hsess : s.Sessions) (h : Permissions s.client s.log) (he : e.Exact)
    (hs : s.step r e = some s') : Permissions s'.client s'.log := by
  cases step_cases hs with
  | delivered _ hc' => exact h.of_deliver hsess.lan he hc'
  | stale hv _ hp => exact h.of_sameView hv hp
  | ticked => exact h
  | expired _ hp hcases =>
    rcases hcases with hv | ⟨hw, hwater, hleaves, -⟩
    · exact h.of_sameView hv hp
    · exact h.of_withdrawn hw hp fun _ => Or.inl ⟨hwater, rfl⟩
  | opened =>
    exact h.of_sameView ⟨fun _ _ => rfl, fun _ => rfl, rfl, rfl, rfl, rfl, rfl, rfl, rfl, rfl⟩ rfl
  | lost hw hp hleaves =>
    exact h.of_withdrawn hw hp fun _ => Or.inr hleaves
  | refused _ hv hp => exact h.of_sameView hv hp
  | subscribed hsub hv hov hv' =>
    have hlog : s.log = [] := (hsess.current hsub).2
    exact hlog ▸ h.of_subscribed hv hov hv'

/-- **Run.** The permissions of every reachable state. -/
theorem permissions_of_reachable {r : NativeScalars} {s : Lan}
    (h : Transition.Reachable (Lan.step r) (fun _ e => e.Exact) Lan.Init s) :
    s.Sessions ∧ Permissions s.client s.log := by
  refine h.invariant (I := fun s => s.Sessions ∧ Permissions s.client s.log) ?_ ?_
  · exact fun s hs => ⟨sessions_of_init hs, permissions_of_init hs⟩
  · exact fun s e s' hi he hs => ⟨sessions_step hi.1 hs, permissions_step hi.1 hi.2 he hs⟩

/-! ## Readiness -/

/-- A message that was not retained and came in the last 30 seconds. -/
def Recent (m : Receipt) (now : Time) : Prop :=
  m.retained = false ∧ m.time ≤ now ∧ now ≤ m.time + 30000

/-- The controller is ready for generic actions only after a live frame. -/
theorem recent_of_controllerControlReady {c : Client} {log : List Receipt} {now : Time}
    (h : Permissions c log) (hready : c.controllerControlReady now = true) :
    ∃ m data, latest Receipt.stateFrame log = some (m, data) ∧ data ≠ [] ∧ Recent m now := by
  simp only [Client.controllerControlReady, Bool.and_eq_true, beq_iff_eq, Option.any_eq_true,
    decide_eq_true_eq] at hready
  obtain ⟨hinv, at_, hat, hlo, hhi⟩ := hready
  obtain ⟨m, data, hlatest, hdata, hlive⟩ := h.live hinv
  rw [hat] at hlive
  split_ifs at hlive with hret
  obtain rfl := Option.some.inj hlive
  exact ⟨m, data, hlatest, hdata, by simpa using hret, sub_nonneg.mp hlo,
    sub_le_iff_le_add'.mp hhi⟩

/-- A fresh observation of a receipt is that of a recent message. -/
theorem recent_of_observationFresh {m : Receipt} {now : Time} {observed : Option F64} {x : F64}
    (hfresh : observationFresh observed now = true) (hobs : observed = some x)
    (hlive : m.retained = false) (hx : x = receiptSeconds m.time) : Recent m now := by
  rw [hobs, hx] at hfresh
  exact ⟨hlive, observationFresh_receipt hfresh⟩

/-- A fresh observation is there. -/
theorem exists_of_observationFresh {observed : Option F64} {now : Time}
    (h : observationFresh observed now = true) : ∃ x, observed = some x := by
  cases observed with
  | none => cases h
  | some x => exact ⟨x, rfl⟩

/-- The override is ready only after a live message that carries a status. -/
theorem recent_of_overrideReady {c : Client} {log : List Receipt} {payload : Any} {now : Time}
    (h : Permissions c log)
    (hready : controllerCommandReady c.state .setpointOverride payload now = true) :
    ∃ m status, latest Receipt.overrideStatus log = some (m, some status) ∧ Recent m now := by
  simp only [controllerCommandReady, Bool.and_eq_true] at hready
  obtain ⟨-, -, hfresh⟩ := hready
  obtain ⟨x, hx⟩ := exists_of_observationFresh hfresh
  obtain ⟨m, status, hlatest, hlive, heq⟩ := h.override x hx
  exact ⟨m, status, hlatest, recent_of_observationFresh hfresh hx hlive heq⟩

/-- The tariff is ready only after a live frame whose `ui_config` has a writable revision. -/
theorem recent_of_tariffReady {c : Client} {log : List Receipt} {payload : Any} {now : Time}
    (h : Permissions c log)
    (hready : controllerCommandReady c.state .electricityTariff payload now = true) :
    ∃ m v rev, latest Receipt.uiConfig log = some (m, v) ∧
      writableRevision (decodeUIConfig v) = some rev ∧ Recent m now := by
  simp only [controllerCommandReady, Bool.and_eq_true, Option.any_eq_true] at hready
  obtain ⟨-, ⟨rev, hrev, -⟩, hfresh⟩ := hready
  obtain ⟨x, hx⟩ := exists_of_observationFresh hfresh
  obtain ⟨m, v, hlatest, hlive, heq⟩ := h.tariffAt x hx
  obtain ⟨m', v', hlatest', hrev'⟩ := h.tariff rev hrev
  obtain ⟨rfl, rfl⟩ := Prod.mk.inj (Option.some.inj (hlatest.symm.trans hlatest'))
  exact ⟨m, v, rev, hlatest, hrev', recent_of_observationFresh hfresh hx hlive heq⟩

/-- A water device is ready only after a live message of its `Mode` leaf with a valid mode. -/
theorem recent_of_waterControlReady {c : Client} {log : List Receipt} {d : WaterDevice}
    {now : Time} (h : Permissions c log) (hready : c.waterControlReady d now = true) :
    ∃ m payload v, latest (fun m => m.modePayload c.portalID (c.waterInstance d)) log =
        some (m, payload) ∧ parseCerboPayload payload = some v ∧ Client.validMode v = true ∧
      Recent m now := by
  simp only [Client.waterControlReady, Bool.and_eq_true, Option.any_eq_true,
    decide_eq_true_eq] at hready
  obtain ⟨hav, t, ht, hlo, hhi⟩ := hready
  obtain ⟨v, hv, -⟩ := c.waterMode_known d (h.waterKnown d hav).2
  obtain ⟨m, payload, v', hlatest, hlive, rfl, hparse, hvalid⟩ :=
    h.waterAt d t ht (by rw [hv]; rfl)
  exact ⟨m, payload, v', hlatest, hparse, hvalid, hlive, sub_nonneg.mp hlo,
    sub_le_iff_le_add'.mp hhi⟩

/-- Whenever a readiness test of a physical dispatch is true on LAN, the latest message of the
session that carried its datum was live, valid and at most 30 seconds old. Payloads that do not
decode carry no controller datum; every message of a selected `Mode` leaf counts. -/
theorem ready_of_latest (r : NativeScalars) {s : Lan}
    (h : Transition.Reachable (Lan.step r) (fun _ e => e.Exact) Lan.Init s) :
    (s.client.controllerControlReady s.now = true → ∃ m data,
        latest Receipt.stateFrame s.log = some (m, data) ∧ data ≠ [] ∧ Recent m s.now) ∧
      (∀ payload, controllerCommandReady s.client.state .setpointOverride payload s.now = true →
        ∃ m status, latest Receipt.overrideStatus s.log = some (m, some status) ∧
          Recent m s.now) ∧
      (∀ payload, controllerCommandReady s.client.state .electricityTariff payload s.now = true →
        ∃ m v rev, latest Receipt.uiConfig s.log = some (m, v) ∧
          writableRevision (decodeUIConfig v) = some rev ∧ Recent m s.now) ∧
      ∀ d, s.client.waterControlReady d s.now = true → ∃ m payload v,
        latest (fun m => m.modePayload s.client.portalID (s.client.waterInstance d)) s.log =
            some (m, payload) ∧ parseCerboPayload payload = some v ∧
          Client.validMode v = true ∧ Recent m s.now := by
  obtain ⟨-, hp⟩ := permissions_of_reachable h
  exact ⟨fun h => recent_of_controllerControlReady hp h, fun _ h => recent_of_overrideReady hp h,
    fun _ h => recent_of_tariffReady hp h, fun _ h => recent_of_waterControlReady hp h⟩

/-- A subscription, a mode of the pump and a frame that carries an override and a tariff. -/
def permittedRun : List LanEvent :=
  [.opened, .subscribe ⟨true, true⟩,
    .deliver 1 false (.native ["N", "c0", "pump", "0", "Mode"]
      (.json (.obj [("value", .num (.ofInt 1))]))),
    .deliver 1 false (.state (.json (.obj
      [("setpoint_override", .obj [("value", .null), ("last_error", .null), ("request_id", .null)]),
        ("ui_config", .obj [("electricity_tariff_status", .obj [("writable", .bool true),
          ("revision", .str
            "0123456789abcdef0123456789abcdef0123456789abcdef0123456789abcdef")])])]))),
    .tick 20000]

/-- Everything is permitted after it. -/
def allReady (s : Lan) : Bool :=
  s.client.controllerControlReady s.now &&
    controllerCommandReady s.client.state .setpointOverride .nil s.now &&
    controllerCommandReady s.client.state .electricityTariff .nil s.now &&
    s.client.waterControlReady .pump s.now

theorem ready_of_latest_permittedRun : ∃ s,
    Transition.Reachable (Lan.step noScalars) (fun _ e => e.Exact) Lan.Init s ∧
      allReady s = true ∧
      (∃ m data, latest Receipt.stateFrame s.log = some (m, data) ∧ data ≠ [] ∧ Recent m s.now) ∧
      (∃ m status, latest Receipt.overrideStatus s.log = some (m, some status) ∧
        Recent m s.now) ∧
      (∃ m v rev, latest Receipt.uiConfig s.log = some (m, v) ∧
        writableRevision (decodeUIConfig v) = some rev ∧ Recent m s.now) ∧
      ∃ m payload v,
        latest (fun m => m.modePayload s.client.portalID (s.client.waterInstance .pump)) s.log =
            some (m, payload) ∧ parseCerboPayload payload = some v ∧
          Client.validMode v = true ∧ Recent m s.now := by
  have hexact : ∀ e ∈ permittedRun, e.Exact := by decide
  obtain ⟨s, hs, hready⟩ := Transition.Reachable.exists_of_run (Lan.step noScalars) _ permittedRun
    allReady init_configured (Transition.Allowed.of_forall hexact configured) (by decide +kernel)
  obtain ⟨h₁, h₂, h₃, h₄⟩ := ready_of_latest noScalars hs
  simp only [allReady, Bool.and_eq_true] at hready
  obtain ⟨⟨⟨hg, ho⟩, ht⟩, hw⟩ := id hready
  exact ⟨s, hs, by simp [allReady, hready], h₁ hg, h₂ _ ho, h₃ _ ht, h₄ _ hw⟩

/-- A frame whose bytes are no JSON text does not withdraw the permission of the frame before. -/
theorem ready_after_malformed_frame : ∃ s,
    Transition.Reachable (Lan.step noScalars) (fun _ e => e.Exact) Lan.Init s ∧
      s.client.controllerControlReady s.now = true ∧
      ¬ ∃ m payload data, latest Receipt.statePayload s.log = some (m, payload) ∧
        decodeControllerState payload = some data ∧ Recent m s.now := by
  have hexact : ∀ e ∈ permittedRun ++ [.deliver 1 false (.state .invalid)], e.Exact := by
    decide
  obtain ⟨s, hs, hp⟩ := Transition.Reachable.exists_of_run (Lan.step noScalars) _ _
    (fun s => s.client.controllerControlReady s.now &&
      (latest Receipt.statePayload s.log).any fun e => (decodeControllerState e.2).isNone)
    init_configured (Transition.Allowed.of_forall hexact configured) (by decide +kernel)
  obtain ⟨hready, hlast⟩ := Bool.and_eq_true_iff.mp hp
  refine ⟨s, hs, hready, ?_⟩
  rintro ⟨m, payload, data, hlatest, hdata, -⟩
  rw [hlatest] at hlast
  simp [hdata] at hlast

end Lan

end Dashboard
