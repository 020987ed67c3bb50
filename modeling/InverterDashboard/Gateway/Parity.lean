import InverterDashboard.Gateway.Slots

set_option relaxedAutoImplicit false
set_option autoImplicit false

/-!
# Notification parity between LAN and gateway

The native banners of a client on LAN that was sent some leaves, and those that `mapNotifications`
makes of a snapshot with the same leaves.

## Main definitions

* `Dashboard.Client.FreshSession` — a client on LAN without native notifications.
* `Dashboard.Client.deliverLeaves` — notification leaves, delivered one by one.
* `Dashboard.Client.Hears` — no acknowledgement comes before the portal is known.
* `Dashboard.Client.Unheard` — a client on LAN that has not heard of an alarm topic.
* `Dashboard.Gateway.Carries`, `Dashboard.Gateway.Holds` — the leaves in a snapshot.

## Main results

* `Dashboard.Client.deliverLeaves_spec` — what the slots show after a run of leaves.
* `Dashboard.Client.deliver_alarm` — the first message on the topic of an alarm.
* `Dashboard.Gateway.mem_mapNotifications_iff`, `mem_mapNotifications_of_holds` — what the gateway
  shows of the leaves.
* `Dashboard.Gateway.parity` — the transports agree on slots, on raw alarms and on names.
-/

namespace Dashboard

open Go Recent KeyedRing

/-- The banners of stored slots. -/
def slotBanners (slots : AList fun _ : ℕ × ℕ => PlatformSlot) : List Notification :=
  (slots.entries.map fun e => e.2).filterMap PlatformSlot.toNotification

/-- A banner is shown exactly if its slot shows it. -/
theorem mem_slotBanners_iff {slots : AList fun _ : ℕ × ℕ => PlatformSlot} {n : Notification} :
    n ∈ slotBanners slots ↔ ∃ k, (viewOf slots k).toNotification = some n := by
  unfold slotBanners
  rw [List.mem_filterMap]
  constructor
  · rintro ⟨ps, hps, hn⟩
    obtain ⟨e, he, rfl⟩ := List.mem_map.mp hps
    refine ⟨e.1, ?_⟩
    have hl : slots.lookup e.1 = some e.2 := AList.mem_lookup_iff.mpr he
    unfold viewOf
    rw [hl, Option.getD_some, PlatformSlot.toNotification_shown, hn]
  · rintro ⟨k, hn⟩
    unfold viewOf at hn
    rw [PlatformSlot.toNotification_shown] at hn
    cases hl : slots.lookup k with
    | none =>
      rw [hl] at hn
      cases hn
    | some ps =>
      rw [hl, Option.getD_some] at hn
      exact ⟨ps, List.mem_map.mpr ⟨⟨k, ps⟩, AList.mem_lookup_iff.mp hl, rfl⟩, hn⟩

namespace Client

/-! ## Leaves on LAN -/

/-- A client on LAN without native banners and with empty notification caches, as every session
starts. -/
structure FreshSession (c : Client) : Prop where
  lan : c.gatewayMode = false
  slots : c.platformSlots = ∅
  seen : c.platformNotifsSeen = false
  alarms : c.alarmValues = ∅
  banners : ∀ n ∈ c.banners.elems, hasPrefix n.id "victron-" = false

/-- Notification leaves of a portal, delivered one by one with their retained flags and times. -/
def deliverLeaves (r : NativeScalars) (portal : String) :
    List (PlatformLeaf × Bool × Time) → Client → Option Client
  | [], c => some c
  | (l, retained, now) :: ls, c =>
    (c.deliver r c.mqttSession retained (l.message portal) now).bind
      (deliverLeaves r portal ls)

/-- The portal is known, or no acknowledgement `true` comes before a leaf that discovers it. -/
def Hears (c : Client) (portal : String) (ls : List PlatformLeaf) : Prop :=
  c.portalID = portal ∨ c.portalID = "" ∧
    ∀ l ∈ ls.takeWhile fun l => !Gateway.discovers l.value,
      ¬ (l.field = .acknowledged ∧ l.value = .bool true)

/-- The native banners are those of the slots, as long as they are within the bound. -/
def Rebuilt (c : Client) : Prop :=
  ∃ others tail, c.banners.elems = others ++ tail ∧
    (∀ n ∈ others, hasPrefix n.id "victron-" = false) ∧
    ((slotBanners c.platformSlots).length ≤ maxNotifications → tail = slotBanners c.platformSlots)

/-- A commit rebuilds the native banners. -/
theorem rebuilt_commitPlatform (c : Client) (r : NativeScalars) (u : PlatformUpdate) :
    (c.commitPlatform r u).Rebuilt := by
  have hbanners : (c.commitPlatform r u).banners.elems = last maxNotifications
      ((c.banners.elems.filter fun e => !hasPrefix e.id "victron-") ++
        slotBanners (c.commitPlatform r u).platformSlots) := by
    show (State.field (State.set _ Field.notifications _) .notifications).elems = _
    rw [State.set_field_self, elems_capNotifications]
    rfl
  rw [Rebuilt, hbanners]
  generalize slotBanners (c.commitPlatform r u).platformSlots = slots
  have hothers : ∀ n ∈ c.banners.elems.filter fun e => !hasPrefix e.id "victron-",
      hasPrefix n.id "victron-" = false := by
    intro n hn
    simpa using (List.mem_filter.mp hn).2
  by_cases hlen : slots.length ≤ maxNotifications
  · refine ⟨(c.banners.elems.filter fun e => !hasPrefix e.id "victron-").drop
      ((c.banners.elems.filter fun e => !hasPrefix e.id "victron-").length + slots.length -
        maxNotifications), slots, ?_, fun n hn => hothers n (List.mem_of_mem_drop hn),
        fun _ => rfl⟩
    unfold last
    rw [List.length_append, List.drop_append]
    congr 1
    have hzero : (c.banners.elems.filter fun e => !hasPrefix e.id "victron-").length +
        slots.length - maxNotifications -
        (c.banners.elems.filter fun e => !hasPrefix e.id "victron-").length = 0 := by omega
    rw [hzero, List.drop_zero]
  · refine ⟨[], _, (List.nil_append _).symm, ?_, fun h => absurd h hlen⟩
    intro n hn
    cases hn

theorem FreshSession.rebuilt {c : Client} (h : c.FreshSession) : c.Rebuilt := by
  refine ⟨c.banners.elems, [], (List.append_nil _).symm, h.banners, fun _ => ?_⟩
  rw [h.slots]
  rfl

/-- The payload of a leaf has the value of the leaf. -/
theorem parseCerboPayload_leaf (v : Json) :
    parseCerboPayload (.json (.obj [("value", v)])) = v.toAny := by
  simp only [parseCerboPayload, Json.toAnyFields]
  cases v.toAny <;> rfl

/-- A client that follows the leaves of a portal, and what its slots show. -/
structure Tracks (portal : String) (c : Client) (S : SlotView) : Prop where
  lan : c.gatewayMode = false
  portal : c.portalID = portal ∨ c.portalID = ""
  view : viewOf c.platformSlots = S
  keyed : KeyedSlots c.platformSlots
  rebuilt : c.Rebuilt

/-- The payload check of a value: an unknown portal is discovered by a real value only. -/
theorem validate_value (c : Client) {parts : List String} (h : parts.getD 2 "" ≠ "pump")
    (v : Json) :
    c.validateCerboMessagePayload parts (.json (.obj [("value", v)])) =
      if c.portalID = "" then Gateway.discovers v else v.toAny.isSome := by
  have hpump : (parts.getD 2 "" == "pump") = false := beq_eq_false_iff_ne.mpr h
  unfold validateCerboMessagePayload Gateway.discovers
  rw [parseCerboPayload_leaf]
  simp only [hpump, Bool.and_false, Bool.false_and, Bool.not_false, Bool.and_true]
  by_cases hknown : c.portalID = ""
  · cases v.toAny with
    | none => simp [hknown]
    | some w => cases w <;> simp [hknown]
  · cases v.toAny with
    | none => simp [hknown]
    | some w => simp [hknown]

/-- A value of the portal that is turned away discovers nothing, and a known portal turns away
only what does not decode. -/
theorem discovers_of_not_admitsNative {c : Client} {portal : String} {rest : List String} {v : Json}
    (hlan : c.gatewayMode = false) (hportal : validPortal portal = true)
    (hpid : c.portalID = portal ∨ c.portalID = "") (hrest : rest ≠ [])
    (hpump : rest.getD 0 "" ≠ "pump")
    (h : c.admitsNative c.mqttSession ("N" :: portal :: rest) (.json (.obj [("value", v)])) =
    false) :
    Gateway.discovers v = false ∧ (c.portalID ≠ "" → v.toAny = none) := by
  have hvalid : c.validateCerboMessagePayload ("N" :: portal :: rest)
      (.json (.obj [("value", v)])) = false := by
    by_contra hv
    rw [Bool.not_eq_false] at hv
    have hsame : (c.portalID == "" || c.portalID == portal) = true := by
      rcases hpid with hp | hp <;> simp [hp]
    have hlen : 3 ≤ ("N" :: portal :: rest).length := by
      have := List.length_pos_iff.mpr hrest
      rw [List.length_cons, List.length_cons]
      omega
    rw [admitsNative, hv] at h
    simp only [List.getD_cons_succ, List.getD_cons_zero, hportal, hsame, hlan, hlen,
      beq_self_eq_true,
      decide_true, Bool.not_false, Bool.and_self] at h
    cases h
  rw [validate_value c hpump] at hvalid
  split_ifs at hvalid with hknown
  · exact ⟨hvalid, fun hne => absurd hknown hne⟩
  · rw [Option.isSome_eq_false_iff, Option.isNone_iff_eq_none] at hvalid
    refine ⟨?_, fun _ => hvalid⟩
    unfold Gateway.discovers
    rw [hvalid]

/-- A leaf decodes to its update. -/
theorem decode_leaf {r : NativeScalars} {portal : String} (hportal : validPortal portal = true)
    {l : PlatformLeaf} (hl : l.Valid r) :
    decodePlatformNotification r ("N" :: portal :: "platform" :: l.key)
      (.json (.obj [("value", l.value)])) = some l.update := by
  have hvalue : payloadValue (.json (.obj [("value", l.value)])) = some l.value.useNumber := by
    simp [payloadValue, entry]
  simp only [decodePlatformNotification, parsePlatformNotificationKey_key hl, hvalue, hportal,
    hl.value, bind, Option.bind, Bool.and_self, if_true]
  rfl

/-- A leaf is committed as the update it brings. -/
theorem commitNative_leaf (c : Client) {r : NativeScalars} {portal : String}
    (hportal : validPortal portal = true) {l : PlatformLeaf} (hl : l.Valid r) (retained : Bool)
    (now : Time) :
    c.commitNative r ("N" :: portal :: "platform" :: l.key) (.json (.obj [("value", l.value)]))
      retained now = some (c.commitPlatform r l.update) := by
  have hlen : ¬ ("N" :: portal :: "platform" :: l.key).length = 3 := by
    simp [PlatformLeaf.key]
  have hroute : ("N" :: portal :: "platform" :: l.key).getD 2 "" = "platform" ∧
      hasInnerLevel ("N" :: portal :: "platform" :: l.key) "Notifications" = true := by
    refine ⟨rfl, ?_⟩
    simp [hasInnerLevel, PlatformLeaf.key]
  rw [commitNative, if_neg hlen, if_pos hroute, decode_leaf hportal hl]

/-- **One leaf.** A leaf that is heard is read into its slot, and another one changes nothing. -/
theorem deliver_leaf (t : NativeTexts) {portal : String} {c : Client} {S : SlotView}
    (h : Tracks portal c S) (hportal : validPortal portal = true) {l : PlatformLeaf}
    (hl : l.Valid t.scalars) (hun : Untouched S l.place)
    (hack : c.portalID = "" → Gateway.discovers l.value = false →
      ¬ (l.field = .acknowledged ∧ l.value = .bool true)) (retained : Bool) (now : Time) :
    ∃ c', c.deliver t.scalars c.mqttSession retained (l.message portal) now = some c' ∧
      Tracks portal c' (Gateway.readView t.scalars S l.update) ∧
      (c.portalID = portal ∨ Gateway.discovers l.value = true → c'.portalID = portal) := by
  obtain ⟨hlan, hpid, rfl, hkeyed, hrebuilt⟩ := h
  simp only [PlatformLeaf.message, deliver, if_true, applyCerboMessage_eq]
  cases hadm : c.admitsNative c.mqttSession ("N" :: portal :: "platform" :: l.key)
      (.json (.obj [("value", l.value)])) with
  | true =>
    refine ⟨_, by rw [if_pos rfl]; exact commitNative_leaf _ hportal hl retained now, ?_,
      fun _ => rfl⟩
    refine ⟨hlan, Or.inl rfl, ?_, keyedSlots_update hkeyed t.scalars l.update,
      rebuilt_commitPlatform _ _ _⟩
    exact Gateway.viewOf_updatePlatformSlots t ({ c with portalID := portal } : Client) hl.value hun
  | false =>
    obtain ⟨hdisc, hknown⟩ := discovers_of_not_admitsNative hlan hportal hpid (List.cons_ne_nil _ _)
      (show "platform" ≠ "pump" by decide) hadm
    have hack' : ¬ (l.field = .acknowledged ∧ l.value = .bool true) := by
      by_cases hempty : c.portalID = ""
      · exact hack hempty hdisc
      · rintro ⟨-, hv⟩
        have hnone := hknown hempty
        rw [hv] at hnone
        cases hnone
    refine ⟨c, if_neg Bool.false_ne_true, ?_, fun hor => ?_⟩
    · rw [Gateway.readView_of_not_discovers t hl.value (fun _ => rfl) hun hdisc hack']
      exact ⟨hlan, hpid, rfl, hkeyed, hrebuilt⟩
    · rcases hor with hp | hd
      · exact hp
      · rw [hdisc] at hd
        cases hd

/-- **A run of leaves.** Leaves at distinct places are read into what the slots show, in the order
in which they arrive.

**Proof sketch.** By induction on the leaves: the places behind a leaf stay untouched, and a leaf
that discovers the portal is heard together with all leaves behind it. -/
theorem deliverLeaves_spec (t : NativeTexts) {portal : String} (hportal : validPortal portal = true)
    {ls : List (PlatformLeaf × Bool × Time)} {c : Client} {S : SlotView} (h : Tracks portal c S)
    (hvalid : ∀ l ∈ ls.map Prod.fst, l.Valid t.scalars)
    (hnodup : ((ls.map Prod.fst).map PlatformLeaf.place).Nodup)
    (hun : ∀ l ∈ ls.map Prod.fst, Untouched S l.place) (hears : c.Hears portal (ls.map Prod.fst)) :
    ∃ c', deliverLeaves t.scalars portal ls c = some c' ∧
      Tracks portal c' (((ls.map Prod.fst).map PlatformLeaf.update).foldl
        (Gateway.readView t.scalars) S) := by
  induction ls generalizing c S with
  | nil => exact ⟨c, rfl, h⟩
  | cons e ls ih =>
    obtain ⟨l, retained, now⟩ := e
    rw [List.map_cons] at hvalid hun hears hnodup
    rw [List.map_cons, List.nodup_cons] at hnodup
    have hack : c.portalID = "" → Gateway.discovers l.value = false →
        ¬ (l.field = .acknowledged ∧ l.value = .bool true) := by
      intro hempty hdisc
      rcases hears with hp | ⟨-, hall⟩
      · rw [← hp, hempty] at hportal
        cases hportal
      · exact hall l (by rw [List.takeWhile_cons, hdisc]; exact List.mem_cons_self)
    obtain ⟨c', hc', htracks, hknown⟩ := deliver_leaf t h hportal (hvalid l List.mem_cons_self)
      (hun l List.mem_cons_self) hack retained now
    have hun' : ∀ l' ∈ ls.map Prod.fst,
        Untouched (Gateway.readView t.scalars S l.update) l'.place := by
      intro l' hl'
      refine Gateway.untouched_readView _ (hun l' (List.mem_cons_of_mem _ hl')) fun hplace => ?_
      exact hnodup.1 (List.mem_map.mpr ⟨l', hl', hplace⟩)
    have hears' : c'.Hears portal (ls.map Prod.fst) := by
      rcases hears with hp | ⟨hempty, hall⟩
      · exact Or.inl (hknown (Or.inl hp))
      · cases hdisc : Gateway.discovers l.value with
        | true => exact Or.inl (hknown (Or.inr hdisc))
        | false =>
          rcases htracks.portal with hp | hp
          · exact Or.inl hp
          · refine Or.inr ⟨hp, fun l' hl' => hall l' ?_⟩
            rw [List.takeWhile_cons, hdisc]
            exact List.mem_cons_of_mem _ hl'
    obtain ⟨c'', hc'', htracks''⟩ := ih htracks
      (fun l' hl' => hvalid l' (List.mem_cons_of_mem _ hl')) hnodup.2 hun' hears'
    refine ⟨c'', ?_, htracks''⟩
    rw [deliverLeaves, hc', Option.bind_some]
    exact hc''

end Client

/-! ## Leaves in a snapshot -/

namespace Gateway

/-- The notification leaves of a snapshot are these, in some order. -/
def Carries (raw : RawLeaves) (L : List PlatformLeaf) : Prop :=
  (raw.filter fun e => (parsePlatformNotificationKey e.1).isSome).Perm (L.map PlatformLeaf.raw)

/-- The update that a leaf of a snapshot brings. -/
def updateOf (r : NativeScalars) (e : List String × Json) : Option PlatformUpdate :=
  (decodeLeaf e.1 e.2).bind fun v => slotLeaf r (e.1, v)

theorem updateOf_raw {r : NativeScalars} {l : PlatformLeaf} (hl : l.Valid r) :
    updateOf r l.raw = some l.update := by
  have hkey := parsePlatformNotificationKey_key hl
  have hdecode : decodeLeaf l.key l.value = some l.value.useNumber := by
    cases hv : l.value with
    | null => rfl
    | _ => simp only [decodeLeaf, hkey, Option.isSome_some, Bool.true_or, if_true]
  simp only [updateOf, PlatformLeaf.raw, hdecode, Option.bind_some, slotLeaf, hkey, hl.value, bind,
    if_true]
  rfl

/-- A leaf with another key brings no update. -/
theorem updateOf_eq_none {r : NativeScalars} {e : List String × Json}
    (h : parsePlatformNotificationKey e.1 = none) : updateOf r e = none := by
  unfold updateOf slotLeaf
  cases decodeLeaf e.1 e.2 with
  | none => rfl
  | some v => simp only [Option.bind_some, h, bind, Option.bind_none]

/-- The updates of a snapshot are those of its notification leaves. -/
theorem updates_perm {r : NativeScalars} {raw : RawLeaves} {L : List PlatformLeaf}
    (h : Carries raw L) (hvalid : ∀ l ∈ L, l.Valid r) :
    ((decodeLeaves raw).filterMap (slotLeaf r)).Perm (L.map PlatformLeaf.update) := by
  have hdecode : (decodeLeaves raw).filterMap (slotLeaf r) = raw.filterMap (updateOf r) := by
    rw [decodeLeaves, List.filterMap_filterMap]
    congr 1
    funext e
    rw [updateOf, Option.bind_map]
    rfl
  have hfilter : raw.filterMap (updateOf r) =
      (raw.filter fun e => (parsePlatformNotificationKey e.1).isSome).filterMap (updateOf r) := by
    rw [List.filterMap_filter]
    congr 1
    funext e
    cases hk : parsePlatformNotificationKey e.1 with
    | none => rw [updateOf_eq_none hk]; rfl
    | some k => rfl
  have hraw : (L.map PlatformLeaf.raw).filterMap (updateOf r) = L.map PlatformLeaf.update := by
    rw [List.filterMap_map, ← List.filterMap_eq_map]
    exact List.filterMap_congr fun l hl => updateOf_raw (hvalid l hl)
  rw [hdecode, hfilter, ← hraw]
  exact h.filterMap _

/-- The gateway shows what the slots show. -/
theorem mem_mapNotifications_iff {r : NativeScalars} {lv : SnapshotLeaves} {L : List PlatformLeaf}
    (h : Carries lv.platform L) (hvalid : ∀ l ∈ L, l.Valid r)
    (hnodup : (L.map PlatformLeaf.place).Nodup) (hne : L ≠ []) {n : Notification} :
    n ∈ mapNotifications r lv ↔
      ∃ k, ((L.map PlatformLeaf.update).foldl (readView r) emptyView k).toNotification =
      some n := by
  have hperm := updates_perm h hvalid
  have hseen : (parsePlatformSlots r (decodeLeaves lv.platform)).2 = true := by
    refine decide_eq_true fun hnil => hne ?_
    rw [hnil] at hperm
    exact List.map_eq_nil_iff.mp hperm.nil_eq.symm
  have hview : viewOf (((decodeLeaves lv.platform).filterMap (slotLeaf r)).foldl (readLeaf r) ∅) =
      (L.map PlatformLeaf.update).foldl (readView r) emptyView := by
    rw [foldl_readView_perm r hperm.symm (by rw [List.map_map]; exact hnodup), ← viewOf_empty]
    exact (List.foldl_hom viewOf fun slots u => (viewOf_readLeaf r slots u).symm).symm
  rw [mapNotifications, hseen, if_pos rfl, ← hview, ← mem_slotBanners_iff, slotBanners]
  have htext : toNotification = PlatformSlot.toNotification := funext toNotification_eq
  rw [htext]
  exact ((List.perm_insertionSort slotLe _).filterMap _).mem_iff

/-! ## Alarms -/

/-- The services whose alarms the gateway shows. -/
inductive AlarmService where
  | battery | vebus

/-- The level of a topic that names a service. -/
def AlarmService.name : AlarmService → String
  | .battery => "battery"
  | .vebus => "vebus"

/-- The leaves of a service in a snapshot. -/
def SnapshotLeaves.of (lv : SnapshotLeaves) : AlarmService → RawLeaves
  | .battery => lv.battery
  | .vebus => lv.vebus

/-- The raw alarms, while there are no notification leaves. -/
theorem mem_mapNotifications_alarm {r : NativeScalars} {lv : SnapshotLeaves}
    (h : (parsePlatformSlots r (decodeLeaves lv.platform)).2 = false) {n : Notification} :
    n ∈ mapNotifications r lv ↔
      ∃ service, ∃ e ∈ decodeLeaves (lv.of service), mapAlarmLeaf r service.name e = some n := by
  rw [mapNotifications, h, if_neg Bool.false_ne_true, List.mem_append, List.mem_filterMap,
    List.mem_filterMap]
  constructor
  · rintro (⟨e, he, hn⟩ | ⟨e, he, hn⟩)
    · exact ⟨.battery, e, he, hn⟩
    · exact ⟨.vebus, e, he, hn⟩
  · rintro ⟨service | service, e, he, hn⟩
    · exact Or.inl ⟨e, he, hn⟩
    · exact Or.inr ⟨e, he, hn⟩

/-- The banner of an alarm leaf has the ID of its service and key. -/
theorem id_of_mapAlarmLeaf {r : NativeScalars} {service : String} {e : List String × Any}
    {n : Notification} (h : mapAlarmLeaf r service e = some n) :
    n.id = "victron-" ++ service ++ "/" ++ topicText e.1 := by
  simp only [mapAlarmLeaf, bind, Option.bind_eq_some_iff] at h
  obtain ⟨⟨inst, name⟩, -, value, -, hn⟩ := h
  split_ifs at hn
  exact (Option.some.inj hn) ▸ rfl

/-- The ID of an alarm determines its service and its topic. -/
theorem AlarmService.id_inj {service service' : AlarmService} {a b : String}
    (h : "victron-" ++ service.name ++ "/" ++ a = "victron-" ++ service'.name ++ "/" ++ b) :
    service = service' ∧ a = b := by
  have htext : ∀ (p s x : String),
      (p ++ s ++ "/" ++ x).toList = p.toList ++ (s.toList ++ '/' :: x.toList) := by
    intro p s x
    have hslash : "/".toList = ['/'] := by decide
    rw [String.toList_append, String.toList_append, String.toList_append, hslash, List.append_assoc,
      List.append_assoc, List.singleton_append]
  have hbattery : AlarmService.battery.name.toList = 'b' :: "attery".toList := by decide
  have hvebus : AlarmService.vebus.name.toList = 'v' :: "ebus".toList := by decide
  have hl := congrArg String.toList h
  rw [htext, htext, List.append_cancel_left_eq] at hl
  have hservice : service = service' := by
    cases service <;> cases service'
    · rfl
    · rw [hbattery, hvebus] at hl
      exact absurd (List.cons.inj hl).1 (by decide)
    · rw [hbattery, hvebus] at hl
      exact absurd (List.cons.inj hl).1 (by decide)
    · rfl
  subst hservice
  rw [List.append_cancel_left_eq] at hl
  exact ⟨rfl, String.toList_inj.mp (List.cons.inj hl).2⟩

/-- Without notification leaves the gateway shows no banner of a slot. -/
theorem hasPrefix_of_not_seen {r : NativeScalars} {lv : SnapshotLeaves}
    (h : (parsePlatformSlots r (decodeLeaves lv.platform)).2 = false) {n : Notification}
    (hn : n ∈ mapNotifications r lv) : hasPrefix n.id "victron-platform-" = false := by
  obtain ⟨service, e, -, he⟩ := (mem_mapNotifications_alarm h).mp hn
  have hshort : ∀ s : AlarmService, ¬ "victron-p".toList <+: ("victron-" ++ s.name).toList := by
    intro s
    cases s <;> decide
  rw [id_of_mapAlarmLeaf he, hasPrefix, Bool.eq_false_iff, ne_eq, List.isPrefixOf_iff_prefix,
    String.append_assoc, String.toList_append]
  intro hpre
  have hfirst : "victron-p".toList <+: "victron-platform-".toList := by decide
  refine hshort service (List.prefix_of_prefix_length_le (hfirst.trans hpre)
    (List.prefix_append _ _) ?_)
  cases service <;> decide

/-- The alarm leaf of an instance. -/
structure AlarmLeaf where
  service : AlarmService
  inst : String
  rest : List String
  value : Json

namespace AlarmLeaf

/-- The key of a leaf in a snapshot. -/
def key (a : AlarmLeaf) : List String := a.inst :: "Alarms" :: a.rest

/-- The topic of a leaf. -/
def topic (portal : String) (a : AlarmLeaf) : List String :=
  "N" :: portal :: a.service.name :: a.key

/-- The leaf as a message. -/
def message (portal : String) (a : AlarmLeaf) : Message :=
  .native (a.topic portal) (.json (.obj [("value", a.value)]))

/-- A numbered instance, and a path without empty levels. -/
structure Valid (a : AlarmLeaf) : Prop where
  digits : (digitsValue a.inst.toList).isSome = true
  int : (atoi a.inst).isSome = true
  rest : a.rest ≠ []
  levels : "" ∉ a.rest

end AlarmLeaf

/-- A snapshot has the leaf, and no other value under its key. -/
def Holds (raw : RawLeaves) (key : List String) (v : Json) : Prop :=
  (key, v) ∈ raw ∧ ∀ e ∈ raw, topicText e.1 = topicText key → e = (key, v)

theorem nativeAlarmPath_key {a : AlarmLeaf} (h : a.Valid) :
    nativeAlarmPath a.key = some (a.inst, a.key.getLastD "") := by
  have hinst : a.inst ≠ "" := by
    intro hnil
    have hd := h.digits
    rw [hnil] at hd
    cases hd
  have hlen : ¬ a.key.length < 3 := by
    have := List.length_pos_iff.mpr h.rest
    rw [AlarmLeaf.key, List.length_cons, List.length_cons]
    omega
  have hlevels : "" ∉ a.key := by
    rw [AlarmLeaf.key, List.mem_cons, List.mem_cons]
    rintro (hnil | hnil | hnil)
    · exact hinst hnil.symm
    · exact absurd hnil (by decide)
    · exact h.levels hnil
  rw [nativeAlarmPath, if_neg]
  · rfl
  · rintro (hl | hl | hl)
    · exact hlen hl
    · exact hl rfl
    · exact hlevels hl

/-- An alarm leaf is decoded with its literals. -/
theorem decodeLeaf_alarm {a : AlarmLeaf} (h : a.Valid) (v : Json) :
    decodeLeaf a.key v = some v.useNumber := by
  cases v with
  | null => rfl
  | _ => simp only [decodeLeaf, nativeAlarmPath_key h, Option.isSome_some, Bool.or_true, if_true]

/-- The banner of an alarm leaf, if its value is an active level. -/
theorem mapAlarmLeaf_alarm (r : NativeScalars) {a : AlarmLeaf} (h : a.Valid) :
    mapAlarmLeaf r a.service.name (a.key, a.value.useNumber) =
      ((r.level a.value.useNumber).filter fun value => value = 1 ∨ value = 2).map
        (alarmNotification a.service.name a.key a.inst (a.key.getLastD "")) := by
  simp only [mapAlarmLeaf, nativeAlarmPath_key h, bind, Option.bind_some]
  cases r.level a.value.useNumber with
  | none => rfl
  | some value =>
    rw [Option.bind_some, Option.filter_some]
    by_cases hv : value = 1 ∨ value = 2
    · rw [if_pos hv, if_pos (decide_eq_true hv)]
      rfl
    · rw [if_neg hv, if_neg (by simpa using hv)]
      rfl

/-- **Alarms on the gateway.** The banner of an alarm leaf is there exactly for an active level. -/
theorem mem_mapNotifications_of_holds {r : NativeScalars} {lv : SnapshotLeaves}
    (hseen : (parsePlatformSlots r (decodeLeaves lv.platform)).2 = false) {a : AlarmLeaf}
    (h : a.Valid) (hholds : Holds (lv.of a.service) a.key a.value) {n : Notification} :
    n ∈ mapNotifications r lv ∧
        n.id = "victron-" ++ a.service.name ++ "/" ++ topicText a.key ↔
      ∃ value, r.level a.value.useNumber = some value ∧ (value = 1 ∨ value = 2) ∧
        n = alarmNotification a.service.name a.key a.inst (a.key.getLastD "") value := by
  have hmap := mapAlarmLeaf_alarm r h
  rw [mem_mapNotifications_alarm hseen]
  constructor
  · rintro ⟨⟨service, e, he, hn⟩, hid⟩
    rw [id_of_mapAlarmLeaf hn] at hid
    obtain ⟨rfl, htopic⟩ := AlarmService.id_inj hid
    obtain ⟨e', he', hdecode⟩ := List.mem_filterMap.mp he
    obtain ⟨v, hv, rfl⟩ := Option.map_eq_some_iff.mp hdecode
    obtain rfl := hholds.2 e' he' htopic
    rw [decodeLeaf_alarm h] at hv
    rw [← Option.some.inj hv, hmap] at hn
    obtain ⟨value, hvalue, rfl⟩ := Option.map_eq_some_iff.mp hn
    obtain ⟨hlevel, hactive⟩ := Option.filter_eq_some_iff.mp hvalue
    exact ⟨value, hlevel, of_decide_eq_true hactive, rfl⟩
  · rintro ⟨value, hlevel, hactive, rfl⟩
    refine ⟨⟨a.service, (a.key, a.value.useNumber), ?_, ?_⟩, rfl⟩
    · exact List.mem_filterMap.mpr ⟨_, hholds.1, by rw [decodeLeaf_alarm h]; rfl⟩
    · rw [hmap, hlevel, Option.filter_some, if_pos (decide_eq_true hactive)]
      rfl

end Gateway

namespace Client

/-- A client on LAN that has not heard of an alarm topic. -/
structure Unheard (c : Client) (topic : List String) : Prop where
  lan : c.gatewayMode = false
  seen : c.platformNotifsSeen = false
  alarms : c.alarmValues.lookup (topicText topic) = none
  banners : ∀ n ∈ c.banners.elems, n.id ≠ "victron-" ++ topicText topic

/-- A value that discovers nothing is no level. -/
theorem level_of_not_discovers (t : NativeTexts) {v : Json} (h : Gateway.discovers v = false) :
    nativeLevel t v.useNumber = none := by
  cases v with
  | null | bool _ | arr _ | obj _ => rfl
  | num n =>
    refine nativeLevel_eq_none_of_overflow t fun q hq => ?_
    simp only [Gateway.discovers, Json.toAny, hq] at h
    cases h
  | str s =>
    have hblank : trimSpace s = "" := by
      simpa [Gateway.discovers, Json.toAny] using h
    show t.level (trimSpace s) = none
    rw [hblank, t.level_empty]

/-- The level of an alarm value; a null is the level 0. -/
theorem decodeAlarmValue_value (r : NativeScalars) (v : Json) :
    decodeAlarmValue r (.json (.obj [("value", v)])) =
      if v.useNumber.isNil then some 0 else r.level v.useNumber := by
  simp [decodeAlarmValue, payloadValue, entry]

/-- The first value of a topic that is 1 or 2 brings its banner, and every other one brings
nothing. -/
theorem commitAlarm_unheard {c : Client} (r : NativeScalars) {topic : List String}
    (h : c.Unheard topic) (payload : Payload) {n : Notification} :
    n ∈ (c.commitAlarm r topic payload).banners.elems ∧ n.id = "victron-" ++ topicText topic ↔
      ∃ value, decodeAlarmValue r payload = some value ∧ (value = 1 ∨ value = 2) ∧
        n = alarmBanner topic value := by
  have hnone : ¬ (n ∈ c.banners.elems ∧ n.id = "victron-" ++ topicText topic) :=
    fun hn => h.banners n hn.1 hn.2
  rw [commitAlarm, h.seen, if_neg Bool.false_ne_true]
  cases hv : decodeAlarmValue r payload with
  | none =>
    refine iff_of_false hnone ?_
    rintro ⟨value, hvalue, -⟩
    cases hvalue
  | some value =>
    dsimp only
    rw [h.alarms, Option.getD_none]
    by_cases hzero : 0 = value
    · subst hzero
      rw [if_pos rfl]
      refine iff_of_false hnone ?_
      rintro ⟨value, hvalue, hactive, -⟩
      obtain rfl := Option.some.inj hvalue
      omega
    · rw [if_neg hzero]
      by_cases hactive : value = 1 ∨ value = 2
      · rw [if_pos hactive]
        have helems : (({ c with alarmValues := c.alarmValues.insert (topicText topic) value } :
            Client).setBanners (upsertNotification c.banners
            (alarmBanner topic value))).banners.elems =
            upsert Notification.id maxNotifications c.banners.elems (alarmBanner topic value) := by
          rw [← elems_upsertNotification]
          show (State.field (State.set _ Field.notifications _) .notifications).elems = _
          rw [State.set_field_self]
        show n ∈ (({ c with alarmValues := c.alarmValues.insert (topicText topic) value } :
            Client).setBanners (upsertNotification c.banners
            (alarmBanner topic value))).banners.elems ∧
            _ ↔ _
        rw [helems]
        constructor
        · rintro ⟨hn, hid⟩
          rcases List.mem_append.mp (List.mem_of_mem_drop hn) with hn | hn
          · exact absurd hid (h.banners n (List.mem_of_mem_filter hn))
          · exact ⟨value, rfl, hactive, List.mem_singleton.mp hn⟩
        · rintro ⟨value', hvalue, -, rfl⟩
          obtain rfl := Option.some.inj hvalue
          exact ⟨mem_upsert_self (by decide) _ _, rfl⟩
      · rw [if_neg hactive]
        refine iff_of_false ?_ ?_
        · rintro ⟨hn, hid⟩
          have helems : (({ c with alarmValues := c.alarmValues.insert (topicText topic) value } :
              Client).setBanners (c.banners.filterInPlace fun e =>
                e.id != "victron-" ++ topicText topic)).banners.elems =
              c.banners.elems.filter fun e => e.id != "victron-" ++ topicText topic := by
            show (State.field (State.set _ Field.notifications _) .notifications).elems = _
            rw [State.set_field_self]
            rfl
          exact h.banners n (List.mem_of_mem_filter (helems ▸ hn)) hid
        · rintro ⟨value', hvalue, hactive', -⟩
          obtain rfl := Option.some.inj hvalue
          exact hactive hactive'

/-- **Alarms on LAN.** The first message on the topic of an alarm leaf brings its banner exactly for
an active level. -/
theorem deliver_alarm (t : NativeTexts) {portal : String} {c : Client} {a : Gateway.AlarmLeaf}
    (h : c.Unheard (a.topic portal)) (hportal : validPortal portal = true)
    (hpid : c.portalID = portal ∨ c.portalID = "") (ha : a.Valid) (retained : Bool) (now : Time) :
    ∃ c', c.deliver t.scalars c.mqttSession retained (a.message portal) now = some c' ∧
      ∀ n, n ∈ c'.banners.elems ∧ n.id = "victron-" ++ topicText (a.topic portal) ↔
        ∃ value, nativeLevel t a.value.useNumber = some value ∧ (value = 1 ∨ value = 2) ∧
          n = alarmBanner (a.topic portal) value := by
  simp only [Gateway.AlarmLeaf.message, deliver, if_true, applyCerboMessage_eq]
  cases hadm : c.admitsNative c.mqttSession (a.topic portal)
    (.json (.obj [("value", a.value)])) with
  | true =>
    have hroute : hasInnerLevel (a.topic portal) "Alarms" = true := by
      obtain ⟨x, xs, hrest⟩ := List.exists_cons_of_ne_nil ha.rest
      simp [hasInnerLevel, Gateway.AlarmLeaf.topic, Gateway.AlarmLeaf.key, hrest]
    have hlen : ¬ (a.topic portal).length = 3 := by
      simp [Gateway.AlarmLeaf.topic, Gateway.AlarmLeaf.key]
    have hplatform : ¬ ((a.topic portal).getD 2 "" = "platform" ∧
        hasInnerLevel (a.topic portal) "Notifications" = true) := by
      rintro ⟨hp, -⟩
      have hname : a.service.name ≠ "platform" := by
        cases a.service <;> decide
      exact hname hp
    refine ⟨({ c with portalID := (a.topic portal).getD 1 "" } : Client).commitAlarm t.scalars
      (a.topic portal) (.json (.obj [("value", a.value)])), ?_, fun n => ?_⟩
    · rw [if_pos rfl, commitNative, if_neg hlen, if_neg hplatform, if_pos hroute]
    · rw [commitAlarm_unheard (c := { c with portalID := (a.topic portal).getD 1 "" }) t.scalars
        ⟨h.lan, h.seen, h.alarms, h.banners⟩, decodeAlarmValue_value]
      cases hv : a.value with
      | null =>
        refine iff_of_false ?_ ?_
        · rintro ⟨value, hvalue, hactive, -⟩
          obtain rfl := Option.some.inj hvalue
          omega
        · rintro ⟨value, hvalue, -⟩
          cases hvalue
      | _ => rfl
  | false =>
    have hpump : (a.service.name :: a.key).getD 0 "" ≠ "pump" := by
      show a.service.name ≠ "pump"
      cases a.service <;> decide
    obtain ⟨hdisc, -⟩ := discovers_of_not_admitsNative h.lan hportal hpid (List.cons_ne_nil _ _)
      hpump hadm
    refine ⟨c, if_neg Bool.false_ne_true, fun n => iff_of_false ?_ ?_⟩
    · exact fun hn => h.banners n hn.1 hn.2
    · rintro ⟨value, hvalue, -⟩
      rw [level_of_not_discovers t hdisc] at hvalue
      cases hvalue

end Client

/-! ## Parity -/

namespace Gateway

/-- A banner with an ID, a level, a title and a body is shown. -/
def ShowsBanner (l : List Notification) (id level title body : String) : Prop :=
  ∃ n ∈ l, n.id = id ∧ n.level = level ∧ n.title = title ∧ n.body = body

/-- The two banners of an alarm agree. -/
theorem alarmBanner_eq {a : AlarmLeaf} (h : a.Valid) (portal : String) (value : ℕ) :
    let n := Client.alarmBanner (a.topic portal) value
    let n' := alarmNotification a.service.name a.key a.inst (a.key.getLastD "") value
    n.level = n'.level ∧ n.title = n'.title ∧ n.body = n'.body := by
  obtain ⟨x, xs, hrest⟩ := List.exists_cons_of_ne_nil h.rest
  have hnames : Client.alarmNames (a.topic portal) =
      (a.service.name ++ "_" ++ a.inst, a.key.getLastD "") := by
    simp [Client.alarmNames, AlarmLeaf.topic, AlarmLeaf.key, hrest]
  have hunderscore : '_' ∉ a.service.name.toList := by
    cases a.service <;> decide
  have hne : a.service.name ≠ "" := by
    cases a.service <;> decide
  refine ⟨?_, ?_, ?_⟩
  · by_cases hv : value = 2 <;> simp [Client.alarmBanner, alarmNotification, hv]
  · show Dashboard.prettyServiceName (Client.alarmNames (a.topic portal)).1 = _
    rw [hnames]
    exact (prettyServiceName_eq hunderscore hne h.digits h.int).symm
  · show Dashboard.prettyAlarmName (Client.alarmNames (a.topic portal)).2 ++ ": " ++ _ =
      prettyAlarmName (a.key.getLastD "") ++ ": " ++ _
    rw [hnames, prettyAlarmName_eq]
    by_cases hv : value = 2 <;> simp [hv]

/-- **Slots.** The banners of the slots are the same on both transports. -/
theorem slots_agree (t : NativeTexts) {portal : String} (hportal : validPortal portal = true)
    {c : Client} (hc : c.FreshSession) {ls : List (PlatformLeaf × Bool × Time)}
    (hvalid : ∀ l ∈ ls.map Prod.fst, l.Valid t.scalars)
    (hnodup : ((ls.map Prod.fst).map PlatformLeaf.place).Nodup)
    (hears : c.Hears portal (ls.map Prod.fst)) {lv : SnapshotLeaves}
    (hlv : Carries lv.platform (ls.map Prod.fst))
    (hlen : (mapNotifications t.scalars lv).length ≤ maxNotifications) :
    ∃ c', Client.deliverLeaves t.scalars portal ls c = some c' ∧
      ∀ n, hasPrefix n.id "victron-platform-" = true →
        (n ∈ c'.banners.elems ↔ n ∈ mapNotifications t.scalars lv) := by
  have hlong : ∀ {id : String}, hasPrefix id "victron-platform-" = true →
      hasPrefix id "victron-" = true := by
    intro id h
    rw [hasPrefix, List.isPrefixOf_iff_prefix] at h ⊢
    have hfirst : "victron-".toList <+: "victron-platform-".toList := by decide
    exact hfirst.trans h
  have hview : viewOf c.platformSlots = emptyView := by rw [hc.slots, viewOf_empty]
  have htracks : Client.Tracks portal c emptyView :=
    ⟨hc.lan, hears.imp id And.left, hview, hc.slots ▸ keyedSlots_empty, hc.rebuilt⟩
  obtain ⟨c', hc', ht⟩ := Client.deliverLeaves_spec t hportal htracks hvalid hnodup
    (fun l _ => untouched_emptyView l.place) hears
  refine ⟨c', hc', fun n hn => ?_⟩
  by_cases hnil : ls = []
  · subst hnil
    obtain rfl := Option.some.inj hc'
    have hseen : (parsePlatformSlots t.scalars (decodeLeaves lv.platform)).2 = false := by
      refine decide_eq_false (not_not.mpr ?_)
      exact List.perm_nil.mp (updates_perm hlv hvalid)
    refine iff_of_false (fun hmem => ?_) fun hmem => ?_
    · have hno := hc.banners n hmem
      rw [hlong hn] at hno
      cases hno
    · rw [hasPrefix_of_not_seen hseen hmem] at hn
      cases hn
  · obtain ⟨others, tail, helems, hothers, htail⟩ := ht.rebuilt
    have hmem : ∀ m, m ∈ mapNotifications t.scalars lv ↔ m ∈ slotBanners c'.platformSlots := by
      intro m
      rw [mem_mapNotifications_iff hlv hvalid hnodup (by simpa using hnil), mem_slotBanners_iff,
        ht.view]
    have hbound : (slotBanners c'.platformSlots).length ≤ maxNotifications := by
      have hdistinct : (slotBanners c'.platformSlots).Nodup :=
        List.Nodup.of_map _ (Client.nodup_slotBanners ht.keyed)
      have hsub : slotBanners c'.platformSlots ⊆ mapNotifications t.scalars lv :=
        fun m hm => (hmem m).mpr hm
      exact (List.subperm_of_subset hdistinct hsub).length_le.trans hlen
    rw [hmem, helems, htail hbound, List.mem_append]
    refine or_iff_right fun hother => ?_
    have hno := hothers n hother
    rw [hlong hn] at hno
    cases hno

/-- **Alarms.** The banner of an alarm is the same on both transports, up to its ID. -/
theorem alarms_agree (t : NativeTexts) {portal : String} (hportal : validPortal portal = true)
    {c : Client} (hpid : c.portalID = portal ∨ c.portalID = "") {a : AlarmLeaf}
    (hc : c.Unheard (a.topic portal)) (ha : a.Valid) {lv : SnapshotLeaves}
    (hseen : (parsePlatformSlots t.scalars (decodeLeaves lv.platform)).2 = false)
    (hholds : Holds (lv.of a.service) a.key a.value) (retained : Bool) (now : Time) :
    ∃ c', c.deliver t.scalars c.mqttSession retained (a.message portal) now = some c' ∧
      ∀ level title body,
        ShowsBanner c'.banners.elems ("victron-" ++ topicText (a.topic portal)) level title body ↔
          ShowsBanner (mapNotifications t.scalars lv)
            ("victron-" ++ a.service.name ++ "/" ++ topicText a.key) level title body := by
  obtain ⟨c', hc', hlan⟩ := Client.deliver_alarm t hc hportal hpid ha retained now
  refine ⟨c', hc', fun level title body => ?_⟩
  constructor
  · rintro ⟨n, hn, hid, hlevel, htitle, hbody⟩
    obtain ⟨value, hvalue, hactive, rfl⟩ := (hlan n).mp ⟨hn, hid⟩
    obtain ⟨hl, ht, hb⟩ := alarmBanner_eq ha portal value
    obtain ⟨hn', hid'⟩ :=
      (mem_mapNotifications_of_holds hseen ha hholds).mpr ⟨value, hvalue, hactive, rfl⟩
    exact ⟨_, hn', hid', hl.symm.trans hlevel, ht.symm.trans htitle, hb.symm.trans hbody⟩
  · rintro ⟨n, hn, hid, hlevel, htitle, hbody⟩
    obtain ⟨value, hvalue, hactive, rfl⟩ :=
      (mem_mapNotifications_of_holds hseen ha hholds).mp ⟨hn, hid⟩
    obtain ⟨hl, ht, hb⟩ := alarmBanner_eq ha portal value
    obtain ⟨hn', hid'⟩ := (hlan _).mpr ⟨value, hvalue, hactive, rfl⟩
    exact ⟨_, hn', hid', hl.trans hlevel, ht.trans htitle, hb.trans hbody⟩

/-- **Parity.** The transports agree on the banners of slots: leaves with valid values or null under
distinct keys, delivered in any order to a client on LAN that hears them, leave the banners of slots
that a snapshot with these leaves has. They agree on the banner of a raw alarm without such leaves,
and on the name of every alarm.

**Proof sketch.** A slot shows on both transports what reading each leaf once into an empty view
shows, and these readings commute (`Client.deliverLeaves_spec`, `mem_mapNotifications_iff`). A value
that discovers nothing does not fill a slot, apart from the acknowledgement `true`. -/
theorem parity (t : NativeTexts) {portal : String} (hportal : validPortal portal = true) :
    (∀ (c : Client) (ls : List (PlatformLeaf × Bool × Time)) (lv : SnapshotLeaves),
      c.FreshSession → (∀ l ∈ ls.map Prod.fst, l.Valid t.scalars) →
      ((ls.map Prod.fst).map PlatformLeaf.place).Nodup → c.Hears portal (ls.map Prod.fst) →
      Carries lv.platform (ls.map Prod.fst) →
      (mapNotifications t.scalars lv).length ≤ maxNotifications →
      ∃ c', Client.deliverLeaves t.scalars portal ls c = some c' ∧
        ∀ n, hasPrefix n.id "victron-platform-" = true →
          (n ∈ c'.banners.elems ↔ n ∈ mapNotifications t.scalars lv)) ∧
    (∀ (c : Client) (a : AlarmLeaf) (lv : SnapshotLeaves) (retained : Bool) (now : Time),
      (c.portalID = portal ∨ c.portalID = "") → c.Unheard (a.topic portal) → a.Valid →
      (parsePlatformSlots t.scalars (decodeLeaves lv.platform)).2 = false →
      Holds (lv.of a.service) a.key a.value →
      ∃ c', c.deliver t.scalars c.mqttSession retained (a.message portal) now = some c' ∧
        ∀ level title body,
          ShowsBanner c'.banners.elems ("victron-" ++ topicText (a.topic portal)) level title body ↔
            ShowsBanner (mapNotifications t.scalars lv)
              ("victron-" ++ a.service.name ++ "/" ++ topicText a.key) level title body) ∧
    ∀ name, prettyAlarmName name = Dashboard.prettyAlarmName name :=
  ⟨fun _ _ _ hc hvalid hnodup hears hlv hlen =>
      slots_agree t hportal hc hvalid hnodup hears hlv hlen,
    fun _ _ _ retained now hpid hc ha hseen hholds =>
      alarms_agree t hportal hpid hc ha hseen hholds retained now,
    prettyAlarmName_eq⟩

/-! ## A portal that is not known -/

/-- Texts that are never levels or times. -/
def plainTexts : NativeTexts where
  level _ := none
  time _ := ""
  rfc3339 := toString
  level_le _ _ h := by cases h
  level_empty := rfl
  time_blank _ _ := rfl

theorem freshSession_newClient (portal : String) :
    (newClient { portalID := portal }).FreshSession :=
  ⟨rfl, rfl, rfl, rfl, fun _ hn => by cases hn⟩

/-- An acknowledged notification. -/
def acknowledgedLeaf : PlatformLeaf := ⟨0, 1, .acknowledged, .bool true⟩

/-- A notification with a text. -/
def describedLeaf : PlatformLeaf := ⟨0, 1, .description, .str "Fan"⟩

/-- The acknowledgement arrives before the text. -/
def acknowledgedFirst : List (PlatformLeaf × Bool × Time) :=
  [(acknowledgedLeaf, true, 0), (describedLeaf, true, 0)]

theorem valid_acknowledgedFirst : ∀ l ∈ acknowledgedFirst.map Prod.fst,
    l.Valid plainTexts.scalars := by
  intro l hl
  rcases List.mem_cons.mp hl with rfl | hl
  · exact ⟨by decide, by decide, rfl⟩
  · rw [List.mem_singleton.mp hl]
    exact ⟨by decide, by decide, rfl⟩

/-- The snapshot with the two leaves. -/
def acknowledgedSnapshot : SnapshotLeaves :=
  { platform := (acknowledgedFirst.map Prod.fst).map PlatformLeaf.raw }

theorem carries_acknowledgedSnapshot :
    Carries acknowledgedSnapshot.platform (acknowledgedFirst.map Prod.fst) := by
  unfold Carries
  rw [List.filter_eq_self.mpr]
  · exact List.Perm.refl _
  · intro e he
    obtain ⟨l, hl, rfl⟩ := List.mem_map.mp he
    show (parsePlatformNotificationKey l.key).isSome = true
    rw [parsePlatformNotificationKey_key (valid_acknowledgedFirst l hl)]
    rfl

/-- A client that knows its portal shows no banner of the acknowledged notification. -/
theorem parity_acknowledgedFirst : ∃ c', Client.deliverLeaves plainTexts.scalars "c0"
      acknowledgedFirst (newClient { portalID := "c0" }) = some c' ∧
    ∀ n, hasPrefix n.id "victron-platform-" = true → n ∉ c'.banners.elems := by
  obtain ⟨c', hc', h⟩ :=
    (parity plainTexts (show validPortal "c0" = true by decide)).1 _ acknowledgedFirst
    acknowledgedSnapshot (freshSession_newClient "c0") valid_acknowledgedFirst (by decide)
    (Or.inl rfl) carries_acknowledgedSnapshot (by decide)
  refine ⟨c', hc', fun n hn hmem => ?_⟩
  have hnil : mapNotifications plainTexts.scalars acknowledgedSnapshot = [] := by decide
  have hgw := (h n hn).mp hmem
  rw [hnil] at hgw
  cases hgw

/-- A client that does not know its portal yet ignores the acknowledgement, and shows the
acknowledged notification: not every fresh client agrees with the gateway. -/
theorem not_parity_acknowledgedFirst :
    ¬ ∀ (c : Client) (ls : List (PlatformLeaf × Bool × Time)) (lv : SnapshotLeaves),
      c.FreshSession → (c.portalID = "c0" ∨ c.portalID = "") →
      (∀ l ∈ ls.map Prod.fst, l.Valid plainTexts.scalars) →
      ((ls.map Prod.fst).map PlatformLeaf.place).Nodup →
      Carries lv.platform (ls.map Prod.fst) →
      (mapNotifications plainTexts.scalars lv).length ≤ maxNotifications →
      ∃ c', Client.deliverLeaves plainTexts.scalars "c0" ls c = some c' ∧
        ∀ n, hasPrefix n.id "victron-platform-" = true →
          (n ∈ c'.banners.elems ↔ n ∈ mapNotifications plainTexts.scalars lv) := by
  intro h
  obtain ⟨c', hc', hsame⟩ := h (newClient {}) acknowledgedFirst acknowledgedSnapshot
    (freshSession_newClient "") (Or.inr rfl) valid_acknowledgedFirst (by decide)
    carries_acknowledgedSnapshot (by decide)
  have hrun : ((Client.deliverLeaves plainTexts.scalars "c0" acknowledgedFirst
      (newClient {})).map fun c => c.banners.elems.any fun n =>
        hasPrefix n.id "victron-platform-") = some true := by decide
  rw [hc'] at hrun
  obtain ⟨n, hn, hpre⟩ := List.any_eq_true.mp (Option.some.inj hrun)
  have hnil : mapNotifications plainTexts.scalars acknowledgedSnapshot = [] := by decide
  have hgw := (hsame n hpre).mp hn
  rw [hnil] at hgw
  cases hgw

end Gateway

end Dashboard
