import InverterDashboard.Lib.KeyedRing
import InverterDashboard.Mqtt.Callbacks

set_option relaxedAutoImplicit false
set_option autoImplicit false

/-!
# The banner list

Which operations of the client write the banner list, and what they leave in it. The writers of
`internal/mqtt/notifications.go` keep at most `maxNotifications` banners with distinct IDs. Every
other operation leaves the list alone, except for two: a state frame decodes its `notifications`
entries into the list, and a snapshot replaces it.

## Main definitions

* `Dashboard.Capped` — at most `maxNotifications` banners with distinct IDs.
* `Dashboard.KeyedSlots` — each notification slot is stored under its own instance and number.
* `Dashboard.Client.SameBanners` — the list and the caches it is made of are the same.
* `Dashboard.decodedBanners` — the list after the entries of a frame were decoded into it.

## Main results

* `Dashboard.capped_upsertNotification`, `Dashboard.Client.capped_commitPlatform` — the writers
  keep the bound and the distinct IDs.
* `Dashboard.Client.commitState_banners` — a state frame leaves the decoded list.
-/

namespace Dashboard

open Go Recent KeyedRing

/-- At most `maxNotifications` banners, no two with the same ID. -/
def Capped (l : GoSlice Notification) : Prop := IsRing Notification.id maxNotifications l.elems

instance (l : GoSlice Notification) : Decidable (Capped l) :=
  decidable_of_iff (l.elems.length ≤ maxNotifications ∧ (l.elems.map Notification.id).Nodup)
    ⟨fun h => ⟨h.1, h.2⟩, fun h => ⟨h.1, h.2⟩⟩

/-! ## The writers -/

theorem elems_capNotifications (l : GoSlice Notification) :
    (capNotifications l).elems = last maxNotifications l.elems := by
  unfold capNotifications
  split_ifs with h
  · rfl
  · exact (last_of_length_le (not_lt.mp h)).symm

theorem elems_upsertNotification (l : GoSlice Notification) (n : Notification) :
    (upsertNotification l n).elems = upsert Notification.id maxNotifications l.elems n :=
  elems_capNotifications _

/-- An upsert keeps the IDs distinct and restores the bound. -/
theorem capped_upsertNotification {l : GoSlice Notification} (h : Capped l) (n : Notification) :
    Capped (upsertNotification l n) := by
  unfold Capped
  rw [elems_upsertNotification]
  exact isRing_upsert h.keys n

/-- Filtering keeps the IDs distinct. -/
theorem Capped.filterInPlace {l : GoSlice Notification} (h : Capped l) (p : Notification → Bool) :
    Capped (l.filterInPlace p) :=
  IsRing.sublist h List.filter_sublist

/-! ## Slots -/

/-- A decimal numeral determines its number. -/
theorem toString_injective : Function.Injective (toString : ℕ → String) := by
  intro m n h
  have hd : Nat.toDigits 10 m = Nat.toDigits 10 n := by
    rw [← Nat.toList_repr, ← Nat.toList_repr]
    exact congrArg String.toList h
  rw [← Nat.ofDigitChars_toDigits (b := 10) (n := m) (by decide) (by decide), hd,
    Nat.ofDigitChars_toDigits (by decide) (by decide)]

/-- A decimal numeral has no dash. -/
theorem dash_notMem_toString (n : ℕ) : '-' ∉ (toString n).toList := by
  intro h
  have hlist : (toString n).toList = Nat.toDigits 10 n := Nat.toList_repr
  rw [hlist] at h
  have hdigit : '-'.isDigit = true :=
    Nat.isDigit_of_mem_toDigits (by decide : 0 < 10) (le_refl 10) h
  exact absurd hdigit (by decide)

theorem toList_dashed (p a b : String) :
    (p ++ a ++ "-" ++ b).toList = p.toList ++ (a.toList ++ '-' :: b.toList) := by
  have hdash : "-".toList = ['-'] := by decide
  rw [String.toList_append, String.toList_append, String.toList_append, hdash, List.append_assoc,
    List.append_assoc, List.singleton_append]

theorem PlatformSlot.toList_bannerID (ps : PlatformSlot) :
    ps.bannerID.toList = "victron-platform-".toList ++
      ((toString ps.inst).toList ++ '-' :: (toString ps.slot).toList) :=
  toList_dashed _ _ _

/-- The banner of a slot names its instance and its number. -/
theorem PlatformSlot.key_of_bannerID {ps ps' : PlatformSlot} (h : ps.bannerID = ps'.bannerID) :
    ps.inst = ps'.inst ∧ ps.slot = ps'.slot := by
  have hl := congrArg String.toList h
  rw [toList_bannerID, toList_bannerID, List.append_cancel_left_eq] at hl
  obtain ⟨hinst, -, hslot⟩ := (List.append_cons_inj_of_notMem (dash_notMem_toString _)
    (dash_notMem_toString _)).mp hl
  exact ⟨toString_injective (String.toList_inj.mp hinst),
    toString_injective (String.toList_inj.mp hslot)⟩

/-- The banner of a slot has the ID of the slot. -/
theorem PlatformSlot.id_of_toNotification {ps : PlatformSlot} {n : Notification}
    (h : ps.toNotification = some n) : n.id = ps.bannerID := by
  unfold toNotification at h
  by_cases hshown : (ps.acknowledged || trimSpace ps.description == "") = true
  · rw [if_pos hshown] at h
    cases h
  · rw [if_neg hshown] at h
    exact Option.some.inj h ▸ rfl

/-- A native banner ID. -/
theorem PlatformSlot.hasPrefix_bannerID (ps : PlatformSlot) :
    hasPrefix ps.bannerID "victron-" = true := by
  have hpre : "victron-platform-".toList = "victron-".toList ++ "platform-".toList := rfl
  unfold hasPrefix
  rw [List.isPrefixOf_iff_prefix, toList_bannerID, hpre, List.append_assoc]
  exact List.prefix_append _ _

/-- Each slot is stored under its own instance and number. -/
def KeyedSlots (slots : AList fun _ : ℕ × ℕ => PlatformSlot) : Prop :=
  ∀ e ∈ slots.entries, (e.2.inst, e.2.slot) = e.1

theorem keyedSlots_empty : KeyedSlots ∅ := by
  intro e he
  cases he

/-- A field update keeps the instance and the number. -/
theorem PlatformSlot.updateField_key (r : NativeScalars) (ps : PlatformSlot) (f : PlatformField)
    (v : Any) : (ps.updateField r f v).inst = ps.inst ∧ (ps.updateField r f v).slot = ps.slot := by
  unfold updateField
  split_ifs
  · cases f <;> exact ⟨rfl, rfl⟩
  · cases f with
    | type =>
      unfold setType
      cases r.level v <;> exact ⟨rfl, rfl⟩
    | _ => exact ⟨rfl, rfl⟩

namespace Client

/-- An update keeps the slots under their keys. -/
theorem keyedSlots_update {c : Client} (h : KeyedSlots c.platformSlots) (r : NativeScalars)
    (u : PlatformUpdate) : KeyedSlots (c.updatePlatformSlots r u).platformSlots := by
  intro e he
  have he : e ∈ (c.platformSlots.insert (u.inst, u.slot) _).entries := he
  rw [AList.entries_insert] at he
  rcases List.mem_cons.mp he with rfl | he
  · obtain ⟨hi, hs⟩ := PlatformSlot.updateField_key r
      ((c.platformSlots.lookup (u.inst, u.slot)).getD { inst := u.inst, slot := u.slot }) u.field
      u.value
    dsimp only
    rw [hi, hs]
    cases hl : c.platformSlots.lookup (u.inst, u.slot) with
    | none => rfl
    | some ps => exact h ⟨_, ps⟩ (AList.mem_lookup_iff.mp hl)
  · exact h e ((List.kerase_sublist _ _).subset he)

/-- The IDs of the shown slots are among the IDs of the slots. -/
theorem ids_filterMap_sublist (slots : List PlatformSlot) :
    ((slots.filterMap PlatformSlot.toNotification).map Notification.id).Sublist
      (slots.map PlatformSlot.bannerID) := by
  induction slots with
  | nil => exact List.Sublist.refl _
  | cons ps slots ih =>
    rw [List.filterMap_cons, List.map_cons]
    cases hn : ps.toNotification with
    | none => exact ih.cons _
    | some n =>
      dsimp only
      rw [List.map_cons, PlatformSlot.id_of_toNotification hn]
      exact ih.cons_cons _

/-- The banners of slots stored under their keys have distinct IDs. -/
theorem nodup_slotBanners {slots : AList fun _ : ℕ × ℕ => PlatformSlot} (h : KeyedSlots slots) :
    (((slots.entries.map fun e => e.2).filterMap PlatformSlot.toNotification).map
      Notification.id).Nodup := by
  refine List.Nodup.sublist (ids_filterMap_sublist _) ?_
  rw [List.map_map]
  have hentries : slots.entries.Nodup := slots.nodupKeys.nodup
  refine hentries.map_on fun x hx y hy hid => ?_
  obtain ⟨hinst, hslot⟩ := PlatformSlot.key_of_bannerID hid
  have hkey : x.1 = y.1 := by rw [← h x hx, ← h y hy, hinst, hslot]
  exact slots.nodupKeys.eq_of_fst_eq hx hy hkey

/-- **Platform notifications.** The banners of other sources keep their distinct IDs, the native
ones are those of the slots, and the newest ones stay.

**Proof sketch.** Only a native banner has an ID with the prefix, and the IDs of the slots are
distinct because each slot is stored under its own key. -/
theorem capped_commitPlatform {c : Client} (hc : Capped c.banners) (hs : KeyedSlots c.platformSlots)
    (r : NativeScalars) (u : PlatformUpdate) : Capped (c.commitPlatform r u).banners := by
  have hkeyed := keyedSlots_update hs r u
  show IsRing Notification.id maxNotifications
    (State.field (State.set _ Field.notifications _) .notifications).elems
  rw [State.set_field_self, elems_capNotifications]
  refine isRing_last ?_
  show List.Nodup (List.map _ (_ ++ _))
  rw [List.map_append]
  refine List.Nodup.append (hc.keys.sublist (List.filter_sublist.map _))
    (nodup_slotBanners hkeyed) ?_
  intro id hid hid'
  obtain ⟨n, hn, rfl⟩ := List.mem_map.mp hid
  obtain ⟨n', hn', hsame⟩ := List.mem_map.mp hid'
  obtain ⟨ps, -, hps⟩ := List.mem_filterMap.mp hn'
  have hpre : hasPrefix n.id "victron-" = true := by
    rw [← hsame, PlatformSlot.id_of_toNotification hps]
    exact ps.hasPrefix_bannerID
  have hnot := (List.mem_filter.mp hn).2
  rw [hpre] at hnot
  cases hnot

/-! ## Everything else -/

/-- The banner list and the caches it is made of are the same. -/
structure SameBanners (c c' : Client) : Prop where
  banners : c'.banners = c.banners
  slots : c'.platformSlots = c.platformSlots
  seen : c'.platformNotifsSeen = c.platformNotifsSeen
  alarms : c'.alarmValues = c.alarmValues

namespace SameBanners

theorem refl (c : Client) : SameBanners c c := ⟨rfl, rfl, rfl, rfl⟩

theorem trans {a b c : Client} (h : SameBanners a b) (h' : SameBanners b c) : SameBanners a c :=
  ⟨h'.banners.trans h.banners, h'.slots.trans h.slots, h'.seen.trans h.seen,
    h'.alarms.trans h.alarms⟩

end SameBanners

theorem initCerboMaps_sameBanners (c : Client) : SameBanners c c.initCerboMaps := by
  obtain ⟨hinit, -, hfield, -, -⟩ := c.initCerboMaps_spec
  refine ⟨hfield _ (by decide), ?_, ?_, ?_⟩ <;> rw [hinit]

theorem Overlaid.sameBanners {c c' : Client} (h : Overlaid c c') : SameBanners c c' := by
  refine ⟨h.field_of_not_direct (by decide) (by decide), ?_, ?_, ?_⟩ <;> rw [h.frame]

theorem Stored.sameBanners {c c₁ : Client} {parts : List String} {payload : Payload}
    (h : Stored c parts payload c₁) : SameBanners c c₁ := by
  refine ⟨?_, ?_, ?_, ?_⟩ <;> rw [h.frame]
  exact c.initCerboMaps_sameBanners.banners

/-- A device message leaves the banners alone. -/
theorem handleCerboDevice_sameBanners {c c' : Client} {parts : List String} {payload : Payload}
    {now : Time} {changed : Bool} (h : c.handleCerboDevice parts payload now = some (c', changed)) :
    SameBanners c c' := by
  obtain ⟨c'', changed', h', hcases⟩ := c.handleCerboDevice_spec parts payload now
  obtain ⟨rfl, rfl⟩ := Prod.mk.inj (Option.some.inj (h'.symm.trans h))
  rcases hcases with ⟨-, rfl | rfl⟩ | ⟨-, c₁, hst, hov⟩
  · exact SameBanners.refl _
  · exact c.initCerboMaps_sameBanners
  · exact hst.sameBanners.trans hov.sameBanners

theorem commitDevice_sameBanners {c c' : Client} {parts : List String} {payload : Payload}
    {retained : Bool} {now : Time} (h : c.commitDevice parts payload retained now = some c') :
    SameBanners c c' := by
  obtain ⟨⟨c₁, changed⟩, h₁, h₂⟩ := Option.bind_eq_some_iff.mp h
  obtain rfl := Option.some.inj h₂
  refine (handleCerboDevice_sameBanners h₁).trans ?_
  split_ifs <;> exact ⟨rfl, rfl, rfl, rfl⟩

theorem onCameraMessage_sameBanners (c : Client) (p : CameraText) :
    SameBanners c (c.onCameraMessage p) :=
  ⟨State.set_field_ne _ (by decide) _, rfl, rfl, rfl⟩

theorem applyPortalMessage_sameBanners (c : Client) (p : PortalText) (generation session : ℕ) :
    SameBanners c (c.applyPortalMessage p generation session) := by
  unfold applyPortalMessage acceptPortal
  split_ifs <;> exact ⟨rfl, rfl, rfl, rfl⟩

theorem subscribeOverlay_sameBanners {c c' : Client} (h : c.subscribeOverlay = some c') :
    SameBanners c c' := by
  obtain ⟨h₁, h₂, h₃, h₄⟩ := (overlaid_of_eq_some h).sameBanners
  exact ⟨h₁, h₂, h₃, h₄⟩

/-- A withdrawn section leaves the banners alone. -/
theorem banners_of_snapshot {st st' : State} {data : Frame} (h : Snapshotted st data st') :
    st'.field .notifications = st.field .notifications := h.frame _ (by decide)

theorem expireOptionalTelemetry_sameBanners {c c' : Client} {now : Time}
    (h : c.expireOptionalTelemetry now = some c') : SameBanners c c' := by
  have hinit := c.initCerboMaps_sameBanners
  unfold expireOptionalTelemetry at h
  dsimp only at h
  cases hseen : c.initCerboMaps.controllerLastSeen with
  | none =>
    rw [hseen] at h
    exact Option.some.inj h ▸ hinit
  | some seen =>
    rw [hseen] at h
    dsimp only at h
    split_ifs at h
    · obtain ⟨st₁, h₁, h⟩ := Option.bind_eq_some_iff.mp h
      obtain ⟨st₂, h₂, h⟩ := Option.bind_eq_some_iff.mp h
      obtain rfl := Option.some.inj h
      refine hinit.trans ⟨?_, rfl, rfl, rfl⟩
      exact (banners_of_snapshot (snapshotted_of_eq_some h₂)).trans
        ((c.initCerboMaps.resetESSFlag_of_eq_some h₁).1 _ (by decide))
    · exact Option.some.inj h ▸ hinit

theorem invalidateState_sameBanners {c c' : Client} (h : c.invalidateState = some c') :
    SameBanners c c' := by
  have hinit := c.initCerboMaps_sameBanners
  obtain ⟨-, hpres, -⟩ := c.initCerboMaps_spec
  obtain ⟨st₁, h₁, hs⟩ := applyControllerSnapshot_spec c.initCerboMaps.state []
  have hpres₁ : (st₁.field .telemetryAvailable).isSome := by
    rw [hs.frame _ (by decide)]
    exact hpres
  obtain ⟨st₂, h₂, hcl⟩ := State.clearAll_spec false directFields (by decide) hpres₁
  rw [invalidateState, Option.bind_eq_bind, h₁, Option.bind_some, h₂] at h
  obtain rfl := Option.some.inj h
  refine hinit.trans ⟨?_, rfl, rfl, rfl⟩
  exact (hcl.frame _ (by decide) (by decide)).trans (banners_of_snapshot hs)

theorem clearOptionalTelemetry_sameBanners {c c' : Client}
    (h : c.clearOptionalTelemetry = some c') : SameBanners c c' := by
  have hinit := Client.initCerboMaps_sameBanners
    { c with controllerESSMode := none, controllerESSObserved := none }
  obtain ⟨-, hpres, -⟩ := Client.initCerboMaps_spec
    { c with controllerESSMode := none, controllerESSObserved := none }
  obtain ⟨st₁, h₁, hcl⟩ := State.clearAll_spec false optionalFields (by decide) hpres
  obtain ⟨st₂, h₂, hs⟩ := applyControllerSnapshot_spec st₁ []
  rw [clearOptionalTelemetry, Option.bind_eq_bind, h₁, Option.bind_some, h₂] at h
  obtain rfl := Option.some.inj h
  have hbanners : State.field st₂ .notifications = c.banners :=
    (banners_of_snapshot hs).trans ((hcl.frame _ (by decide) (by decide)).trans hinit.banners)
  exact ⟨hbanners, hinit.slots, hinit.seen, hinit.alarms⟩

theorem clearSource_sameBanners {c c' : Client} (h : c.clearSource = some c') :
    SameBanners c c' := by
  obtain ⟨c₁, h₁, h₂⟩ := Option.bind_eq_some_iff.mp h
  obtain rfl := Option.some.inj h₂
  obtain ⟨hb, hs, hseen, ha⟩ := clearOptionalTelemetry_sameBanners h₁
  exact ⟨hb, hs, hseen, ha⟩

end Client

/-! ## Frames and snapshots -/

/-- One entry of a frame, decoded into the list when it selects the banners. -/
def decodeBanners (l : GoSlice Notification) (e : String × Any) : GoSlice Notification :=
  if matchField e.1 = some .notifications then (FieldType.sliceNotification.decoder e.2 l).1 else l

/-- The list after the entries of a frame were decoded into it. -/
def decodedBanners (data : Frame) (l : GoSlice Notification) : GoSlice Notification :=
  data.foldl decodeBanners l

namespace Client

/-- The banners are never skipped: no native reading claims them and no section name spells
them. -/
theorem skipsKey_of_banners (c : Client) {key : String}
    (h : matchField key = some .notifications) : c.skipsKey key = false := by
  have hfold := matchField_eq_some_iff.mp h
  have howned : c.cerboOwned.hasName key = false := by
    unfold OwnedFields.hasName
    cases hn : Field.ofName? key with
    | none => rfl
    | some f =>
      obtain rfl := Field.ofName?_eq_some_iff.mp hn
      obtain rfl : f = .notifications := by
        have hf : matchField f.jsonName = some f := matchField_eq_some_iff.mpr rfl
        exact Option.some.inj (hf.symm.trans h)
      by_contra hown
      exact absurd (c.cerboOwned.direct _ (by simpa using hown)) (by decide)
  have hnames : ∀ name ∈ "telemetry_available" :: nativeSectionNames,
      foldName (Field.jsonName .notifications) ≠ foldName name := by decide
  have htel : (key == "telemetry_available") = false := by
    rw [beq_eq_false_iff_ne]
    rintro rfl
    exact hnames _ List.mem_cons_self hfold
  have hsection : isNativeSectionField key = false := by
    unfold isNativeSectionField
    rw [Bool.eq_false_iff]
    intro hmem
    exact hnames _ (List.mem_cons_of_mem _ (List.contains_iff_mem.mp hmem)) hfold
  rw [skipsKey, howned, htel, hsection]
  rfl

/-- One entry of the merge loop decodes the banners it selects. -/
theorem mergeEntry_banners (c : Client) (acc : State × Frame) (e : String × Any) :
    (c.mergeEntry acc e).1.field .notifications = decodeBanners (acc.1.field .notifications) e := by
  unfold decodeBanners
  by_cases h : matchField e.1 = some .notifications
  · rw [if_pos h, mergeEntry, c.skipsKey_of_banners h]
    unfold State.unmarshalEntry
    rw [h]
    exact State.set_field_self _ _ _
  · rw [if_neg h, mergeEntry]
    split_ifs
    · rfl
    · exact State.unmarshalEntry_of_ne _ _ fun hf => h (matchField_eq_some_iff.mpr hf)

theorem foldl_mergeEntry_banners (c : Client) (data : Frame) (acc : State × Frame) :
    (data.foldl c.mergeEntry acc).1.field .notifications =
      decodedBanners data (acc.1.field .notifications) := by
  induction data generalizing acc with
  | nil => rfl
  | cons e data ih => rw [List.foldl_cons, ih, mergeEntry_banners, decodedBanners, decodedBanners,
      List.foldl_cons]

/-- **State frames.** The list after a state frame is what decoding its entries makes of it, and
the caches stay. -/
theorem commitState_banners {c c' : Client} {data : Frame} {retained : Bool} {now : Time}
    (h : c.commitState data retained now = some c') :
    c'.banners = decodedBanners data c.banners ∧ c'.platformSlots = c.platformSlots ∧
      c'.platformNotifsSeen = c.platformNotifsSeen ∧ c'.alarmValues = c.alarmValues := by
  obtain ⟨c₁, h₁, h⟩ := Option.bind_eq_some_iff.mp h
  obtain rfl := Option.some.inj h
  obtain ⟨st₁, st₂, hm⟩ := merged_of_eq_some _ h₁
  have hov := hm.overlaid.sameBanners
  have hfin := c₁.finishState_spec data retained now
  have hlist : (c.receiveState data retained now).initCerboMaps.banners = c.banners :=
    (initCerboMaps_sameBanners _).banners
  refine ⟨?_, ?_, ?_, ?_⟩
  · calc (c₁.finishState data retained now).banners = c₁.banners := hfin.field _ (by decide)
      _ = (st₂.set .dashboardVersion _).field .notifications := hov.banners
      _ = st₂.field .notifications := State.set_field_ne _ (by decide) _
      _ = st₁.field .notifications := banners_of_snapshot hm.snapshot
      _ = _ := hm.loop _ (by decide)
      _ = decodedBanners data _ := foldl_mergeEntry_banners _ data _
      _ = decodedBanners data c.banners := congrArg _ hlist
  · rw [hfin.frame]
    exact hov.slots
  · rw [hfin.frame]
    exact hov.seen
  · rw [hfin.frame]
    exact hov.alarms

/-- An override frame leaves the banners alone. -/
theorem observeControllerCommands_sameBanners (c : Client) (data : Frame) (retained : Bool)
    (now : Time) : SameBanners c (c.observeControllerCommands data retained now) := by
  have hobs := c.observeControllerCommands_spec data retained now
  refine ⟨hobs.field _ (by decide), ?_, ?_, ?_⟩ <;> rw [hobs.frame]

end Client

/-- A snapshot without a list keeps the previous one. -/
theorem State.preserve_banners (st prev : State) : (st.preserve prev).field .notifications =
    if (st.field .notifications).isNil then prev.field .notifications
    else st.field .notifications := by
  -- Each member is taken over on its own, and only one of the lists has the banners.
  have hpass : ∀ (st : State) (cond : Bool) (fs : List Field), .notifications ∉ fs →
      (st.inherit prev cond fs).field .notifications = st.field .notifications := by
    intro st cond fs hf
    rw [State.inherit_field, if_neg fun h => hf h.2]
  have hown : ∀ (st : State) (cond : Bool),
      (st.inherit prev cond [.notifications]).field .notifications =
        if cond then prev.field .notifications else st.field .notifications := by
    intro st cond
    simp only [State.inherit_field, List.mem_singleton, and_true]
  simp only [State.preserve]
  iterate 12 rw [hpass _ _ _ (by decide)]
  rw [hown]
  iterate 3 rw [hpass _ _ [_] (by decide)]

/-- **Snapshots.** The list of a snapshot replaces the one that is there, unless it is nil. -/
theorem Client.applyState_banners (c : Client) (st : State) (now : Time) :
    (c.applyState st now).banners =
        (if (st.field .notifications).isNil then c.banners else st.field .notifications) ∧
      (c.applyState st now).platformSlots = c.platformSlots ∧
      (c.applyState st now).platformNotifsSeen = c.platformNotifsSeen ∧
      (c.applyState st now).alarmValues = c.alarmValues := by
  unfold Client.applyState
  cases st.field .inverterAvailable <;>
    exact ⟨st.preserve_banners c.state, rfl, rfl, rfl⟩

end Dashboard
