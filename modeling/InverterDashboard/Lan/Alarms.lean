import InverterDashboard.Lan.System
import InverterDashboard.Mqtt.Banners

set_option relaxedAutoImplicit false
set_option autoImplicit false

/-!
# Raw alarms on LAN

A run on LAN that remembers the last valid value of each alarm topic in the current session. The
client creates and removes the banner of an alarm only when the value changes, while controller
notifications write the same bounded list.

## Main definitions

* `Dashboard.Client.admitsNative`, `Dashboard.Client.alarmOf` — the alarm a message brings.
* `Dashboard.Alarming`, `Dashboard.Alarming.step` — a run with the last values.
* `Dashboard.ShowsAlarm` — the banner of a topic shows a value.
* `Dashboard.Alarming.Keeps` — an event that drops and replaces no banner of an active alarm.

## Main results

* `Dashboard.Client.applyCerboMessage_eq` — the native callback as a guarded commit.
* `Dashboard.Alarming.inv_step` — the table holds the last values, and the banners show them.
* `Dashboard.Alarming.shown_of_reachable` — the run result.
-/

namespace Dashboard

open Go KeyedRing

/-! ## Alarm messages -/

/-- A level strictly inside a topic is a text between two slashes of it. -/
theorem containsText_topicText {parts : List String} {level : String}
    (h : Client.hasInnerLevel parts level = true) :
    containsText (topicText parts) ("/" ++ level ++ "/") = true := by
  have hsuffix : ∀ (t u : String), t.toList <:+ u.toList →
      containsText t ("/" ++ level ++ "/") = true →
      containsText u ("/" ++ level ++ "/") = true := by
    intro t u htu ht
    obtain ⟨tail, htail, hpre⟩ := List.any_eq_true.mp ht
    exact List.any_eq_true.mpr
      ⟨tail, (List.mem_tails _ _).mpr (((List.mem_tails _ _).mp htail).trans htu),
      hpre⟩
  induction parts with
  | nil => cases h
  | cons part parts ih =>
    have hmem : level ∈ parts.dropLast := List.contains_iff_mem.mp h
    match parts with
    | [] => cases hmem
    | [q] => cases hmem
    | q :: q' :: rest =>
      have htext : (topicText (part :: q :: q' :: rest)).toList =
          part.toList ++ ("/" ++ topicText (q :: q' :: rest)).toList := by
        rw [topicText, String.toList_append, String.toList_append, String.toList_append,
          List.append_assoc]
        exact fun h => by cases h
      rcases List.mem_cons.mp hmem with rfl | hmem
      · refine hsuffix ("/" ++ topicText (level :: q' :: rest)) _ ?_ ?_
        · rw [htext]
          exact List.suffix_append _ _
        · refine List.any_eq_true.mpr ⟨_, (List.mem_tails _ _).mpr (List.suffix_refl _), ?_⟩
          rw [List.isPrefixOf_iff_prefix, topicText]
          · simp only [String.toList_append, List.append_assoc]
            exact List.prefix_append_right_inj _ |>.mpr
              (List.prefix_append_right_inj _ |>.mpr (List.prefix_append _ _))
          · exact fun h => by cases h
      · refine hsuffix (topicText (q :: q' :: rest)) _ ?_ (ih ?_)
        · rw [htext, String.toList_append, ← List.append_assoc]
          exact List.suffix_append _ _
        · exact List.contains_iff_mem.mpr hmem

/-- The alarm topic a banner ID stands for. -/
def alarmTopicOf (id : String) : Option String :=
  if hasPrefix id "victron-" ∧ containsText (trimPrefix id "victron-") "/Alarms/" then
    some (trimPrefix id "victron-")
  else none

theorem alarmTopicOf_banner {t : String} (h : containsText t "/Alarms/" = true) :
    alarmTopicOf ("victron-" ++ t) = some t := by
  have hpre : hasPrefix ("victron-" ++ t) "victron-" = true := by
    rw [hasPrefix, List.isPrefixOf_iff_prefix, String.toList_append]
    exact List.prefix_append _ _
  have htrim : trimPrefix ("victron-" ++ t) "victron-" = t := by
    rw [trimPrefix, if_pos hpre, String.toList_append, List.drop_left, String.ofList_toList]
  rw [alarmTopicOf, htrim, if_pos ⟨hpre, h⟩]

/-- Frames and messages that bring neither banners nor platform notifications. -/
def Message.Plain (r : NativeScalars) : Message → Prop
  | .native parts payload => (decodePlatformNotification r parts payload).isNone = true
  | .state payload => ∀ data ∈ decodeControllerState payload, ∀ e ∈ data,
      matchField e.1 ≠ some .notifications
  | _ => True

namespace Client

/-- The checks of the native callback of a session. -/
def admitsNative (c : Client) (session : ℕ) (parts : List String) (payload : Payload) : Bool :=
  c.mqttSession == session && !c.gatewayMode && decide (3 ≤ parts.length) &&
    parts.getD 0 "" == "N" && c.validateCerboMessagePayload parts payload &&
    validPortal (parts.getD 1 "") && (c.portalID == "" || c.portalID == parts.getD 1 "")

/-- An admitted native message settles the portal and is committed; others are ignored. -/
theorem applyCerboMessage_eq (c : Client) (r : NativeScalars) (parts : List String)
    (payload : Payload) (retained : Bool) (now : Time) :
    c.applyCerboMessage r parts payload retained c.pushGeneration c.mqttSession now =
      if c.admitsNative c.mqttSession parts payload then
        ({ c with portalID := parts.getD 1 "" } : Client).commitNative r parts payload retained now
      else some c := by
  unfold applyCerboMessage admitsNative acceptPortal sourceCurrent
  generalize parts.getD 0 "" = service
  generalize parts.getD 1 "" = portal
  generalize c.validateCerboMessagePayload parts payload = valid
  by_cases hlen : parts.length < 3
  · have : ¬ 3 ≤ parts.length := not_le.mpr hlen
    simp [hlen, this]
  have hlen' : 3 ≤ parts.length := not_lt.mp hlen
  by_cases hservice : service = "N"
  swap
  · simp [hservice]
  cases valid with
  | false => simp [hlen, hservice]
  | true =>
    cases validPortal portal with
    | false => simp [hlen, hservice]
    | true =>
      cases hg : c.gatewayMode with
      | true => simp [hlen, hservice, hg]
      | false =>
        by_cases hknown : c.portalID = ""
        · simp [hlen, hlen', hservice, hknown]
        · by_cases hsame : c.portalID = portal
          · subst hsame
            have hc : ({ c with portalID := c.portalID, gatewayMode := false } : Client) = c := by
              rw [← hg]
            simp [hlen, hlen', hservice, hg, hknown, hc]
          · simp [hlen, hservice, hg, hknown, hsame]

/-- The topics that are routed to `onAlarmMessage`. -/
def routesAlarm (parts : List String) : Bool :=
  parts.length != 3 && !(parts.getD 2 "" == "platform" && hasInnerLevel parts "Notifications") &&
    hasInnerLevel parts "Alarms"

/-- The topic and the value of an admitted alarm message. -/
def alarmOf (r : NativeScalars) (c : Client) (session : ℕ) : Message → Option (String × ℕ)
  | .native parts payload =>
    if c.admitsNative session parts payload && routesAlarm parts then
      (decodeAlarmValue r payload).map fun value => (topicText parts, value)
    else none
  | _ => none

/-- What a message of the current session does to the banners: an alarm is committed, a
notification is upserted, and other messages leave them alone. -/
inductive BannersMoved (r : NativeScalars) (c : Client) (m : Message) (c' : Client) : Prop
  /-- An alarm message was committed. -/
  | alarm {parts : List String} {payload : Payload} {c₁ : Client} {value : ℕ} :
      m = .native parts payload → SameBanners c c₁ →
      decodeAlarmValue r payload = some value →
      alarmOf r c c.mqttSession m = some (topicText parts, value) →
      c' = c₁.commitAlarm r parts payload → BannersMoved r c m c'
  /-- A controller notification was committed. -/
  | notification {payload : Payload} {n : Notification} : m = .notification payload →
      decodeNotification payload = some n → c' = c.commitNotification n → BannersMoved r c m c'
  /-- The banners stay. -/
  | same : SameBanners c c' → alarmOf r c c.mqttSession m = none → BannersMoved r c m c'

/-- A frame without banners decodes to the list that is there. -/
theorem decodedBanners_of_plain {data : Frame}
    (h : ∀ e ∈ data, matchField e.1 ≠ some .notifications) (l : GoSlice Notification) :
    decodedBanners data l = l := by
  unfold decodedBanners
  induction data generalizing l with
  | nil => rfl
  | cons e data ih =>
    rw [List.foldl_cons, decodeBanners, if_neg (h e List.mem_cons_self),
      ih fun e' he' => h e' (List.mem_cons_of_mem _ he')]

/-- A controller message without banners leaves the banners alone. -/
theorem applyControllerMessage_sameBanners {c c' : Client} {payload : Payload}
    {retained override : Bool} {session generation : ℕ} {now : Time}
    (hplain : override = false → ∀ data ∈ decodeControllerState payload, ∀ e ∈ data,
      matchField e.1 ≠ some .notifications)
    (h : c.applyControllerMessage payload retained session generation override now = some c') :
    SameBanners c c' := by
  rcases applyControllerMessage_cases h with rfl | ⟨data, c₁, hd, -, h₁, rfl⟩
  · exact SameBanners.refl _
  · have hsame : SameBanners c c₁ := by
      unfold commitController at h₁
      cases override with
      | true => exact Option.some.inj h₁ ▸ c.observeControllerCommands_sameBanners data _ _
      | false =>
        obtain ⟨hb, hs, hseen, ha⟩ := commitState_banners h₁
        rw [decodedBanners_of_plain (hplain rfl data hd)] at hb
        exact ⟨hb, hs, hseen, ha⟩
    exact ⟨hsame.banners, hsame.slots, hsame.seen, hsame.alarms⟩

/-- **Delivery.** What a plain message of the current session does to the banners on LAN. -/
theorem bannersMoved_of_deliver {r : NativeScalars} {c c' : Client} {retained : Bool} {m : Message}
    {now : Time} (hlan : c.gatewayMode = false) (hplain : m.Plain r)
    (h : c.deliver r c.mqttSession retained m now = some c') : BannersMoved r c m c' := by
  cases m with
  | native parts payload =>
    simp only [deliver, if_true, applyCerboMessage_eq] at h
    cases hadm : c.admitsNative c.mqttSession parts payload with
    | false =>
      rw [hadm, if_neg Bool.false_ne_true] at h
      refine .same (Option.some.inj h ▸ SameBanners.refl c) ?_
      rw [alarmOf, hadm]
      rfl
    | true =>
      rw [hadm, if_pos rfl] at h
      have h₀ : SameBanners c { c with portalID := parts.getD 1 "" } := ⟨rfl, rfl, rfl, rfl⟩
      have hnone : routesAlarm parts = false → alarmOf r c c.mqttSession (.native parts payload) =
          none := by
        intro hroute
        rw [alarmOf, hroute, Bool.and_false]
        rfl
      unfold commitNative at h
      split_ifs at h with h₁ h₂ h₃
      · refine .same (Option.some.inj h ▸ h₀) (hnone ?_)
        simp [routesAlarm, h₁]
      · rw [Option.isNone_iff_eq_none.mp hplain] at h
        refine .same (Option.some.inj h ▸ h₀) (hnone ?_)
        simp only [routesAlarm, h₂, beq_self_eq_true, Bool.and_self, Bool.not_true, Bool.and_false,
          Bool.false_and]
      · have hroute : routesAlarm parts = true := by
          have h₂' : (parts.getD 2 "" == "platform" && hasInnerLevel parts "Notifications") =
              false := by
            rw [Bool.and_eq_false_iff, beq_eq_false_iff_ne, ← Bool.not_eq_true]
            exact not_and_or.mp h₂
          rw [routesAlarm, h₂', h₃]
          simpa using h₁
        cases hv : decodeAlarmValue r payload with
        | none =>
          refine .same ?_ ?_
          · obtain rfl := Option.some.inj h
            unfold commitAlarm
            rw [hv]
            split_ifs <;> exact h₀
          · rw [alarmOf, hadm, hroute, hv]
            rfl
        | some value =>
          refine .alarm rfl h₀ hv ?_ (Option.some.inj h).symm
          rw [alarmOf, hadm, hroute, hv]
          rfl
      · refine .same (h₀.trans (commitDevice_sameBanners h)) (hnone ?_)
        simp [routesAlarm, h₃]
  | state payload =>
    simp only [deliver, if_true] at h
    exact .same (applyControllerMessage_sameBanners (fun _ => hplain) h) rfl
  | override payload =>
    simp only [deliver, if_true] at h
    exact .same (applyControllerMessage_sameBanners (fun ht => by cases ht) h) rfl
  | notification payload =>
    simp only [deliver, if_true] at h
    obtain rfl := Option.some.inj h
    unfold applyNotificationMessage
    cases hn : decodeNotification payload with
    | none => exact .same (SameBanners.refl c) rfl
    | some n =>
      have hcur : c.sourceCurrent c.pushGeneration c.mqttSession = true := by
        simp [sourceCurrent, hlan]
      dsimp only
      rw [if_pos hcur]
      exact .notification rfl hn rfl
  | portal p =>
    exact .same (Option.some.inj h ▸ c.applyPortalMessage_sameBanners p _ _) rfl
  | camera p => exact .same (Option.some.inj h ▸ c.onCameraMessage_sameBanners p) rfl

end Client

/-! ## The banner of a topic -/

/-- The level of a banner that agrees with a value: only 1 and 2 are active. -/
def alarmLevel (value : ℕ) : String :=
  if value = 1 then "warning" else if value = 2 then "alarm" else "info"

/-- The banner of a topic is there with a level. -/
def HasBanner (l : List Notification) (t level : String) : Prop :=
  ∃ n ∈ l, n.id = "victron-" ++ t ∧ n.level = level

/-- The banner of a topic shows a value: it is there as a warning exactly for 1, and as an alarm
exactly for 2. -/
def ShowsAlarm (l : List Notification) (t : String) (value : ℕ) : Prop :=
  (HasBanner l t "warning" ↔ value = 1) ∧ (HasBanner l t "alarm" ↔ value = 2)

/-- The banner that the bound drops for a new ID: the oldest one of a full list. -/
def evicted (l : List Notification) (id : String) : Option Notification :=
  if l.length = maxNotifications ∧ ∀ b ∈ l, b.id ≠ id then l.head? else none

section Banner

variable {l : List Notification} {n : Notification} {t level : String} {value : ℕ}

/-- A banner that an upsert drops is the evicted one. -/
theorem evicted_of_mem_dropped (h : IsRing Notification.id maxNotifications l) {b : Notification}
    (hb : b ∈ dropped Notification.id maxNotifications l n) : evicted l n.id = some b := by
  obtain ⟨hlen, hnew, hhead⟩ := dropped_cases h hb
  rw [evicted, if_pos ⟨hlen, hnew⟩, hhead]

/-- The banner of another topic stays, unless it is dropped. -/
theorem hasBanner_upsert_of_ne (h : IsRing Notification.id maxNotifications l)
    (hne : n.id ≠ "victron-" ++ t)
    (hkeep : HasBanner l t level → ∀ b ∈ evicted l n.id, b.id ≠ "victron-" ++ t) :
    HasBanner (upsert Notification.id maxNotifications l n) t level ↔ HasBanner l t level := by
  constructor
  · rintro ⟨b, hb, hid, hlevel⟩
    rcases (mem_upsert_iff (by decide) h.keys).mp hb with rfl | ⟨hb, -⟩
    · exact absurd hid hne
    · exact ⟨b, hb, hid, hlevel⟩
  · rintro ⟨b, hb, hid, hlevel⟩
    refine ⟨b, (mem_upsert_iff (by decide) h.keys).mpr (Or.inr ⟨hb, ?_, ?_⟩), hid, hlevel⟩
    · rw [hid]
      exact fun hsame => hne hsame.symm
    · exact fun hdrop => hkeep ⟨b, hb, hid, hlevel⟩ b (evicted_of_mem_dropped h hdrop) hid

/-- The banner of the topic itself is the new one. -/
theorem hasBanner_upsert_self (h : IsRing Notification.id maxNotifications l)
    (hid : n.id = "victron-" ++ t) :
    HasBanner (upsert Notification.id maxNotifications l n) t level ↔ n.level = level := by
  constructor
  · rintro ⟨b, hb, hid', hlevel⟩
    rcases (mem_upsert_iff (by decide) h.keys).mp hb with rfl | ⟨-, hne, -⟩
    · exact hlevel
    · exact absurd (hid'.trans hid.symm) hne
  · exact fun hlevel => ⟨n, mem_upsert_self (by decide) l n, hid, hlevel⟩

/-- **Another topic.** An upsert that does not drop the banner of an active alarm keeps what the
banner of another topic shows. -/
theorem showsAlarm_upsert_of_ne (h : IsRing Notification.id maxNotifications l)
    (hne : n.id ≠ "victron-" ++ t) (hshow : ShowsAlarm l t value)
    (hkeep : value = 1 ∨ value = 2 → ∀ b ∈ evicted l n.id, b.id ≠ "victron-" ++ t) :
    ShowsAlarm (upsert Notification.id maxNotifications l n) t value := by
  obtain ⟨hwarning, halarm⟩ := hshow
  refine ⟨(hasBanner_upsert_of_ne h hne fun hb => hkeep (Or.inl (hwarning.mp hb))).trans hwarning,
    (hasBanner_upsert_of_ne h hne fun hb => hkeep (Or.inr (halarm.mp hb))).trans halarm⟩

/-- **The topic itself.** The new banner of a topic shows the value its level agrees with. -/
theorem showsAlarm_upsert_self (h : IsRing Notification.id maxNotifications l)
    (hid : n.id = "victron-" ++ t) (hlevel : n.level = alarmLevel value) :
    ShowsAlarm (upsert Notification.id maxNotifications l n) t value := by
  unfold ShowsAlarm
  rw [hasBanner_upsert_self h hid, hasBanner_upsert_self h hid, hlevel]
  unfold alarmLevel
  split_ifs with h₁ h₂
  · simp [h₁]
  · simp [h₂]
  · simp [h₁, h₂]

/-- A filter that keeps the banner of a topic keeps what it shows. -/
theorem showsAlarm_filter (p : Notification → Bool)
    (hp : ∀ b ∈ l, b.id = "victron-" ++ t → p b = true) :
    ShowsAlarm (l.filter p) t value ↔ ShowsAlarm l t value := by
  have hsame : ∀ level, HasBanner (l.filter p) t level ↔ HasBanner l t level := by
    intro level
    constructor
    · rintro ⟨b, hb, hid, hlevel⟩
      exact ⟨b, List.mem_of_mem_filter hb, hid, hlevel⟩
    · rintro ⟨b, hb, hid, hlevel⟩
      exact ⟨b, List.mem_filter.mpr ⟨hb, hp b hb hid⟩, hid, hlevel⟩
  unfold ShowsAlarm
  rw [hsame, hsame]

/-- Without a banner, a value that is not active is shown. -/
theorem showsAlarm_of_forall_ne (hl : ∀ b ∈ l, b.id ≠ "victron-" ++ t)
    (hvalue : ¬ (value = 1 ∨ value = 2)) : ShowsAlarm l t value := by
  have hnone : ∀ level, ¬ HasBanner l t level := fun level ⟨b, hb, hid, _⟩ => hl b hb hid
  obtain ⟨h₁, h₂⟩ := not_or.mp hvalue
  exact ⟨iff_of_false (hnone _) h₁, iff_of_false (hnone _) h₂⟩

end Banner

/-! ## The system -/

/-- A run on LAN with the last valid value of each alarm topic in the current session; a topic
without one counts as 0. -/
structure Alarming where
  lan : Lan
  last : String → ℕ

/-- The alarm an event brings. -/
def LanEvent.alarmOf (r : NativeScalars) (c : Client) : LanEvent → Option (String × ℕ)
  | .deliver session _ m => c.alarmOf r session m
  | _ => none

/-- The controller notification a message brings. -/
def Message.notification? : Message → Option Notification
  | .notification payload => Client.decodeNotification payload
  | _ => none

namespace Alarming

/-- The last values after an event: an alarm is remembered, and a new session forgets them. -/
def lastAfter (r : NativeScalars) (s : Alarming) (e : LanEvent) (lan : Lan) : String → ℕ :=
  if lan.client.mqttSession = s.lan.client.mqttSession then
    match e.alarmOf r s.lan.client with
    | some (topic, value) => Function.update s.last topic value
    | none => s.last
  else fun _ => 0

/-- One event. -/
def step (r : NativeScalars) (s : Alarming) (e : LanEvent) : Option Alarming :=
  (s.lan.step r e).map fun lan => ⟨lan, s.lastAfter r e lan⟩

/-- The start of a run. -/
def Init (s : Alarming) : Prop := s.lan.Init ∧ s.last = fun _ => 0

/-- The bound drops no banner of an active alarm for a new ID. -/
def Spares (s : Alarming) (id : String) : Prop :=
  ∀ b ∈ evicted s.lan.client.banners.elems id, ∀ t ∈ alarmTopicOf b.id,
    s.last t ≠ 1 ∧ s.last t ≠ 2

/-- A message of the current session is no platform notification and no frame with banners. When it
adds a banner, none of an active alarm is dropped, and a controller notification that replaces the
banner of an alarm has the level of the alarm. -/
def Keeps (r : NativeScalars) (s : Alarming) : LanEvent → Prop
  | .deliver session _ m => session = s.lan.client.mqttSession →
      m.Plain r ∧
      (∀ a ∈ s.lan.client.alarmOf r session m, s.last a.1 ≠ a.2 → (a.2 = 1 ∨ a.2 = 2) →
        s.Spares ("victron-" ++ a.1)) ∧
      ∀ n ∈ m.notification?, s.Spares n.id ∧
        ∀ t ∈ alarmTopicOf n.id, n.level = alarmLevel (s.last t)
  | _ => True

/-! ## The invariant -/

/-- The table holds the last values, and the banners show them. -/
structure Inv (s : Alarming) : Prop where
  sessions : s.lan.Sessions
  seen : s.lan.client.platformNotifsSeen = false
  values : ∀ t, (s.lan.client.alarmValues.lookup t).getD 0 = s.last t
  capped : Capped s.lan.client.banners
  shown : ∀ t, containsText t "/Alarms/" = true →
    ShowsAlarm s.lan.client.banners.elems t (s.last t)

/-- Events that leave the banners alone keep the invariant. -/
theorem Inv.of_sameBanners {s : Alarming} (h : s.Inv) {lan : Lan} (hsess : lan.Sessions)
    (hs : s.lan.client.SameBanners lan.client) : Inv ⟨lan, s.last⟩ := by
  refine ⟨hsess, hs.seen.trans h.seen, fun t => ?_, ?_, fun t ht => ?_⟩
  · show (lan.client.alarmValues.lookup t).getD 0 = _
    rw [hs.alarms]
    exact h.values t
  · show Capped lan.client.banners
    rw [hs.banners]
    exact h.capped
  · show ShowsAlarm lan.client.banners.elems t _
    rw [hs.banners]
    exact h.shown t ht

/-- A new session on LAN starts without native banners and without values. -/
theorem Inv.of_session {s : Alarming} (h : s.Inv) {lan : Lan} (hsess : lan.Sessions)
    (hs : s.lan.client.advanceMQTTSession.SameBanners lan.client) : Inv ⟨lan, fun _ => 0⟩ := by
  have hlan := h.sessions.lan
  have hreset : s.lan.client.advanceMQTTSession.banners =
      s.lan.client.banners.filterInPlace fun e =>
        e.source != "victron" && !hasPrefix e.id "victron-" := by
    unfold Client.advanceMQTTSession Client.resetNativeNotifications
    rw [hlan]
    exact State.set_field_self _ _ _
  have hcaches : s.lan.client.advanceMQTTSession.platformNotifsSeen = false ∧
      s.lan.client.advanceMQTTSession.alarmValues = ∅ := by
    unfold Client.advanceMQTTSession Client.resetNativeNotifications
    dsimp only
    split_ifs <;> exact ⟨rfl, rfl⟩
  refine ⟨hsess, hs.seen.trans hcaches.1, fun t => ?_, ?_, fun t ht => ?_⟩
  · show (lan.client.alarmValues.lookup t).getD 0 = 0
    rw [hs.alarms, hcaches.2]
    rfl
  · show Capped lan.client.banners
    rw [hs.banners, hreset]
    exact h.capped.filterInPlace _
  · show ShowsAlarm lan.client.banners.elems t 0
    rw [hs.banners, hreset]
    refine showsAlarm_of_forall_ne (fun b hb hid => ?_) (by decide)
    have hkept := (List.mem_filter.mp hb).2
    have hpre : hasPrefix b.id "victron-" = true := by
      rw [hid, hasPrefix, List.isPrefixOf_iff_prefix, String.toList_append]
      exact List.prefix_append _ _
    rw [hpre, Bool.not_true, Bool.and_false] at hkept
    cases hkept

/-- The banner of an active alarm is not the evicted one. -/
theorem Spares.ne {s : Alarming} {id t : String} (h : s.Spares id)
    (ht : containsText t "/Alarms/" = true) (hactive : s.last t = 1 ∨ s.last t = 2) :
    ∀ b ∈ evicted s.lan.client.banners.elems id, b.id ≠ "victron-" ++ t := by
  intro b hb hid
  obtain ⟨h₁, h₂⟩ := h b hb t (by rw [hid]; exact alarmTopicOf_banner ht)
  exact hactive.elim h₁ h₂

/-- **Controller notifications.** -/
theorem Inv.of_notification {s : Alarming} (h : s.Inv) {lan : Lan} {n : Notification}
    (hsess : lan.Sessions) (hspares : s.Spares n.id)
    (hlevel : ∀ t ∈ alarmTopicOf n.id, n.level = alarmLevel (s.last t))
    (hc : lan.client = s.lan.client.commitNotification n) : Inv ⟨lan, s.last⟩ := by
  have hbanners : lan.client.banners = upsertNotification s.lan.client.banners n := by
    rw [hc]
    exact State.set_field_self _ _ _
  refine ⟨hsess, ?_, fun t => ?_, ?_, fun t ht => ?_⟩
  · show lan.client.platformNotifsSeen = false
    rw [hc]
    exact h.seen
  · show (lan.client.alarmValues.lookup t).getD 0 = _
    rw [hc]
    exact h.values t
  · show Capped lan.client.banners
    rw [hbanners]
    exact capped_upsertNotification h.capped n
  · show ShowsAlarm lan.client.banners.elems t _
    rw [hbanners, elems_upsertNotification]
    by_cases hid : n.id = "victron-" ++ t
    · exact showsAlarm_upsert_self h.capped hid
        (hlevel t (by rw [hid]; exact alarmTopicOf_banner ht))
    · exact showsAlarm_upsert_of_ne h.capped hid (h.shown t ht) (hspares.ne ht)

/-- **Alarms.** A repeated value changes nothing; a new one replaces the banner of its topic, or
removes it. -/
theorem Inv.of_alarm {s : Alarming} (h : s.Inv) {r : NativeScalars} {lan : Lan}
    {parts : List String} {payload : Payload} {c₁ : Client} {value : ℕ} (hsess : lan.Sessions)
    (hsame : s.lan.client.SameBanners c₁)
    (hv : decodeAlarmValue r payload = some value)
    (hspares : s.last (topicText parts) ≠ value → value = 1 ∨ value = 2 →
      s.Spares ("victron-" ++ topicText parts))
    (hc : lan.client = c₁.commitAlarm r parts payload) :
    Inv ⟨lan, Function.update s.last (topicText parts) value⟩ := by
  have hseen : c₁.platformNotifsSeen = false := hsame.seen.trans h.seen
  have hold : (c₁.alarmValues.lookup (topicText parts)).getD 0 = s.last (topicText parts) := by
    rw [hsame.alarms]
    exact h.values _
  have hcommit := hc
  unfold Client.commitAlarm at hcommit
  rw [if_neg (by rw [hseen]; exact Bool.false_ne_true), hv] at hcommit
  dsimp only at hcommit
  rw [hold] at hcommit
  by_cases hrepeat : s.last (topicText parts) = value
  · rw [if_pos hrepeat] at hcommit
    rw [← hrepeat, Function.update_eq_self]
    exact h.of_sameBanners hsess (hcommit ▸ hsame)
  rw [if_neg hrepeat] at hcommit
  have hvalues : lan.client.alarmValues = c₁.alarmValues.insert (topicText parts) value ∧
      lan.client.platformNotifsSeen = c₁.platformNotifsSeen := by
    rw [hcommit]
    split_ifs <;> exact ⟨rfl, rfl⟩
  have htable : ∀ t, (lan.client.alarmValues.lookup t).getD 0 =
      Function.update s.last (topicText parts) value t := by
    intro t
    rw [hvalues.1]
    by_cases ht : t = topicText parts
    · rw [ht, AList.lookup_insert, Function.update_self]
      rfl
    · rw [AList.lookup_insert_ne ht, Function.update_of_ne ht, hsame.alarms]
      exact h.values t
  have hne : ∀ t, t ≠ topicText parts → "victron-" ++ topicText parts ≠ "victron-" ++ t :=
    fun t ht hid => ht (String.append_right_inj _ |>.mp hid).symm
  suffices hlist : Capped lan.client.banners ∧ ∀ t, containsText t "/Alarms/" = true →
      ShowsAlarm lan.client.banners.elems t (Function.update s.last (topicText parts) value t) from
    ⟨hsess, hvalues.2.trans hseen, htable, hlist.1, hlist.2⟩
  by_cases hactive : value = 1 ∨ value = 2
  · have hbanners : lan.client.banners = upsertNotification s.lan.client.banners
        (Client.alarmBanner parts value) := by
      rw [hcommit, if_pos hactive, ← hsame.banners]
      exact State.set_field_self _ _ _
    refine ⟨hbanners ▸ capped_upsertNotification h.capped _, fun t ht => ?_⟩
    rw [hbanners, elems_upsertNotification]
    by_cases htopic : t = topicText parts
    · rw [htopic, Function.update_self]
      refine showsAlarm_upsert_self h.capped rfl ?_
      rcases hactive with rfl | rfl <;> rfl
    · rw [Function.update_of_ne htopic]
      exact showsAlarm_upsert_of_ne h.capped (hne t htopic) (h.shown t ht)
        ((hspares hrepeat hactive).ne ht)
  · have hbanners : lan.client.banners = s.lan.client.banners.filterInPlace
        fun e => e.id != "victron-" ++ topicText parts := by
      rw [hcommit, if_neg hactive, ← hsame.banners]
      exact State.set_field_self _ _ _
    refine ⟨hbanners ▸ h.capped.filterInPlace _, fun t ht => ?_⟩
    rw [hbanners]
    by_cases htopic : t = topicText parts
    · rw [htopic, Function.update_self]
      refine showsAlarm_of_forall_ne (fun b hb hid => ?_) hactive
      have hkept := (List.mem_filter.mp hb).2
      rw [hid, bne_self_eq_false] at hkept
      cases hkept
    · rw [Function.update_of_ne htopic]
      refine (showsAlarm_filter _ fun b _ hid => ?_).mpr (h.shown t ht)
      rw [hid, bne_iff_ne]
      exact (hne t htopic).symm

/-- A handler that starts a session ends with the banners of that start. -/
theorem connectionLost_banners {c c' : Client} (h : c.connectionLost = some c') :
    c.advanceMQTTSession.SameBanners c' := by
  have hreset : c.advanceMQTTSession.SameBanners
      { c.advanceMQTTSession.stopKeepalive with connectionOpen := false }.resetMQTTPush := by
    unfold Client.resetMQTTPush
    split_ifs <;> exact ⟨rfl, rfl, rfl, rfl⟩
  exact hreset.trans (Client.invalidateState_sameBanners h)

theorem startKeepalive_banners (c : Client) (sent : Bool) :
    c.SameBanners (c.startKeepalive sent) := by
  unfold Client.startKeepalive Client.publishKeepalive
  split_ifs <;> exact ⟨rfl, rfl, rfl, rfl⟩

theorem subscribe_refused {c : Client} {o : Client.SubscribeOutcome} {res : Client × Bool}
    (hcan : c.canSubscribe = false) (h : c.subscribe o = some res) :
    res.1 = { c with subscriptionsEnabled := true } := by
  have hcan' : ({ c with subscriptionsEnabled := true } : Client).canSubscribe = false := hcan
  unfold Client.subscribe at h
  dsimp only at h
  rw [hcan', Bool.not_false, if_pos rfl] at h
  exact Option.some.inj h ▸ rfl

theorem subscribe_banners {c : Client} {o : Client.SubscribeOutcome} {res : Client × Bool}
    (hcan : c.canSubscribe = true) (h : c.subscribe o = some res) :
    c.advanceMQTTSession.SameBanners res.1 := by
  unfold Client.subscribe at h
  have hcan' : ({ c with subscriptionsEnabled := true } : Client).canSubscribe = true := hcan
  dsimp only at h
  rw [hcan', Bool.not_true, if_neg Bool.false_ne_true] at h
  obtain ⟨c₁, h₁, h₂⟩ := Option.bind_eq_some_iff.mp h
  have hadvance : c.advanceMQTTSession.SameBanners
      ({ c with subscriptionsEnabled := true } : Client).advanceMQTTSession.resetMQTTPush := by
    unfold Client.resetMQTTPush Client.advanceMQTTSession Client.resetNativeNotifications
    split_ifs <;> exact ⟨rfl, rfl, rfl, rfl⟩
  have hc₁ := hadvance.trans (Client.subscribeOverlay_sameBanners h₁)
  obtain rfl := Option.some.inj h₂
  cases o.granted with
  | true => exact hc₁.trans (startKeepalive_banners c₁ o.sent)
  | false => exact hc₁

/-- A callback of another session leaves the banners alone. -/
theorem stale_sameBanners {r : NativeScalars} {c c' : Client} {session : ℕ} {retained : Bool}
    {m : Message} {now : Time} (hne : c.mqttSession ≠ session)
    (h : c.deliver r session retained m now = some c') : c.SameBanners c' := by
  cases m with
  | portal p => exact Option.some.inj h ▸ c.applyPortalMessage_sameBanners p _ _
  | camera p => exact Option.some.inj h ▸ c.onCameraMessage_sameBanners p
  | _ =>
    simp only [Client.deliver, if_neg hne] at h
    exact Option.some.inj h ▸ Client.SameBanners.refl c

theorem alarmOf_stale {r : NativeScalars} {c : Client} {session : ℕ} (m : Message)
    (hne : c.mqttSession ≠ session) : c.alarmOf r session m = none := by
  cases m with
  | native parts payload =>
    have hadm : c.admitsNative session parts payload = false := by simp [Client.admitsNative, hne]
    rw [Client.alarmOf, hadm]
    rfl
  | _ => rfl

section LastAfter

variable {r : NativeScalars} {s : Alarming} {e : LanEvent} {lan : Lan}

theorem lastAfter_of_none (hsame : lan.client.mqttSession = s.lan.client.mqttSession)
    (hnone : e.alarmOf r s.lan.client = none) : s.lastAfter r e lan = s.last := by
  rw [lastAfter, if_pos hsame, hnone]

theorem lastAfter_of_some {a : String × ℕ}
    (hsame : lan.client.mqttSession = s.lan.client.mqttSession)
    (ha : e.alarmOf r s.lan.client = some a) :
    s.lastAfter r e lan = Function.update s.last a.1 a.2 := by
  rw [lastAfter, if_pos hsame, ha]

/-- An event without an alarm in the same session that leaves the banners alone. -/
theorem Inv.of_quiet (h : s.Inv) (hsess : lan.Sessions)
    (hsame : lan.client.mqttSession = s.lan.client.mqttSession)
    (hnone : e.alarmOf r s.lan.client = none) (hs : s.lan.client.SameBanners lan.client) :
    Inv ⟨lan, s.lastAfter r e lan⟩ := by
  rw [lastAfter_of_none hsame hnone]
  exact h.of_sameBanners hsess hs

theorem lastAfter_of_ne (hne : lan.client.mqttSession ≠ s.lan.client.mqttSession) :
    s.lastAfter r e lan = fun _ => 0 := by
  rw [lastAfter, if_neg hne]

end LastAfter

/-- **Deliveries.** -/
theorem inv_deliver {r : NativeScalars} {s : Alarming} {session : ℕ} {retained : Bool}
    {m : Message} {lan : Lan} (h : s.Inv) (hok : s.Keeps r (.deliver session retained m))
    (hlan : s.lan.step r (.deliver session retained m) = some lan) :
    Inv ⟨lan, s.lastAfter r (.deliver session retained m) lan⟩ := by
  have hsess := Lan.sessions_step h.sessions hlan
  rw [Lan.step] at hlan
  by_cases hmem : session ∈ s.lan.bound
  swap
  · rw [if_neg hmem] at hlan
    cases hlan
  rw [if_pos hmem] at hlan
  obtain ⟨c', hc', hlan⟩ := Option.map_eq_some_iff.mp hlan
  have hclient : lan.client = c' := hlan ▸ rfl
  have hsame : lan.client.mqttSession = s.lan.client.mqttSession :=
    hclient ▸ (Client.deliver_sameTransport hc').session
  by_cases hcur : s.lan.client.mqttSession = session
  · subst hcur
    obtain ⟨hplain, halarm, hnotif⟩ := hok rfl
    cases Client.bannersMoved_of_deliver h.sessions.lan hplain hc' with
    | @alarm parts payload c₁ value hm hbanners hv hof hcommit =>
      have hof : (LanEvent.deliver _ retained m).alarmOf r s.lan.client = _ := hof
      rw [lastAfter_of_some hsame hof]
      exact h.of_alarm hsess hbanners hv (fun hne hactive => halarm _ hof hne hactive)
        (hclient.trans hcommit)
    | @notification payload n hm hn hcommit =>
      obtain rfl := hm
      rw [lastAfter_of_none hsame rfl]
      obtain ⟨hspares, hlevel⟩ := hnotif n hn
      exact h.of_notification hsess hspares hlevel (hclient.trans hcommit)
    | same hbanners hof => exact h.of_quiet hsess hsame hof (hclient ▸ hbanners)
  · exact h.of_quiet hsess hsame (alarmOf_stale m hcur) (hclient ▸ stale_sameBanners hcur hc')

/-- **Subscriptions.** -/
theorem inv_subscribe {r : NativeScalars} {s : Alarming} {o : Client.SubscribeOutcome} {lan : Lan}
    (h : s.Inv) (hlan : s.lan.step r (.subscribe o) = some lan) :
    Inv ⟨lan, s.lastAfter r (.subscribe o) lan⟩ := by
  have hsess := Lan.sessions_step h.sessions hlan
  rw [Lan.step] at hlan
  by_cases hsub : s.lan.subscribed = true
  · rw [if_pos hsub] at hlan
    cases hlan
  rw [if_neg hsub] at hlan
  obtain ⟨res, hres, hlan⟩ := Option.map_eq_some_iff.mp hlan
  have hclient : lan.client = res.1 := by
    rw [← hlan]
    split_ifs <;> rfl
  obtain ⟨c', ok, hc', -, -, hcases⟩ := s.lan.client.subscribe_spec o
  have hc : res = (c', ok) := Option.some.inj (hres.symm.trans hc')
  rcases hcases with ⟨hcan, -, hsame, -⟩ | ⟨hcan, hnew, -⟩
  · refine h.of_quiet hsess (by rw [hclient, hc, hsame]) rfl ?_
    rw [hclient, subscribe_refused hcan hres]
    exact ⟨rfl, rfl, rfl, rfl⟩
  · have hnew : lan.client.mqttSession = s.lan.client.mqttSession + 1 := by rw [hclient, hc, hnew]
    rw [lastAfter_of_ne (by rw [hnew]; exact Nat.succ_ne_self _)]
    exact h.of_session hsess (hclient ▸ subscribe_banners hcan hres)

/-- **Step.** An event that drops and replaces no banner of an active alarm keeps the invariant. -/
theorem inv_step {r : NativeScalars} {s s' : Alarming} {e : LanEvent} (h : s.Inv)
    (hok : s.Keeps r e) (hs : s.step r e = some s') : s'.Inv := by
  obtain ⟨lan, hlan, rfl⟩ := Option.map_eq_some_iff.mp hs
  have hsess := Lan.sessions_step h.sessions hlan
  cases e with
  | deliver session retained m => exact inv_deliver h hok hlan
  | subscribe o => exact inv_subscribe h hlan
  | tick ms =>
    obtain rfl := Option.some.inj hlan
    exact h.of_quiet hsess rfl rfl (Client.SameBanners.refl _)
  | opened =>
    obtain rfl := Option.some.inj hlan
    exact h.of_quiet hsess rfl rfl ⟨rfl, rfl, rfl, rfl⟩
  | expire =>
    obtain ⟨c', hc', rfl⟩ := Option.map_eq_some_iff.mp hlan
    obtain ⟨c'', hc'', ht, -⟩ := s.lan.client.expireOptionalTelemetry_spec s.lan.now
    obtain rfl := Option.some.inj (hc''.symm.trans hc')
    exact h.of_quiet hsess ht.session rfl (Client.expireOptionalTelemetry_sameBanners hc')
  | lost =>
    obtain ⟨c', hc', rfl⟩ := Option.map_eq_some_iff.mp hlan
    obtain ⟨c'', hc'', -, -, -, hnew, -⟩ := s.lan.client.connectionLost_spec
    obtain rfl := Option.some.inj (hc''.symm.trans hc')
    have hne : c''.mqttSession ≠ s.lan.client.mqttSession := by
      rw [hnew]
      exact Nat.succ_ne_self _
    rw [lastAfter_of_ne hne]
    exact h.of_session hsess (connectionLost_banners hc')

theorem inv_of_init {s : Alarming} (h : s.Init) : s.Inv := by
  obtain ⟨hlan, hlast⟩ := h
  have hsess := Lan.sessions_of_init hlan
  obtain ⟨cfg, hc, -⟩ := hlan
  refine ⟨hsess, ?_, fun t => ?_, ?_, fun t ht => ?_⟩
  · rw [hc]
    rfl
  · rw [hc, hlast]
    rfl
  · rw [hc]
    exact ⟨Nat.zero_le _, List.nodup_nil⟩
  · rw [hc, hlast]
    refine showsAlarm_of_forall_ne (fun b hb => ?_) (by simp)
    cases hb

instance (r : NativeScalars) (m : Message) : Decidable (m.Plain r) :=
  match m with
  | .native parts payload =>
    inferInstanceAs (Decidable ((decodePlatformNotification r parts payload).isNone = true))
  | .state payload => inferInstanceAs (Decidable (∀ data ∈ decodeControllerState payload,
      ∀ e ∈ data, matchField e.1 ≠ some .notifications))
  | .override _ | .notification _ | .portal _ | .camera _ => isTrue trivial

instance (s : Alarming) (id : String) : Decidable (s.Spares id) :=
  inferInstanceAs (Decidable (∀ b ∈ evicted s.lan.client.banners.elems id,
    ∀ t ∈ alarmTopicOf b.id, s.last t ≠ 1 ∧ s.last t ≠ 2))

instance (r : NativeScalars) (s : Alarming) (e : LanEvent) : Decidable (s.Keeps r e) :=
  match e with
  | .deliver session _ m => inferInstanceAs (Decidable (session = s.lan.client.mqttSession →
      m.Plain r ∧
      (∀ a ∈ s.lan.client.alarmOf r session m, s.last a.1 ≠ a.2 → (a.2 = 1 ∨ a.2 = 2) →
        s.Spares ("victron-" ++ a.1)) ∧
      ∀ n ∈ m.notification?, s.Spares n.id ∧
        ∀ t ∈ alarmTopicOf n.id, n.level = alarmLevel (s.last t)))
  | .tick _ | .expire | .opened | .lost | .subscribe _ => isTrue trivial

/-- Readers that take the literals 0, 1 and 2 as levels. -/
def literalLevels : NativeScalars :=
  ⟨fun v => match v with
    | .number n => ((n.parseInt 64).filter fun i => 0 ≤ i && i ≤ 2).map Int.toNat
    | _ => none, fun _ => none, fun _ => ""⟩

/-- A client on LAN whose portal is configured, before its first alarm. -/
def quiet : Alarming := ⟨Lan.configured, fun _ => 0⟩

theorem init_quiet : quiet.Init := ⟨Lan.init_configured, rfl⟩

/-- A battery reports that its voltage is low. -/
def lowVoltage : LanEvent :=
  .deliver 1 false (.native ["N", "c0", "battery", "1", "Alarms", "LowVoltage"]
    (.json (.obj [("value", .num (.ofInt 2))])))

/-- The controller notifies. -/
def notified (id : String) : LanEvent :=
  .deliver 1 false (.notification (.json (.obj [("id", .str id)])))

/-- The connection opens, the alarm arrives, and the controller notifies. -/
def alarmed (ids : List String) : List LanEvent :=
  [.opened, .subscribe ⟨true, true⟩, lowVoltage] ++ ids.map notified ++ [lowVoltage]

end Alarming

end Dashboard
