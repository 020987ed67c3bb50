import InverterDashboard.Mqtt.Banners
import InverterDashboard.Source.Fence

set_option relaxedAutoImplicit false
set_option autoImplicit false

/-!
# The banner list over whole runs

The six writers of the banner list in a run of callbacks, retirements and snapshots: controller
notifications, raw alarms, platform notifications, state frames, `ApplyState` and the reset of a
retired source. The first three and the reset restore the bound and the distinct IDs whatever they
start from; a state frame and a snapshot install the list they bring as it is.

## Main definitions

* `Dashboard.Client.TidyBanners` — the list is within its bound, and the slots are under their keys.
* `Dashboard.FencedEvent.BringsTidy` — the list a frame or a snapshot brings is within the bound.

## Main results

* `Dashboard.Fenced.tidy_step` — every step whose list is within the bound keeps it.
* `Dashboard.Fenced.capped_of_reachable` — the run result.
-/

namespace Dashboard

open Go KeyedRing

namespace Client

/-- The list is within its bound, and each slot is stored under its own key. -/
structure TidyBanners (c : Client) : Prop where
  capped : Capped c.banners
  slots : KeyedSlots c.platformSlots

theorem TidyBanners.of_sameBanners {c c' : Client} (h : c.TidyBanners) (hs : SameBanners c c') :
    c'.TidyBanners :=
  ⟨hs.banners ▸ h.capped, hs.slots ▸ h.slots⟩

/-- A list that replaces the banners is read back. -/
theorem banners_setBanners (c : Client) (l : GoSlice Notification) :
    (c.setBanners l).banners = l := State.set_field_self _ _ _

/-! ## The writers -/

theorem TidyBanners.commitNotification {c : Client} (h : c.TidyBanners) (n : Notification) :
    (c.commitNotification n).TidyBanners := by
  refine ⟨?_, h.slots⟩
  rw [Client.commitNotification, banners_setBanners]
  exact capped_upsertNotification h.capped n

theorem TidyBanners.commitAlarm {c : Client} (h : c.TidyBanners) (r : NativeScalars)
    (parts : List String) (payload : Payload) : (c.commitAlarm r parts payload).TidyBanners := by
  unfold Client.commitAlarm
  split_ifs
  · exact h
  · cases decodeAlarmValue r payload with
    | none => exact h
    | some value =>
      dsimp only
      split_ifs
      · exact h
      · refine ⟨?_, h.slots⟩
        rw [banners_setBanners]
        exact capped_upsertNotification h.capped _
      · refine ⟨?_, h.slots⟩
        rw [banners_setBanners]
        exact h.capped.filterInPlace _

theorem TidyBanners.commitPlatform {c : Client} (h : c.TidyBanners) (r : NativeScalars)
    (u : PlatformUpdate) : (c.commitPlatform r u).TidyBanners :=
  ⟨capped_commitPlatform h.capped h.slots r u, keyedSlots_update h.slots r u⟩

theorem TidyBanners.resetNativeNotifications {c : Client} (h : c.TidyBanners)
    (clearBanners : Bool) : (c.resetNativeNotifications clearBanners).TidyBanners := by
  unfold Client.resetNativeNotifications
  dsimp only
  split_ifs
  · refine ⟨?_, keyedSlots_empty⟩
    rw [banners_setBanners]
    exact h.capped.filterInPlace _
  · exact ⟨h.capped, keyedSlots_empty⟩

/-- A controller frame keeps the bound when the list it decodes to is within it. -/
theorem TidyBanners.commitController {c c' : Client} (h : c.TidyBanners) {override : Bool}
    {data : Frame} {retained : Bool} {now : Time}
    (hok : override = false → Capped (decodedBanners data c.banners))
    (hc : c.commitController override data retained now = some c') : c'.TidyBanners := by
  unfold Client.commitController at hc
  cases override with
  | true =>
    rw [if_pos rfl] at hc
    obtain rfl := Option.some.inj hc
    exact h.of_sameBanners (c.observeControllerCommands_sameBanners data retained now)
  | false =>
    rw [if_neg Bool.false_ne_true] at hc
    obtain ⟨hb, hs, -⟩ := commitState_banners hc
    exact ⟨hb ▸ hok rfl, hs ▸ h.slots⟩

/-- A snapshot keeps the bound when its list is nil or within it. -/
theorem TidyBanners.applyState {c : Client} (h : c.TidyBanners) {st : State} (now : Time)
    (hok : (st.field .notifications).isNil = false → Capped (st.field .notifications)) :
    (c.applyState st now).TidyBanners := by
  obtain ⟨hb, hs, -⟩ := c.applyState_banners st now
  refine ⟨?_, hs ▸ h.slots⟩
  rw [hb]
  split_ifs with hnil
  · exact h.capped
  · exact hok (by simpa using hnil)

theorem tidyBanners_newClient (cfg : Config) : (newClient cfg).TidyBanners :=
  ⟨⟨Nat.zero_le _, List.nodup_nil⟩, keyedSlots_empty⟩

end Client

/-! ## Sections and mutations -/

/-- The state frame a section decodes into the state. -/
def Section.stateFrame : Section → Option Frame
  | .controller false data => some data
  | _ => none

/-- A section keeps the bound when the list its frame decodes to is within it. -/
theorem Section.tidy_commit {r : NativeScalars} {c : Client} {retained : Bool} {now : Time}
    {sec : Section} {res : Client × Bool} (h : c.TidyBanners)
    (hok : ∀ data ∈ sec.stateFrame, Capped (decodedBanners data c.banners))
    (hc : sec.commit r c retained now = some res) : res.1.TidyBanners := by
  cases sec with
  | portal p =>
    simp only [Section.commit] at hc
    split_ifs at hc
    · exact Option.some.inj hc ▸ h
    · exact Option.some.inj hc ▸ ⟨h.capped, h.slots⟩
  | platform u => exact Option.some.inj hc ▸ h.commitPlatform r u
  | alarm parts payload => exact Option.some.inj hc ▸ h.commitAlarm r parts payload
  | notification n => exact Option.some.inj hc ▸ h.commitNotification n
  | device parts payload =>
    obtain ⟨⟨c₁, changed⟩, h₁, rfl⟩ := Option.map_eq_some_iff.mp hc
    have hsame := Client.handleCerboDevice_sameBanners h₁
    exact ⟨hsame.banners ▸ h.capped, hsame.slots ▸ h.slots⟩
  | controller override data =>
    obtain ⟨c₁, h₁, rfl⟩ := Option.map_eq_some_iff.mp hc
    refine h.commitController (fun hover => ?_) h₁
    subst hover
    exact hok data rfl

/-- A change of the tokens keeps the bound. -/
theorem Mutation.tidy_apply {c : Client} (h : c.TidyBanners) (m : Mutation) :
    (m.apply c).TidyBanners := by
  cases m with
  | banners always => exact h.resetNativeNotifications _
  | mqttGeneration =>
    show c.resetMQTTPush.TidyBanners
    unfold Client.resetMQTTPush
    split_ifs
    · exact h
    · exact ⟨h.capped, h.slots⟩
  | session | mode _ | generation _ | disconnect => exact ⟨h.capped, h.slots⟩

/-! ## Runs -/

/-- The state frame a callback is about to commit. -/
def Callback.stateFrame (b : Callback) : Option Frame :=
  match b.pc with
  | .checked sec _ => sec.stateFrame
  | _ => none

/-- The list that a state frame decodes to, or that a snapshot brings, has at most
`maxNotifications` banners with distinct IDs. -/
def FencedEvent.BringsTidy (s : Fenced) : FencedEvent → Prop
  | .callback i => ∀ data ∈ (s.callbacks i).bind Callback.stateFrame,
      Capped (decodedBanners data s.client.banners)
  | .apply st => (st.field .notifications).isNil = false → Capped (st.field .notifications)
  | _ => True

namespace Fenced

/-- The start of a run. -/
def Fresh (s : Fenced) : Prop := s.Init ∧ ∃ cfg, s.client = newClient cfg

theorem tidy_stepCallback {r : NativeScalars} {s s' : Fenced} {i : ℕ} {b : Callback}
    (h : s.client.TidyBanners)
    (hok : ∀ data ∈ b.stateFrame, Capped (decodedBanners data s.client.banners))
    (hs : s.stepCallback r i b = some s') : s'.client.TidyBanners := by
  rcases client_of_stepCallback hs with hsame | hchecked
  · exact hsame ▸ h
  · obtain ⟨session, retained, message, generation, pc⟩ := b
    cases pc with
    | checked sec rest =>
      obtain ⟨res, hres, rfl⟩ := Option.map_eq_some_iff.mp hs
      exact sec.tidy_commit h hok hres
    | _ => cases hchecked

theorem tidy_stepRetirement {s s' : Fenced} {j : ℕ} {t : Retirement} (h : s.client.TidyBanners)
    (hs : s.stepRetirement j t = some s') : s'.client.TidyBanners := by
  obtain ⟨kind, pc⟩ := t
  cases pc with
  | waiting =>
    obtain ⟨m, -, rfl⟩ := Option.map_eq_some_iff.mp hs
    exact h
  | inside rest =>
    cases rest with
    | nil => exact Option.some.inj hs ▸ h
    | cons m rest => exact Option.some.inj hs ▸ m.tidy_apply h
  | clearing =>
    obtain ⟨c, hc, rfl⟩ := Option.map_eq_some_iff.mp hs
    exact h.of_sameBanners (Client.clearSource_sameBanners hc)
  | finished => cases hs

/-- **Step.** Every step keeps the bound and the distinct IDs, if the list that a frame or a
snapshot brings has them. -/
theorem tidy_step {r : NativeScalars} {s s' : Fenced} {e : FencedEvent} (h : s.client.TidyBanners)
    (hok : e.BringsTidy s) (hs : s.step r e = some s') : s'.client.TidyBanners := by
  cases e with
  | callback i =>
    obtain ⟨b, hb, hs⟩ := Option.bind_eq_some_iff.mp hs
    refine tidy_stepCallback h (fun data hdata => hok data ?_) hs
    rw [hb]
    exact hdata
  | retirement j =>
    obtain ⟨t, -, hs⟩ := Option.bind_eq_some_iff.mp hs
    exact tidy_stepRetirement h hs
  | route i session retained m =>
    simp only [step] at hs
    split_ifs at hs
    exact Option.some.inj hs ▸ h
  | retire j kind =>
    simp only [step] at hs
    split_ifs at hs
    exact Option.some.inj hs ▸ h
  | expire =>
    obtain ⟨c, hc, rfl⟩ := Option.map_eq_some_iff.mp hs
    exact h.of_sameBanners (Client.expireOptionalTelemetry_sameBanners hc)
  | overlay =>
    obtain ⟨c, hc, rfl⟩ := Option.map_eq_some_iff.mp hs
    exact h.of_sameBanners (Client.subscribeOverlay_sameBanners hc)
  | invalidate =>
    obtain ⟨c, hc, rfl⟩ := Option.map_eq_some_iff.mp hs
    exact h.of_sameBanners (Client.invalidateState_sameBanners hc)
  | apply st => exact Option.some.inj hs ▸ h.applyState s.now hok
  | camera p =>
    exact Option.some.inj hs ▸ h.of_sameBanners (s.client.onCameraMessage_sameBanners p)
  | tick ms => exact Option.some.inj hs ▸ h

/-- **The banner list.** In every run in which the lists that state frames decode to, and those
that snapshots bring, have at most `maxNotifications` banners with distinct IDs, the banner list
has at most `maxNotifications` banners with distinct IDs at every moment.

**Proof sketch.** The step lemma, by the invariant rule. The writers restore the bound by
`KeyedRing.isRing_upsert` and `Client.capped_commitPlatform`; everything else leaves the list
alone. -/
theorem capped_of_reachable {r : NativeScalars} {s : Fenced}
    (h : Transition.Reachable (Fenced.step r) (fun s e => e.BringsTidy s) Fenced.Fresh s) :
    s.client.banners.elems.length ≤ maxNotifications ∧
      (s.client.banners.elems.map Notification.id).Nodup := by
  have htidy : s.client.TidyBanners := by
    refine h.invariant (I := fun s => s.client.TidyBanners) (fun s hs => ?_)
      fun s e s' hi hok hs => tidy_step hi hok hs
    obtain ⟨-, cfg, hc⟩ := hs
    exact hc ▸ Client.tidyBanners_newClient cfg
  exact ⟨htidy.capped.length, htidy.capped.keys⟩

theorem fresh_idle : idle.Fresh := ⟨init_idle, {}, rfl⟩

/-- A state frame with banners is delivered and committed. -/
def framed (ids : List String) : List FencedEvent :=
  .route 0 0 false (.state (.json (.obj [("notifications",
    .arr (ids.map fun id => .obj [("id", .str id)]))]))) :: List.replicate 7 (.callback 0)

instance (s : Fenced) (e : FencedEvent) : Decidable (e.BringsTidy s) :=
  match e with
  | .callback i => inferInstanceAs (Decidable (∀ data ∈ (s.callbacks i).bind Callback.stateFrame,
      Capped (decodedBanners data s.client.banners)))
  | .apply st => inferInstanceAs (Decidable ((st.field .notifications).isNil = false →
      Capped (st.field .notifications)))
  | .route .. | .retire .. | .retirement _ | .expire | .overlay | .invalidate | .camera _
  | .tick _ => isTrue trivial

theorem capped_of_reachable_framed : ∃ s,
    Transition.Reachable (Fenced.step Lan.noScalars) (fun s e => e.BringsTidy s) Fenced.Fresh s ∧
      s.client.banners.elems.map Notification.id = ["a", "b"] ∧
      s.client.banners.elems.length ≤ maxNotifications := by
  obtain ⟨s, hs, hp⟩ := Transition.Reachable.exists_of_run (Fenced.step Lan.noScalars)
    (fun s e => e.BringsTidy s) (framed ["a", "b"])
    (fun s => s.client.banners.elems.map Notification.id == ["a", "b"]) fresh_idle
    (by decide) (by decide)
  exact ⟨s, hs, beq_iff_eq.mp hp, (capped_of_reachable hs).1⟩

/-- A state frame with two banners of one ID is installed as it is. -/
theorem not_capped_of_reachable_framed : ∃ s,
    Transition.Reachable (Fenced.step Lan.noScalars) (fun _ _ => True) Fenced.Fresh s ∧
      ¬ (s.client.banners.elems.map Notification.id).Nodup := by
  obtain ⟨s, hs, hp⟩ := Transition.Reachable.exists_of_run (Fenced.step Lan.noScalars)
    (fun _ _ => True) (framed ["a", "a"])
    (fun s => decide ¬ (s.client.banners.elems.map Notification.id).Nodup) fresh_idle
    (Transition.Allowed.of_forall (fun _ _ => trivial) _) (by decide)
  exact ⟨s, hs, of_decide_eq_true hp⟩

end Fenced

end Dashboard
