import InverterDashboard.Lan.System
import InverterDashboard.Mqtt.Telemetry

set_option relaxedAutoImplicit false
set_option autoImplicit false

/-!
# Claimed members belong to the Cerbo

A member that native telemetry has claimed is reduced from the cache alone: after a message, a
tombstone, a frame or a `Subscribe` it holds the output of the reducer, or it is cleared. The one
member the controller may show is the ESS mode, while its cached mode can be selected. Expiry drops
the cached mode without reducing the cache again, so a claimed ESS mode goes on showing it.

## Main definitions

* `Dashboard.Client.Shows` — what the state shows of a claimed member.
* `Dashboard.Lan.forgetsShown` — the expiry of a cached mode that a claimed ESS mode shows.
* `Dashboard.Lan.Settled` — the outputs stay finite and no shown mode is forgotten.

## Main results

* `Dashboard.Lan.owns_step` — what one event keeps.
* `Dashboard.Lan.shows_of_owned` — a claim is permanent, and what is claimed is shown.
* `Dashboard.Lan.shows_expired_mode` — after an expiry the mode of the controller is shown on.
-/

namespace Dashboard

open Go

namespace Client

/-! ## Claimed members -/

/-- What the state shows of a claimed member: the output of the reducer, or nothing. A cached mode
of the controller that can be selected is shown in the place of the ESS mode. -/
structure Shows (c : Client) (f : Field) : Prop where
  output : (f = .essMode → c.selectableESSMode = none) → ∀ v, c.overlay.val f = some v →
    c.state.field f = v
  cleared : (f = .essMode → c.selectableESSMode = none) → c.overlay.val f = none →
    c.state.field f = f.type.cleared ∧ c.state.available f.jsonName = false
  controller : f = .essMode → ∀ mode, c.selectableESSMode = some mode →
    c.state.field .essMode = mode

/-- Native telemetry that has claimed the ESS mode is known to observe it, and every claimed member
is shown. -/
structure Owns (c : Client) : Prop where
  native : c.cerboOwned.has .essMode = true → c.state.nativeESSObserved = true
  shows : ∀ f, c.cerboOwned.has f = true → Shows c f

/-- An ESS mode is output only where a `Hub4Mode` leaf was seen. -/
theorem hub4Seen_of_output {c : Client} (h : (c.overlay.val .essMode).isSome) :
    c.hub4Seen = true := by
  obtain ⟨m, hm⟩ := Option.isSome_iff_exists.mp h
  rw [overlay, cerboOverlay_essMode_eq] at hm
  obtain ⟨e, he, hmode⟩ := List.exists_of_findSome?_eq_some hm
  have hdev : e ∈ devices c.cerboLeaves .settings := mem_sortedStringKeys.mp he
  obtain ⟨id, -, rfl⟩ := List.mem_map.mp (List.mem_of_mem_filter hdev)
  simp only [essModeOf, Option.bind_eq_bind, Option.bind_eq_some_iff] at hmode
  obtain ⟨hub, hhub, -⟩ := hmode
  obtain ⟨hnum, -⟩ := Option.filter_eq_some_iff.mp hhub
  have hleaf : (c.cerboLeaves.lookup ⟨.settings, id, "Settings/CGwacs/Hub4Mode"⟩).isSome := by
    by_contra hno
    have hnone : deviceLeaves c.cerboLeaves .settings id "Settings/CGwacs/Hub4Mode" = none :=
      Option.not_isSome_iff_eq_none.mp hno
    simp [Device.num, hnone] at hnum
  have hkey := AList.lookup_isSome.mp hleaf
  rw [hub4Seen, List.any_eq_true]
  refine ⟨_, hkey, ?_⟩
  have hsuffix : hasSuffix (id ++ "/" ++ "Settings/CGwacs/Hub4Mode")
      "/Settings/CGwacs/Hub4Mode" = true := by
    rw [hasSuffix, List.isSuffixOf_iff_suffix]
    exact ⟨id.toList, by simp⟩
  simp [hsuffix]

namespace Overlaid

variable {c c' : Client} (h : Overlaid c c')
include h

theorem selectable_eq : c'.selectableESSMode = c.selectableESSMode := by
  rw [h.frame]
  rfl

/-- A reduction observes a claimed ESS mode. -/
theorem native_of_owned (ho : c'.cerboOwned.has .essMode = true) :
    c'.state.nativeESSObserved = true := by
  rw [h.native]
  rw [h.owned] at ho
  rcases Bool.or_eq_true_iff.mp ho with ho | ho
  · exact ho
  · rw [ownedWithHub4, if_pos (hub4Seen_of_output ho)]
    simp [OwnedFields.claim]

/-- A reduction shows every claimed member. -/
theorem shows (hfin : c'.overlay.finite = true) {f : Field}
    (ho : c'.cerboOwned.has f = true) : Shows c' f := by
  have htel : f ≠ .telemetryAvailable := by
    rintro rfl
    exact absurd (c'.cerboOwned.direct _ ho) (by decide)
  rw [h.overlay_eq] at hfin
  have hfield : (f = .essMode → c'.selectableESSMode = none) →
      c'.state.field f = (c.overlay.val f).getD f.type.cleared := by
    intro hess
    rw [h.field f htel (h.selectable_eq ▸ hess), if_pos ho, if_pos hfin]
  refine ⟨fun hess v hv => ?_, fun hess hv => ⟨?_, ?_⟩, fun _ mode hmode => ?_⟩
  · rw [h.overlay_eq] at hv
    rw [hfield hess, hv]
    rfl
  · rw [h.overlay_eq] at hv
    rw [hfield hess, hv]
    rfl
  · rw [h.overlay_eq] at hv
    rw [h.avail, if_pos ho, hv]
    rfl
  · exact h.essMode mode (h.selectable_eq ▸ hmode)

/-- A reduction makes every claim good. -/
theorem owns (hfin : c'.overlay.finite = true) : Owns c' :=
  ⟨h.native_of_owned, fun _ ho => h.shows hfin ho⟩

end Overlaid

/-! ## What keeps the claims good -/

theorem SameTelemetry.owns {c c' : Client} (h : SameTelemetry c c') (ho : Owns c) : Owns c' := by
  refine ⟨fun hess => ?_, fun f hf => ?_⟩
  · rw [h.native]
    exact ho.native (h.owned ▸ hess)
  · have hf : c.cerboOwned.has f = true := h.owned ▸ hf
    have hs := ho.shows f hf
    have hdir := c.cerboOwned.direct f hf
    refine ⟨fun hsel v hv => ?_, fun hsel hv => ⟨?_, ?_⟩, fun hess mode hmode => ?_⟩
    · rw [h.field f hdir]
      exact hs.output (h.selectable ▸ hsel) v (h.overlay ▸ hv)
    · rw [h.field f hdir]
      exact (hs.cleared (h.selectable ▸ hsel) (h.overlay ▸ hv)).1
    · rw [h.flags]
      exact (hs.cleared (h.selectable ▸ hsel) (h.overlay ▸ hv)).2
    · rw [h.field _ (by decide)]
      exact hs.controller hess mode (h.selectable ▸ hmode)

/-- An expiry keeps what is shown, unless the forgotten mode is. -/
theorem Expired.owns {c c' : Client} {now : Time} (h : Expired c now c') (ho : Owns c)
    (hshown : c.cerboOwned.has .essMode = true → c.selectableESSMode = none) : Owns c' := by
  have hov : c'.overlay = c.overlay := by
    rw [overlay, overlay, h.leaves, h.options]
  have hnone : c'.selectableESSMode = none := by
    rw [selectableESSMode, h.forgotten]
    rfl
  refine ⟨fun hess => ?_, fun f hf => ?_⟩
  · rw [h.native]
    exact ho.native (h.owned ▸ hess)
  · have hf : c.cerboOwned.has f = true := h.owned ▸ hf
    have hsel : f = .essMode → c.selectableESSMode = none := by
      rintro rfl
      exact hshown hf
    have hs := ho.shows f hf
    have hfield : c'.state.field f = c.state.field f := by
      by_cases hess : f = .essMode
      · subst hess
        exact h.essMode (ho.native hf)
      · exact h.field f (c.cerboOwned.direct f hf) hess
    refine ⟨fun _ v hv => ?_, fun _ hv => ⟨?_, ?_⟩, fun _ mode hmode => ?_⟩
    · rw [hfield]
      exact hs.output hsel v (hov ▸ hv)
    · rw [hfield]
      exact (hs.cleared hsel (hov ▸ hv)).1
    · rw [h.flags_owned f hf]
      exact (hs.cleared hsel (hov ▸ hv)).2
    · rw [hnone] at hmode
      cases hmode

/-- A reduction of a changed cache or of a merged frame. -/
def Reduced (c c' : Client) : Prop :=
  ∃ c₁ c₂, (∀ f, c.cerboOwned.has f = true → c₁.cerboOwned.has f = true) ∧ Overlaid c₁ c₂ ∧
    SameTelemetry c₂ c'

namespace Reduced

variable {c c' : Client} (h : Reduced c c')
include h

theorem owned {f : Field} (hf : c.cerboOwned.has f = true) : c'.cerboOwned.has f = true := by
  obtain ⟨c₁, c₂, ho, hov, hsame⟩ := h
  rw [hsame.owned]
  exact hov.owned_of_owned (ho f hf)

theorem owns (hfin : c'.overlay.finite = true) : Owns c' := by
  obtain ⟨c₁, c₂, -, hov, hsame⟩ := h
  exact hsame.owns (hov.owns (hsame.overlay ▸ hfin))

end Reduced

/-- A delivery leaves the telemetry alone or ends in a reduction. -/
theorem Told.reduced {c c' : Client} {m : Message} {retained : Bool} {now : Time}
    (h : Told c retained now m c') : SameTelemetry c c' ∨ Reduced c c' := by
  cases h with
  | kept h => exact Or.inl h
  | device h₀ hst hov h₁ =>
    exact Or.inr ⟨_, _, fun f hf => hst.owned f (h₀.owned ▸ hf), hov, h₁⟩
  | frame hd hmerge h₁ =>
    obtain ⟨st₁, st₂, hm⟩ := merged_of_eq_some _ hmerge
    refine Or.inr ⟨_, _, fun f hf => ?_, hm.overlaid, h₁⟩
    exact hf

end Client

/-! ## Runs -/

namespace Lan

/-- The claims are good while a session is subscribed; between a lost connection and the next
`Subscribe` only the observation of the ESS mode is kept. -/
structure Owning (s : Lan) : Prop where
  native : s.client.cerboOwned.has .essMode = true → s.client.state.nativeESSObserved = true
  shows : s.subscribed = true → s.client.Owns

/-- The expiry of a cached mode that a claimed ESS mode shows. -/
def forgetsShown (s : Lan) : LanEvent → Bool
  | .expire => s.subscribed && decide (s.client.staleController s.now) &&
      s.client.cerboOwned.has .essMode && s.client.selectableESSMode.isSome
  | _ => false

/-- The outputs stay finite, and no shown mode is forgotten. -/
def Settled (r : NativeScalars) (s : Lan) (e : LanEvent) : Prop :=
  (∀ s' ∈ s.step r e, s'.client.overlay.finite = true) ∧ s.forgetsShown e = false

theorem owning_of_init {s : Lan} (h : s.Init) : s.Owning := by
  obtain ⟨cfg, hc, -, -, hsub⟩ := h
  refine ⟨fun ho => ?_, fun hs => ?_⟩
  · rw [hc] at ho
    cases ho
  · rw [hsub] at hs
    cases hs

/-- What an event did to the telemetry. -/
inductive Touched (s : Lan) : LanEvent → Lan → Prop
  /-- The telemetry and the subscription are as before. -/
  | kept {e : LanEvent} {s' : Lan} : s.client.SameTelemetry s'.client →
      s'.subscribed = s.subscribed → Touched s e s'
  /-- The telemetry was reduced again. -/
  | reduced {e : LanEvent} {s' : Lan} : s.client.Reduced s'.client → Touched s e s'
  /-- The controller expired. -/
  | expired {s' : Lan} : s.client.Expired s.now s'.client → s'.subscribed = s.subscribed →
      Touched s .expire s'
  /-- The connection was lost. -/
  | emptied {e : LanEvent} {s' : Lan} : s.client.Emptied s'.client → s'.subscribed = false →
      Touched s e s'

/-- The inversion of a step. -/
theorem step_touched {r : NativeScalars} {s s' : Lan} {e : LanEvent}
    (hs : s.step r e = some s') : Touched s e s' := by
  cases e with
  | deliver session retained m =>
    rw [step] at hs
    by_cases hmem : session ∈ s.bound
    · rw [if_pos hmem] at hs
      obtain ⟨c', hc', rfl⟩ := Option.map_eq_some_iff.mp hs
      rcases (Client.deliver_told hc').reduced with h | h
      · exact .kept h rfl
      · exact .reduced h
    · rw [if_neg hmem] at hs
      cases hs
  | tick ms => exact Option.some.inj hs ▸ .kept (Client.SameTelemetry.refl _) rfl
  | expire =>
    obtain ⟨c', hc', rfl⟩ := Option.map_eq_some_iff.mp hs
    rcases Client.expire_telemetry hc' with h | h
    · exact .kept h rfl
    · exact .expired h rfl
  | opened =>
    exact Option.some.inj hs ▸ .kept ⟨fun _ _ => rfl, fun _ => rfl, rfl, rfl, rfl, rfl, rfl⟩ rfl
  | lost =>
    obtain ⟨c', hc', rfl⟩ := Option.map_eq_some_iff.mp hs
    exact .emptied (Client.connectionLost_emptied hc') rfl
  | subscribe o =>
    rw [step] at hs
    by_cases hsub : s.subscribed = true
    · rw [if_pos hsub] at hs
      cases hs
    · rw [if_neg hsub] at hs
      obtain ⟨⟨c', ok⟩, hc', rfl⟩ := Option.map_eq_some_iff.mp hs
      rcases Client.subscribe_telemetry hc' with ⟨hcan, h⟩ | ⟨hcan, c₁, c₂, h₁, hov, h₂⟩
      · rw [if_neg (by rw [hcan]; decide)]
        exact .kept h rfl
      · rw [if_pos hcan]
        exact .reduced ⟨c₁, c₂, fun f hf => h₁.owned ▸ hf, hov, h₂⟩

/-- A claim outlives every event. -/
theorem owned_step {r : NativeScalars} {s s' : Lan} {e : LanEvent} (hs : s.step r e = some s')
    {f : Field} (hf : s.client.cerboOwned.has f = true) :
    s'.client.cerboOwned.has f = true := by
  cases step_touched hs with
  | kept h _ => exact h.owned ▸ hf
  | reduced h => exact h.owned hf
  | expired h _ => exact h.owned ▸ hf
  | emptied h _ => exact h.owned ▸ hf

/-- **Step.** An event that is settled keeps the claims good.

**Proof sketch.** Most events leave the telemetry alone or end in a reduction, which makes the
claims good. A lost connection ends the session. An expiry changes a claimed member only by
forgetting the mode it shows, which is excluded. -/
theorem owning_step {r : NativeScalars} {s s' : Lan} {e : LanEvent} (h : s.Owning)
    (hok : Settled r s e) (hs : s.step r e = some s') : s'.Owning := by
  cases step_touched hs with
  | kept hsame hsub =>
    refine ⟨fun ho => ?_, fun hsub' => hsame.owns (h.shows (hsub ▸ hsub'))⟩
    rw [hsame.native]
    exact h.native (hsame.owned ▸ ho)
  | reduced hred =>
    have howns := hred.owns (hok.1 s' hs)
    exact ⟨howns.native, fun _ => howns⟩
  | expired hexp hsub =>
    refine ⟨fun ho => ?_, fun hsub' => hexp.owns (h.shows (hsub ▸ hsub')) fun ho => ?_⟩
    · rw [hexp.native]
      exact h.native (hexp.owned ▸ ho)
    · have hforget := hok.2
      simp only [forgetsShown, hsub ▸ hsub', hexp.stale, ho, decide_true, Bool.true_and] at hforget
      exact Option.not_isSome_iff_eq_none.mp (by rw [hforget]; decide)
  | emptied he hsub =>
    refine ⟨fun ho => ?_, fun hsub' => ?_⟩
    · rw [he.native]
      exact h.native (he.owned ▸ ho)
    · rw [hsub] at hsub'
      cases hsub'

/-- **Run.** In a settled run every claim is good. -/
theorem owning_of_reachable {r : NativeScalars} {s : Lan}
    (h : Transition.Reachable (step r) (Settled r) Init s) : s.Owning :=
  h.invariant (fun _ => owning_of_init) fun _ _ _ hi hok hs => owning_step hi hok hs

/-- In every settled run, what was claimed at some state is claimed at every later state, and while
a session is subscribed it is shown.

**Proof sketch.** A claim outlives every event (`owned_step`), and what is claimed is shown in every
reachable state (`owning_of_reachable`). -/
theorem shows_of_owned {r : NativeScalars} {s s' : Lan}
    (h : Transition.Reachable (step r) (Settled r) Init s)
    (h' : Transition.Reachable (step r) (Settled r) (· = s) s') {f : Field}
    (hf : s.client.cerboOwned.has f = true) :
    s'.client.cerboOwned.has f = true ∧ (s'.subscribed = true → s'.client.Shows f) := by
  have hown : s'.client.cerboOwned.has f = true :=
    h'.invariant (I := fun t => t.client.cerboOwned.has f = true) (fun _ heq => heq ▸ hf)
      fun _ _ _ ho _ hs => owned_step hs ho
  exact ⟨hown, fun hsub => ((owning_of_reachable (h.trans h')).shows hsub).shows f hown⟩

instance (r : NativeScalars) (s : Lan) (e : LanEvent) : Decidable (Settled r s e) :=
  inferInstanceAs (Decidable (_ ∧ _))

/-- A native reading of a leaf. -/
def readingOf (kind inst : String) (path : List String) (n : ℤ) : LanEvent :=
  .deliver 1 false (.native ("N" :: "c0" :: kind :: inst :: path)
    (.json (.obj [("value", .num (.ofInt n))])))

/-- A tank level is claimed. -/
def claimedRun : List LanEvent :=
  [.opened, .subscribe ⟨true, true⟩, readingOf "tank" "0" ["Level"] 50]

/-- A frame spells the level in its own way, and the tank disappears. -/
def contestedRun : List LanEvent :=
  [.deliver 1 false (.state (.json (.obj [("Water_Level", .num (.ofInt 7))]))),
    .deliver 1 false (.native ["N", "c0", "tank", "0"] .empty),
    .deliver 1 true (.state (.json (.obj [("water_level", .num (.ofInt 8))])))]

theorem shows_of_owned_contested : ∃ s s',
    Transition.Reachable (step noScalars) (Settled noScalars) Init s ∧
      Transition.Reachable (step noScalars) (Settled noScalars) (· = s) s' ∧
      s.client.cerboOwned.has .waterLevel = true ∧ s'.subscribed = true ∧
      s'.client.Shows .waterLevel := by
  obtain ⟨s, hs, hp⟩ := Transition.Reachable.exists_of_run (step noScalars) (Settled noScalars)
    claimedRun
    (fun s => s.client.cerboOwned.has .waterLevel &&
      decide (Transition.Allowed (step noScalars) (Settled noScalars) s contestedRun) &&
      (Transition.run (step noScalars) s contestedRun).any Lan.subscribed)
    init_configured (by decide +kernel) (by decide +kernel)
  obtain ⟨⟨ho, hok⟩, hrun⟩ : (_ ∧ _) ∧ _ := by
    simpa only [Bool.and_eq_true, decide_eq_true_eq] using hp
  obtain ⟨s', hs', hsub⟩ := (Option.any_eq_true _ _).mp hrun
  have hstart : Transition.Reachable (step noScalars) (Settled noScalars) (· = s) s := .start rfl
  have hreach := hstart.of_run hok hs'
  exact ⟨s, s', hs, hreach, ho, hsub, (shows_of_owned hs hreach ho).2 hsub⟩

/-- The native ESS settings are read, the controller offers a mode to select, and expires. -/
def expiredRun : List LanEvent :=
  [.opened, .subscribe ⟨true, true⟩,
    readingOf "settings" "0" ["Settings", "CGwacs", "Hub4Mode"] 1,
    readingOf "settings" "0" ["Settings", "CGwacs", "BatteryLife", "State"] 9,
    .deliver 1 false (.state (.json (.obj
      [("ess_mode", .obj [("selection_supported", .bool true)])]))),
    .tick 121000, .expire]

/-- After the expiry of the controller and a native message that is rejected, its mode is still
shown in the place of the claimed one. -/
theorem shows_expired_mode : ∃ s s',
    Transition.Reachable (step noScalars)
        (fun s e => ∀ s' ∈ s.step noScalars e, s'.client.overlay.finite = true) Init s ∧
      s.client.cerboOwned.has .essMode = true ∧
      s.step noScalars (.deliver 1 false (.native ["N", "c0", "battery", "1", "Soc"] .invalid)) =
        some s' ∧
      s'.subscribed = true ∧ s'.client.overlay.finite = true ∧
      s'.client.selectableESSMode = none ∧ ¬ s'.client.Shows .essMode := by
  obtain ⟨s, hs, hp⟩ := Transition.Reachable.exists_of_run (step noScalars)
    (fun s e => ∀ s' ∈ s.step noScalars e, s'.client.overlay.finite = true) expiredRun
    (fun s => s.client.cerboOwned.has .essMode &&
      (s.step noScalars (.deliver 1 false
        (.native ["N", "c0", "battery", "1", "Soc"] .invalid))).any fun s' =>
          s'.subscribed && s'.client.overlay.finite && s'.client.selectableESSMode.isNone &&
            (s'.client.state.field .essMode).selectionSupported)
    init_configured (by decide +kernel) (by decide +kernel)
  obtain ⟨ho, hstep⟩ := Bool.and_eq_true_iff.mp hp
  obtain ⟨s', hs', hq⟩ := (Option.any_eq_true _ _).mp hstep
  simp only [Bool.and_eq_true] at hq
  obtain ⟨⟨⟨hsub, hfin⟩, hnone⟩, hsup⟩ := hq
  have hnone := Option.isNone_iff_eq_none.mp hnone
  refine ⟨s, s', hs, ho, hs', hsub, hfin, hnone, fun hshows => ?_⟩
  cases hv : s'.client.overlay.val .essMode with
  | none =>
    rw [(hshows.cleared (fun _ => hnone) hv).1] at hsup
    cases hsup
  | some m =>
    rw [hshows.output (fun _ => hnone) m hv, cerboOverlay_essMode hv] at hsup
    cases hsup

end Lan

end Dashboard
