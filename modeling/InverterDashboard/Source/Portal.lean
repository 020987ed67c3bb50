import InverterDashboard.Source.Fence

set_option relaxedAutoImplicit false
set_option autoImplicit false

/-!
# The portal is settled once

Native messages and messages on `inverter/portal` run section by section, in any order with each
other and with every retirement. A native message is checked against the portal in a section of its
own, and its leaf, alarm or slot is committed in a later one. `SetWaterConfig` runs before the first
subscription, so the client of a run starts with the configured portal or with none.

## Main definitions

* `Dashboard.realValue` — a payload that may discover a portal.
* `Dashboard.Callback.pending` — the sections a callback has left.
* `Dashboard.Routed` — what those are, and which portal they were let through for.
* `Dashboard.Message.Foreign` — the message names no portal, or another one than the settled one.

## Main results

* `Dashboard.Fenced.portalID_step`, `Dashboard.Fenced.routed_step` — what every step keeps.
* `Dashboard.Fenced.portal_isolated` — the portal is written once, by a message of the current
  session, and messages of other portals have no effect.
-/

namespace Dashboard

open Go

/-! ## Sections -/

/-- A payload that may discover a portal: neither null nor a bool nor a blank text. -/
def realValue (payload : Payload) : Bool :=
  match parseCerboPayload payload with
  | none | some .nil | some (.bool _) => false
  | some (.string s) => trimSpace s != ""
  | some _ => true

/-- A client without a portal lets only a real value through. -/
theorem realValue_of_validate {c : Client} {parts : List String} {payload : Payload}
    (h : c.validateCerboMessagePayload parts payload = true) (hc : c.portalID = "") :
    realValue payload = true := by
  unfold Client.validateCerboMessagePayload at h
  unfold realValue
  simp only [hc, ne_eq, not_true_eq_false, if_false] at h
  split_ifs at h
  cases hv : parseCerboPayload payload with
  | none =>
    rw [hv] at h
    cases h
  | some v =>
    rw [hv] at h
    cases v <;> exact h

/-- The section is not the portal check. -/
def Section.IsBody (sec : Section) : Prop := ∀ p, sec ≠ .portal p

/-- Behind the portal check of a native message no other follows. -/
theorem isBody_of_bodySections {r : NativeScalars} {parts : List String} {payload : Payload} :
    ∀ sec ∈ bodySections r parts payload, sec.IsBody := by
  intro sec hsec p hp
  subst hp
  unfold bodySections at hsec
  split_ifs at hsec
  · cases hsec
  · cases hu : decodePlatformNotification r parts payload with
    | none =>
      rw [hu] at hsec
      cases hsec
    | some u =>
      rw [hu] at hsec
      cases List.mem_singleton.mp hsec
  · cases List.mem_singleton.mp hsec
  · cases List.mem_singleton.mp hsec

/-- A body section keeps the portal, and the callback goes on. -/
theorem commit_of_isBody {r : NativeScalars} {c : Client} {retained : Bool} {now : Time}
    {sec : Section} {res : Client × Bool} (h : sec.commit r c retained now = some res)
    (hbody : sec.IsBody) : res.1.portalID = c.portalID ∧ res.2 = true := by
  cases sec with
  | portal p => exact absurd rfl (hbody p)
  | platform u => exact Option.some.inj h ▸ ⟨(c.commitPlatform_frame r u).portalID, rfl⟩
  | alarm parts payload =>
    exact Option.some.inj h ▸ ⟨(c.commitAlarm_frame r parts payload).portalID, rfl⟩
  | notification n => exact Option.some.inj h ▸ ⟨(c.commitNotification_frame n).portalID, rfl⟩
  | device parts payload =>
    obtain ⟨⟨c₁, changed⟩, hc₁, rfl⟩ := Option.map_eq_some_iff.mp h
    obtain ⟨c₂, changed₂, hc₂, hspec⟩ := c.handleCerboDevice_spec parts payload now
    obtain ⟨rfl, rfl⟩ := Prod.mk.inj (Option.some.inj (hc₂.symm.trans hc₁))
    exact ⟨(Client.DeviceHandled.frame hspec).portal, rfl⟩
  | controller override data =>
    obtain ⟨c₁, hc₁, rfl⟩ := Option.map_eq_some_iff.mp h
    refine ⟨?_, rfl⟩
    show c₁.portalID = c.portalID
    cases override with
    | true =>
      obtain rfl := Option.some.inj hc₁
      rw [(c.observeControllerCommands_spec data retained now).frame]
    | false =>
      simp only [Client.commitController, Bool.false_eq_true, if_false, Client.commitState,
        Option.bind_eq_bind, Option.bind_eq_some_iff, Option.pure_def, Option.some.injEq] at hc₁
      obtain ⟨c₂, hmerge, rfl⟩ := hc₁
      obtain ⟨st₁, st₂, hm⟩ := Client.merged_of_eq_some _ hmerge
      rw [(c₂.finishState_spec data retained now).frame, hm.overlaid.frame]
      rfl

/-- The portal check: a settled portal is compared, and an empty one is settled. -/
theorem commit_portal {r : NativeScalars} {c : Client} {retained : Bool} {now : Time} {p : String}
    {res : Client × Bool} (h : (Section.portal p).commit r c retained now = some res) :
    c.portalID ≠ "" ∧ res.1 = c ∧ (res.2 = true → c.portalID = p) ∨
      c.portalID = "" ∧ res.1 = { c with portalID := p } := by
  simp only [Section.commit] at h
  split_ifs at h with hne
  · exact Or.inl ⟨hne, Option.some.inj h ▸ ⟨rfl, fun hp => beq_iff_eq.mp hp⟩⟩
  · exact Or.inr ⟨by simpa using hne, Option.some.inj h ▸ rfl⟩

/-! ## Callbacks -/

/-- The sections a callback has left. -/
def Callback.pending (b : Callback) : List Section :=
  match b.pc with
  | .ready sections => sections
  | .locked sec rest | .checked sec rest => sec :: rest
  | .committed rest => rest
  | _ => []

/-- The text of a portal payload. -/
def PortalText.portal (p : PortalText) : String := p.quoted.getD (trimSpace p.text)

/-- What is left of a native message: the portal check and a body; or, behind the check, the body on
the portal that the topic names. What is left of a portal message: the check. -/
def RoutedSections (c : Client) (m : Message) (sections : List Section) : Prop :=
  match m with
  | .native parts payload =>
    (∃ body, sections = .portal (parts.getD 1 "") :: body ∧ (∀ sec ∈ body, sec.IsBody) ∧
        validPortal (parts.getD 1 "") = true ∧ (c.portalID = "" → realValue payload = true)) ∨
      (∀ sec ∈ sections, sec.IsBody) ∧
        (sections ≠ [] → validPortal (parts.getD 1 "") = true ∧ c.portalID = parts.getD 1 "")
  | .portal p => ∀ sec ∈ sections, sec = .portal p.portal ∧ validPortal p.portal = true
  | _ => ∀ sec ∈ sections, sec.IsBody

/-- The callback is routed. -/
def Routed (c : Client) (b : Callback) : Prop := RoutedSections c b.message b.pending

/-- The empty name is no portal. -/
theorem ne_of_validPortal {p : String} (h : validPortal p = true) : p ≠ "" := by
  rintro rfl
  revert h
  decide

namespace RoutedSections

/-- Nothing left is routed. -/
theorem nil (c : Client) (m : Message) : RoutedSections c m [] := by
  cases m <;> simp [RoutedSections]

/-- A settled portal stays, and so a callback stays routed. -/
theorem mono {c c' : Client} {m : Message} {sections : List Section}
    (h : RoutedSections c m sections) (hp : c.portalID ≠ "" → c'.portalID = c.portalID) :
    RoutedSections c' m sections := by
  cases m with
  | native parts payload =>
    rcases h with ⟨body, hs, hbody, hvalid, hreal⟩ | ⟨hbody, hknown⟩
    · refine Or.inl ⟨body, hs, hbody, hvalid, fun hempty => hreal ?_⟩
      by_contra hne
      exact hne (hp hne ▸ hempty)
    · refine Or.inr ⟨hbody, fun hne => ?_⟩
      obtain ⟨hvalid, hc⟩ := hknown hne
      exact ⟨hvalid, (hp (hc ▸ ne_of_validPortal hvalid)).trans hc⟩
  | portal p => exact h
  | state payload => exact h
  | override payload => exact h
  | notification payload => exact h
  | camera p => exact h

/-- The sections a message decodes to are routed. -/
theorem of_sections (r : NativeScalars) (c : Client) (m : Message) :
    RoutedSections c m (m.sections r c) := by
  have hone : ∀ {α : Type} (o : Option α) (g : α → Section), (∀ a, (g a).IsBody) →
      ∀ sec ∈ (o.map g).toList, sec.IsBody := by
    intro α o g hg sec hsec
    cases o with
    | none => cases hsec
    | some a => exact List.mem_singleton.mp hsec ▸ hg a
  cases m with
  | native parts payload =>
    show RoutedSections c (.native parts payload) (nativeSections r c parts payload)
    unfold nativeSections
    split_ifs with hshape hok
    · exact nil c _
    · exact nil c _
    · simp only [Bool.or_eq_true, Bool.not_eq_true', not_or, Bool.not_eq_false] at hok
      exact Or.inl ⟨_, rfl, isBody_of_bodySections, hok.2,
        fun hempty => realValue_of_validate hok.1 hempty⟩
  | portal p =>
    intro sec hsec
    simp only [Message.sections] at hsec
    split_ifs at hsec with hok
    · cases hsec
    · simp only [Bool.not_eq_true', not_or, Bool.not_eq_false] at hok
      exact ⟨List.mem_singleton.mp hsec, hok.2⟩
  | state payload => exact hone _ _ fun _ _ h => by cases h
  | override payload => exact hone _ _ fun _ _ h => by cases h
  | notification payload => exact hone _ _ fun _ _ h => by cases h
  | camera p => exact nil c _

/-- A commit lets the callback go on with what is routed.

**Proof sketch.** Behind the check of a native message the portal is the one of its topic, whether
the check compared it or settled it, and the body keeps it. -/
theorem of_commit {r : NativeScalars} {c : Client} {m : Message} {sec : Section}
    {rest : List Section} {retained : Bool} {now : Time} {res : Client × Bool}
    (h : RoutedSections c m (sec :: rest)) (hres : sec.commit r c retained now = some res) :
    RoutedSections res.1 m (if res.2 then rest else []) := by
  -- Where the rest is a body, the section is part of it.
  have hplain : (∀ sec' ∈ sec :: rest, sec'.IsBody) →
      ∀ sec' ∈ (if res.2 then rest else []), sec'.IsBody := by
    intro hall sec' hsec'
    split_ifs at hsec' with hgo
    · exact hall sec' (List.mem_cons_of_mem _ hsec')
    · cases hsec'
  cases m with
  | native parts payload =>
    rcases h with ⟨body, hs, hbody, hvalid, -⟩ | ⟨hbody, hknown⟩
    · obtain ⟨rfl, rfl⟩ := List.cons.inj hs
      refine Or.inr ⟨fun sec' hsec' => ?_, fun hne => ⟨hvalid, ?_⟩⟩
      · split_ifs at hsec' with hgo
        · exact hbody sec' hsec'
        · cases hsec'
      · rcases commit_portal hres with ⟨-, hc, hgo⟩ | ⟨-, hc⟩
        · rw [hc]
          refine hgo ?_
          by_contra hstop
          exact hne (if_neg hstop)
        · rw [hc]
    · obtain ⟨hvalid, hc⟩ := hknown (List.cons_ne_nil sec rest)
      have hkeep := (commit_of_isBody hres (hbody sec List.mem_cons_self)).1
      exact Or.inr ⟨hplain hbody, fun _ => ⟨hvalid, hkeep.trans hc⟩⟩
  | portal p =>
    intro sec' hsec'
    split_ifs at hsec' with hgo
    · exact h sec' (List.mem_cons_of_mem _ hsec')
    · cases hsec'
  | state payload => exact hplain h
  | override payload => exact hplain h
  | notification payload => exact hplain h
  | camera p => exact hplain h

end RoutedSections

/-- The portal a message names: in its topic, or in its payload. -/
def Message.portalName : Message → Option String
  | .native parts _ => some (parts.getD 1 "")
  | .portal p => some p.portal
  | _ => none

/-- The message names no portal, or another one than the settled one. -/
def Message.Foreign (c : Client) (m : Message) : Prop :=
  ∃ p, m.portalName = some p ∧ (validPortal p = false ∨ c.portalID ≠ "" ∧ p ≠ c.portalID)

/-- A section of a foreign message does nothing when it commits. -/
theorem commit_of_foreign {r : NativeScalars} {c : Client} {m : Message} {sec : Section}
    {rest : List Section} {retained : Bool} {now : Time} {res : Client × Bool}
    (h : RoutedSections c m (sec :: rest)) (hm : m.Foreign c)
    (hres : sec.commit r c retained now = some res) : res.1 = c := by
  obtain ⟨p, hp, hforeign⟩ := hm
  -- A portal that passed the syntax check is foreign only behind a settled one.
  have hcheck : validPortal p = true → sec = .portal p → res.1 = c := by
    rintro hvalid rfl
    rcases hforeign with hinvalid | ⟨hne, -⟩
    · rw [hvalid] at hinvalid
      cases hinvalid
    · rcases commit_portal hres with ⟨-, hc, -⟩ | ⟨hempty, -⟩
      · exact hc
      · exact absurd hempty hne
  cases m with
  | native parts payload =>
    obtain rfl := Option.some.inj hp
    rcases h with ⟨body, hs, -, hvalid, -⟩ | ⟨-, hknown⟩
    · exact hcheck hvalid (List.cons.inj hs).1
    · obtain ⟨hvalid, hc⟩ := hknown (List.cons_ne_nil sec rest)
      rcases hforeign with hinvalid | ⟨-, hne⟩
      · rw [hvalid] at hinvalid
        cases hinvalid
      · exact absurd hc.symm hne
  | portal q =>
    obtain rfl := Option.some.inj hp
    obtain ⟨hsec, hvalid⟩ := h sec List.mem_cons_self
    exact hcheck hvalid hsec
  | state payload => cases hp
  | override payload => cases hp
  | notification payload => cases hp
  | camera q => cases hp

/-- A message whose portal check is pending on a client without a portal may settle it. -/
theorem RoutedSections.discovers {c : Client} {m : Message} {p : String} {rest : List Section}
    (h : RoutedSections c m (.portal p :: rest)) (hempty : c.portalID = "") :
    validPortal p = true ∧ m.portalName = some p ∧
      ∀ parts payload, m = .native parts payload → realValue payload = true := by
  cases m with
  | native parts payload =>
    rcases h with ⟨body, hs, -, hvalid, hreal⟩ | ⟨hbody, -⟩
    · obtain ⟨hsec, -⟩ := List.cons.inj hs
      obtain rfl := Section.portal.inj hsec
      refine ⟨hvalid, rfl, fun parts' payload' heq => ?_⟩
      obtain ⟨-, rfl⟩ := Message.native.inj heq
      exact hreal hempty
    · exact absurd rfl (hbody _ List.mem_cons_self p)
  | portal q =>
    obtain ⟨hsec, hvalid⟩ := h _ List.mem_cons_self
    obtain rfl := Section.portal.inj hsec
    exact ⟨hvalid, rfl, fun parts payload heq => by cases heq⟩
  | state payload => exact absurd rfl (h _ List.mem_cons_self p)
  | override payload => exact absurd rfl (h _ List.mem_cons_self p)
  | notification payload => exact absurd rfl (h _ List.mem_cons_self p)
  | camera q => exact absurd rfl (h _ List.mem_cons_self p)

/-! ## The portal of a step -/

namespace Fenced

/-- A change of the tokens keeps the portal. -/
theorem portalID_apply (c : Client) (m : Mutation) : (m.apply c).portalID = c.portalID := by
  cases m with
  | banners always => exact (c.resetNativeNotifications_frame _).portalID
  | mqttGeneration =>
    show c.resetMQTTPush.portalID = c.portalID
    unfold Client.resetMQTTPush
    split_ifs <;> rfl
  | session => rfl
  | mode gateway => rfl
  | generation source => rfl
  | disconnect => rfl

/-- A step of a retirement keeps the portal. -/
theorem portalID_stepRetirement {s s' : Fenced} {j : ℕ} {t : Retirement}
    (hs : s.stepRetirement j t = some s') : s'.client.portalID = s.client.portalID := by
  obtain ⟨kind, pc⟩ := t
  cases pc with
  | waiting =>
    obtain ⟨m, -, rfl⟩ := Option.map_eq_some_iff.mp hs
    rfl
  | inside rest =>
    cases rest with
    | nil => exact Option.some.inj hs ▸ rfl
    | cons m rest => exact Option.some.inj hs ▸ portalID_apply s.client m
  | clearing =>
    obtain ⟨c, hc, rfl⟩ := Option.map_eq_some_iff.mp hs
    obtain ⟨c', hc', -, -, hportal, -⟩ := s.client.clearSource_spec
    obtain rfl := Option.some.inj (hc'.symm.trans hc)
    exact hportal
  | finished => cases hs

/-- The sections of the other events keep the portal. -/
theorem portalID_environment {r : NativeScalars} {s s' : Fenced} {e : FencedEvent}
    (he : ∀ i, e ≠ .callback i) (hs : s.step r e = some s') :
    s'.client.portalID = s.client.portalID := by
  cases e with
  | callback i => exact absurd rfl (he i)
  | retirement j =>
    obtain ⟨t, -, hs⟩ := Option.bind_eq_some_iff.mp hs
    exact portalID_stepRetirement hs
  | route i session retained m =>
    simp only [step] at hs
    split_ifs at hs
    exact Option.some.inj hs ▸ rfl
  | retire j kind =>
    simp only [step] at hs
    split_ifs at hs
    exact Option.some.inj hs ▸ rfl
  | expire =>
    obtain ⟨c, hc, rfl⟩ := Option.map_eq_some_iff.mp hs
    obtain ⟨c', hc', -, hportal, -⟩ := s.client.expireOptionalTelemetry_spec s.now
    exact Option.some.inj (hc'.symm.trans hc) ▸ hportal
  | overlay =>
    obtain ⟨c, hc, rfl⟩ := Option.map_eq_some_iff.mp hs
    show c.portalID = s.client.portalID
    rw [(Client.overlaid_of_eq_some hc).frame]
  | invalidate =>
    obtain ⟨c, hc, rfl⟩ := Option.map_eq_some_iff.mp hs
    obtain ⟨c', hc', -, -, hportal, -⟩ := s.client.invalidateState_spec
    exact Option.some.inj (hc'.symm.trans hc) ▸ hportal
  | apply st =>
    obtain rfl := Option.some.inj hs
    show (s.client.applyState st s.now).portalID = s.client.portalID
    unfold Client.applyState
    dsimp only
    split <;> rfl
  | camera p => exact Option.some.inj hs ▸ rfl
  | tick ms => exact Option.some.inj hs ▸ rfl

/-- A callback keeps the portal, or its portal section settles an empty one. -/
theorem portalID_stepCallback {r : NativeScalars} {s s' : Fenced} {i : ℕ} {b : Callback}
    (hs : s.stepCallback r i b = some s') :
    s'.client.portalID = s.client.portalID ∨
      s.client.portalID = "" ∧ ∃ rest, b.pc = .checked (.portal s'.client.portalID) rest := by
  rcases client_of_stepCallback hs with hsame | hchk
  · exact Or.inl (congrArg Client.portalID hsame)
  obtain ⟨session, retained, message, generation, pc⟩ := b
  cases pc with
  | checked sec rest =>
    obtain ⟨res, hres, rfl⟩ := Option.map_eq_some_iff.mp hs
    by_cases hbody : sec.IsBody
    · exact Or.inl (commit_of_isBody hres hbody).1
    · simp only [Section.IsBody, ne_eq, not_forall, not_not] at hbody
      obtain ⟨p, rfl⟩ := hbody
      rcases commit_portal hres with ⟨-, hc, -⟩ | ⟨hempty, hc⟩
      · exact Or.inl (congrArg Client.portalID hc)
      · refine Or.inr ⟨hempty, rest, ?_⟩
        show CallbackPC.checked (.portal p) rest = .checked (.portal res.1.portalID) rest
        rw [hc]
  | started => cases hchk
  | captured => cases hchk
  | admitted => cases hchk
  | ready sections => cases hchk
  | locked sec rest => cases hchk
  | committed rest => cases hchk
  | finished => cases hchk

/-- **Step.** A settled portal stays. -/
theorem portalID_step {r : NativeScalars} {s s' : Fenced} {e : FencedEvent}
    (hs : s.step r e = some s') (hne : s.client.portalID ≠ "") :
    s'.client.portalID = s.client.portalID := by
  by_cases he : ∃ i, e = .callback i
  · obtain ⟨i, rfl⟩ := he
    obtain ⟨b, -, hs⟩ := Option.bind_eq_some_iff.mp hs
    exact (portalID_stepCallback hs).resolve_right fun h => hne h.1
  · exact portalID_environment (fun i hi => he ⟨i, hi⟩) hs

/-! ## Routed callbacks -/

/-- Every callback is routed. -/
def AllRouted (s : Fenced) : Prop := ∀ i b, s.callbacks i = some b → Routed s.client b

/-- The callback that moves is routed, and the others stay routed. -/
theorem AllRouted.setCallback {s : Fenced} (h : s.AllRouted) {i : ℕ} {b : Callback} {c : Client}
    {m : RWMutex ℕ ℕ} (hp : s.client.portalID ≠ "" → c.portalID = s.client.portalID)
    (hb : Routed c b) : AllRouted ({ s with client := c, gatewayMu := m }.setCallback i b) := by
  intro k b' hb'
  replace hb' : Function.update s.callbacks i (some b) k = some b' := hb'
  by_cases hk : k = i
  · subst hk
    rw [Function.update_self] at hb'
    exact Option.some.inj hb' ▸ hb
  · rw [Function.update_of_ne hk] at hb'
    exact (h k b' hb').mono hp

/-- **Step of a callback.** -/
theorem routed_stepCallback {r : NativeScalars} {s s' : Fenced} {i : ℕ} {b : Callback}
    (h : s.AllRouted) (hb : s.callbacks i = some b) (hs : s.stepCallback r i b = some s') :
    s'.AllRouted := by
  have hrouted : Routed s.client b := h i b hb
  obtain ⟨session, retained, message, generation, pc⟩ := b
  cases pc with
  | started =>
    obtain rfl := Option.some.inj hs
    exact h.setCallback (fun _ => rfl) (RoutedSections.nil _ _)
  | captured =>
    obtain rfl := Option.some.inj hs
    refine h.setCallback (fun _ => rfl) ?_
    dsimp only
    split_ifs <;> exact RoutedSections.nil _ _
  | admitted =>
    obtain rfl := Option.some.inj hs
    refine h.setCallback (fun _ => rfl) ?_
    dsimp only
    split_ifs
    · exact RoutedSections.nil _ _
    · exact RoutedSections.of_sections r s.client message
  | ready sections =>
    cases sections with
    | nil =>
      obtain rfl := Option.some.inj hs
      exact h.setCallback (fun _ => rfl) (RoutedSections.nil _ _)
    | cons sec rest =>
      obtain ⟨m, -, rfl⟩ := Option.map_eq_some_iff.mp hs
      exact h.setCallback (fun _ => rfl) hrouted
  | locked sec rest =>
    simp only [stepCallback] at hs
    split_ifs at hs with hcur
    · obtain rfl := Option.some.inj hs
      exact h.setCallback (fun _ => rfl) hrouted
    · obtain rfl := Option.some.inj hs
      exact h.setCallback (fun _ => rfl) (RoutedSections.nil _ _)
  | checked sec rest =>
    have hkeep : s.client.portalID ≠ "" → s'.client.portalID = s.client.portalID := fun hne =>
      (portalID_stepCallback hs).resolve_right fun h => hne h.1
    obtain ⟨res, hres, rfl⟩ := Option.map_eq_some_iff.mp hs
    exact h.setCallback hkeep (RoutedSections.of_commit hrouted hres)
  | committed rest =>
    obtain rfl := Option.some.inj hs
    exact h.setCallback (fun _ => rfl) hrouted
  | finished => cases hs

/-- **Step.** Every callback stays routed. -/
theorem routed_step {r : NativeScalars} {s s' : Fenced} {e : FencedEvent} (h : s.AllRouted)
    (hs : s.step r e = some s') : s'.AllRouted := by
  have hkeep := portalID_step hs
  -- Where no callback moves, all of them stay routed.
  have hsame : s'.callbacks = s.callbacks → s'.AllRouted := by
    intro heq i b hb
    rw [heq] at hb
    exact (h i b hb).mono hkeep
  cases e with
  | callback i =>
    obtain ⟨b, hb, hs⟩ := Option.bind_eq_some_iff.mp hs
    exact routed_stepCallback h hb hs
  | route i session retained m =>
    simp only [step] at hs
    split_ifs at hs
    obtain rfl := Option.some.inj hs
    exact h.setCallback (fun _ => rfl) (RoutedSections.nil _ _)
  | retire j kind =>
    simp only [step] at hs
    split_ifs at hs
    exact hsame (Option.some.inj hs ▸ rfl)
  | retirement j =>
    obtain ⟨⟨kind, pc⟩, -, hs⟩ := Option.bind_eq_some_iff.mp hs
    refine hsame ?_
    cases pc with
    | waiting =>
      obtain ⟨m, -, rfl⟩ := Option.map_eq_some_iff.mp hs
      rfl
    | inside rest => cases rest <;> exact Option.some.inj hs ▸ rfl
    | clearing =>
      obtain ⟨c, -, rfl⟩ := Option.map_eq_some_iff.mp hs
      rfl
    | finished => cases hs
  | expire =>
    obtain ⟨c, -, rfl⟩ := Option.map_eq_some_iff.mp hs
    exact hsame rfl
  | overlay =>
    obtain ⟨c, -, rfl⟩ := Option.map_eq_some_iff.mp hs
    exact hsame rfl
  | invalidate =>
    obtain ⟨c, -, rfl⟩ := Option.map_eq_some_iff.mp hs
    exact hsame rfl
  | apply st => exact hsame (Option.some.inj hs ▸ rfl)
  | camera p => exact hsame (Option.some.inj hs ▸ rfl)
  | tick ms => exact hsame (Option.some.inj hs ▸ rfl)

/-- **Run.** Every callback of a reachable state is routed. -/
theorem routed_of_reachable {r : NativeScalars} {s : Fenced}
    (h : Transition.Reachable (Fenced.step r) (fun _ _ => True) Fenced.Init s) : s.AllRouted := by
  refine h.invariant (fun s hs i b hb => ?_) fun _ _ _ hi _ hs => routed_step hi hs
  rw [hs.2.1 i] at hb
  cases hb

/-! ## Isolation -/

/-- A foreign message has no effect. -/
theorem client_of_foreign {r : NativeScalars} {s s' : Fenced} {i : ℕ} {b : Callback}
    (hrouted : Routed s.client b) (hs : s.stepCallback r i b = some s')
    (hm : b.message.Foreign s.client) : s'.client = s.client := by
  rcases client_of_stepCallback hs with hsame | hchk
  · exact hsame
  obtain ⟨session, retained, message, generation, pc⟩ := b
  cases pc with
  | checked sec rest =>
    obtain ⟨res, hres, rfl⟩ := Option.map_eq_some_iff.mp hs
    exact commit_of_foreign hrouted hm hres
  | started => cases hchk
  | captured => cases hchk
  | admitted => cases hchk
  | ready sections => cases hchk
  | locked sec rest => cases hchk
  | committed rest => cases hchk
  | finished => cases hchk

/-- **Portal isolation.** A settled portal is the portal of every later state; a message that names
no portal, or another one than the settled one, changes nothing of the client; and an empty portal
is only ever settled by a message of the current session that names a valid one, and that carries a
real value when it is a native one.

**Proof sketch.** A callback whose check is pending was routed with a valid name, and with a real
value when the portal was empty then, which it was if it still is. A callback whose body is pending
was let through by a settled portal equal to its own, and a settled portal stays. -/
theorem portal_isolated (r : NativeScalars) {s s' : Fenced} {e : FencedEvent}
    (h : Transition.Reachable (Fenced.step r) (fun _ _ => True) Fenced.Init s)
    (hs : s.step r e = some s') :
    (s.client.portalID ≠ "" → ∀ s₁,
        Transition.Reachable (Fenced.step r) (fun _ _ => True) (· = s) s₁ →
        s₁.client.portalID = s.client.portalID) ∧
      (∀ i b, e = .callback i → s.callbacks i = some b → b.message.Foreign s.client →
        s'.client = s.client) ∧
      (s'.client.portalID ≠ s.client.portalID →
        s.client.portalID = "" ∧ validPortal s'.client.portalID = true ∧
          ∃ i b, e = .callback i ∧ s.callbacks i = some b ∧
            b.session = s.client.mqttSession ∧
            b.message.portalName = some s'.client.portalID ∧
            ∀ parts payload, b.message = .native parts payload → realValue payload = true) := by
  have hrouted := routed_of_reachable h
  refine ⟨fun hne s₁ h₁ => ?_, ?_, fun hne => ?_⟩
  · refine h₁.invariant (I := fun s₂ => s₂.client.portalID = s.client.portalID)
      (fun s₂ heq => by rw [heq]) fun s₂ _ s₃ hi _ hs₃ => ?_
    rw [portalID_step hs₃ (hi ▸ hne), hi]
  · rintro i b rfl hb hm
    obtain ⟨b', hb', hs⟩ := Option.bind_eq_some_iff.mp hs
    obtain rfl := Option.some.inj (hb.symm.trans hb')
    exact client_of_foreign (hrouted i b hb) hs hm
  · by_cases he : ∃ i, e = .callback i
    · obtain ⟨i, rfl⟩ := he
      obtain ⟨b, hb, hsb⟩ := Option.bind_eq_some_iff.mp hs
      obtain ⟨hempty, rest, hpc⟩ := (portalID_stepCallback hsb).resolve_left hne
      have hpending : RoutedSections s.client b.message
          (.portal s'.client.portalID :: rest) := by
        have := hrouted i b hb
        rwa [Routed, Callback.pending, hpc] at this
      obtain ⟨hvalid, hnames, hreal⟩ := RoutedSections.discovers hpending hempty
      have hcommits : s.Commits s' i := Or.inr fun heq => hne (congrArg Client.portalID heq)
      have hcur := tokens_of_sourceCurrent (sourceCurrent_of_commits h hb hs hcommits)
      exact ⟨hempty, hvalid, i, b, rfl, hb, hcur.1, hnames, hreal⟩
    · exact absurd (portalID_environment (fun i hi => he ⟨i, hi⟩) hs) hne

/-- The first messages of two portals have both checked their tokens. -/
def racing : List FencedEvent :=
  [.route 0 0 false (.native ["N", "c0", "heartbeat"] (.json (.obj [("value", .num (.ofInt 1))]))),
    .route 1 0 false (.native ["N", "c1", "heartbeat"] (.json (.obj [("value", .num (.ofInt 2))]))),
    .callback 0, .callback 0, .callback 0, .callback 0, .callback 0,
    .callback 1, .callback 1, .callback 1, .callback 1, .callback 1]

/-- The first one settles the portal, the second one has no effect. -/
def isRace (s : Fenced) : Bool :=
  (s.step Lan.noScalars (.callback 0)).any fun s₁ =>
    s₁.client.portalID == "c0" && s.client.portalID == "" &&
      (s₁.callbacks 1).any (fun b => b.isChecked && b.message.portalName == some "c1") &&
      (s₁.step Lan.noScalars (.callback 1)).isSome

theorem portal_isolated_racing : ∃ s s₁ s₂,
    Transition.Reachable (Fenced.step Lan.noScalars) (fun _ _ => True) Fenced.Init s ∧
      s.step Lan.noScalars (.callback 0) = some s₁ ∧ s.client.portalID = "" ∧
      validPortal s₁.client.portalID = true ∧
      s₁.step Lan.noScalars (.callback 1) = some s₂ ∧ s₂.client = s₁.client := by
  obtain ⟨s, hs, hp⟩ := Transition.Reachable.exists_of_run (Fenced.step Lan.noScalars)
    (fun _ _ => True) racing isRace init_idle (Transition.Allowed.of_forall
      (fun _ _ => trivial) idle) (by decide +kernel)
  obtain ⟨s₁, h₁, hp⟩ := (Option.any_eq_true _ _).mp hp
  simp only [Bool.and_eq_true, beq_iff_eq] at hp
  obtain ⟨⟨⟨hc₀, hempty⟩, hb⟩, h₂⟩ := hp
  obtain ⟨s₂, h₂⟩ := Option.isSome_iff_exists.mp h₂
  obtain ⟨b, hb, hname⟩ := (Option.any_eq_true _ _).mp hb
  simp only [Bool.and_eq_true, beq_iff_eq] at hname
  have hsettled : s₁.client.portalID ≠ s.client.portalID := by
    rw [hc₀, hempty]
    decide
  have hforeign : b.message.Foreign s₁.client := by
    refine ⟨"c1", hname.2, Or.inr ?_⟩
    rw [hc₀]
    decide
  have hvalid := ((portal_isolated Lan.noScalars hs h₁).2.2 hsettled).2.1
  have hsame := (portal_isolated Lan.noScalars (hs.next trivial h₁) h₂).2.1 1 b rfl hb hforeign
  exact ⟨s, s₁, s₂, hs, h₁, hempty, hvalid, h₂, hsame⟩

end Fenced

end Dashboard
