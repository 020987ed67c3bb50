import InverterDashboard.Source.Portal
import InverterDashboard.Source.Switch

set_option relaxedAutoImplicit false
set_option autoImplicit false

/-!
# The full refresh after a source switch

The broker repeats unchanged values only in answer to a keepalive without `suppress-republish`.
`keepaliveNeedsRefresh` asks the next keepalive to be one. `Subscribe` sets the flag and publishes
the first keepalive at once, and the recovery probe subscribes while the gateway mode is still on:
what the broker answers then is kept out by the fence. Beside the fenced client a run keeps the
calls of `publishKeepalive`, each with its stage, and remembers whether a message was missed.

## Main definitions

* `Dashboard.Client.link` — the refresh flag and the connection.
* `Dashboard.Client.admits` — a native message that nothing but the source guard keeps out.
* `Dashboard.Keepalive`, `Dashboard.Failback`, `Dashboard.Failback.step` — the system.
* `Dashboard.Failback.Followed` — a missed message is followed by a full refresh.
* `Dashboard.Failback.Deferred` — the refresh is still pending when the gateway mode is left, and
  stays pending until it is published.

## Main results

* `Dashboard.Fenced.link_step`, `Dashboard.Fenced.gatewayMode_step` — what a fenced step changes.
* `Dashboard.Fenced.not_commits_of_captured` — a message that arrives in gateway mode is discarded.
* `Dashboard.Failback.inv_step` — what one event keeps.
* `Dashboard.Failback.followed_of_reachable` — the refresh follows when it was deferred.
* `Dashboard.Failback.not_followed_of_recovery` — after the recovery probe nothing follows.
-/

namespace Dashboard

open Go

/-! ## The refresh flag -/

namespace Client

/-- The refresh flag and the connection. -/
def link (c : Client) : Bool × Bool := (c.keepaliveNeedsRefresh, c.connectionOpen)

theorem BannersOnly.link {c c' : Client} (h : BannersOnly c c') : c'.link = c.link := by
  obtain ⟨l, slots, seen, alarms, rfl⟩ := h
  rfl

theorem link_initCerboMaps (c : Client) : c.initCerboMaps.link = c.link := by
  rw [c.initCerboMaps_spec.1]
  rfl

theorem Overlaid.link {c c' : Client} (h : Overlaid c c') : c'.link = c.link := by
  rw [h.frame]
  rfl

theorem link_clearOptionalTelemetry {c c' : Client} (h : c.clearOptionalTelemetry = some c') :
    c'.link = c.link := by
  simp only [clearOptionalTelemetry, Option.bind_eq_bind, Option.bind_eq_some_iff, Option.pure_def,
    Option.some.injEq] at h
  obtain ⟨st₁, -, st₂, -, rfl⟩ := h
  exact Client.link_initCerboMaps
    { c with controllerESSMode := none, controllerESSObserved := none }

theorem link_clearSource {c c' : Client} (h : c.clearSource = some c') : c'.link = c.link := by
  obtain ⟨c₁, h₁, hlast⟩ := Option.bind_eq_some_iff.mp h
  obtain rfl := Option.some.inj hlast
  have h₂ := link_clearOptionalTelemetry h₁
  exact h₂

theorem link_expire {c c' : Client} {now : Time} (h : c.expireOptionalTelemetry now = some c') :
    c'.link = c.link := by
  unfold expireOptionalTelemetry at h
  dsimp only at h
  split at h
  · exact Option.some.inj h ▸ c.link_initCerboMaps
  · split_ifs at h
    · simp only [Option.bind_eq_bind, Option.bind_eq_some_iff, Option.pure_def,
        Option.some.injEq] at h
      obtain ⟨st₁, -, st₂, -, rfl⟩ := h
      exact c.link_initCerboMaps
    · exact Option.some.inj h ▸ c.link_initCerboMaps

theorem link_invalidateState {c c' : Client} (h : c.invalidateState = some c') :
    c'.link = c.link := by
  simp only [invalidateState, Option.bind_eq_bind, Option.bind_eq_some_iff, Option.pure_def,
    Option.some.injEq] at h
  obtain ⟨st₁, -, st₂, -, rfl⟩ := h
  exact c.link_initCerboMaps

theorem link_setGatewayConnected {c c' : Client} {v : Bool}
    (h : c.setGatewayConnected v = some c') :
    c'.link = c.link := by
  have hreset : ∀ c₁ : Client,
      (if c₁.gatewayMode then c₁.resetPush .gateway else c₁).link = c₁.link := by
    intro c₁
    split_ifs <;> rfl
  simp only [setGatewayConnected] at h
  by_cases hch : (c.gatewayConnected != v) = true
  · rw [if_pos hch] at h
    cases v with
    | true => exact Option.some.inj h ▸ hreset { c with gatewayConnected := true }
    | false =>
      exact (link_clearOptionalTelemetry h).trans (hreset { c with gatewayConnected := false })
  · rw [if_neg hch] at h
    exact Option.some.inj h ▸ rfl

theorem link_applyState (c : Client) (st : State) (now : Time) :
    (c.applyState st now).link = c.link := by
  unfold applyState
  dsimp only
  split <;> rfl

theorem link_commitController {c c' : Client} {override : Bool} {data : Frame} {retained : Bool}
    {now : Time} (h : c.commitController override data retained now = some c') :
    c'.link = c.link := by
  rw [commitController_frame h]
  rfl

end Client

/-- No section of a callback changes the refresh flag. -/
theorem link_commit {r : NativeScalars} {c : Client} {retained : Bool} {now : Time}
    {sec : Section} {res : Client × Bool} (h : sec.commit r c retained now = some res) :
    res.1.link = c.link := by
  cases sec with
  | portal p =>
    simp only [Section.commit] at h
    split_ifs at h <;> exact Option.some.inj h ▸ rfl
  | platform u => exact Option.some.inj h ▸ (c.commitPlatform_frame r u).link
  | alarm parts payload => exact Option.some.inj h ▸ (c.commitAlarm_frame r parts payload).link
  | notification n => exact Option.some.inj h ▸ (c.commitNotification_frame n).link
  | device parts payload =>
    obtain ⟨⟨c₁, changed⟩, hc₁, rfl⟩ := Option.map_eq_some_iff.mp h
    obtain ⟨c₂, changed₂, hc₂, hspec⟩ := c.handleCerboDevice_spec parts payload now
    obtain ⟨rfl, rfl⟩ := Prod.mk.inj (Option.some.inj (hc₂.symm.trans hc₁))
    show c₂.link = c.link
    rcases hspec with ⟨-, rfl | rfl⟩ | ⟨-, c₀, hst, hov⟩
    · rfl
    · exact c.link_initCerboMaps
    · rw [hov.link, hst.frame]
      rfl
  | controller override data =>
    obtain ⟨c₁, hc₁, rfl⟩ := Option.map_eq_some_iff.mp h
    exact Client.link_commitController hc₁

namespace Fenced

/-- No change of the tokens changes the refresh flag. -/
theorem link_apply (c : Client) (m : Mutation) : (m.apply c).link = c.link := by
  cases m with
  | banners always => exact (c.resetNativeNotifications_frame _).link
  | mqttGeneration =>
    show c.resetMQTTPush.link = c.link
    unfold Client.resetMQTTPush
    split_ifs <;> rfl
  | session => rfl
  | mode gateway => rfl
  | generation source => rfl
  | disconnect => rfl

/-! ## Fenced steps -/

/-- The change of the tokens that an event runs. -/
def mutation (s : Fenced) : FencedEvent → Option Mutation
  | .retirement j => (s.retirements j).bind fun t =>
    match t.pc with
    | .inside (m :: _) => some m
    | _ => none
  | _ => none

/-- A step of a callback leaves the client alone or commits a section. -/
theorem commit_of_stepCallback {r : NativeScalars} {s s' : Fenced} {i : ℕ} {b : Callback}
    (hs : s.stepCallback r i b = some s') : s'.client = s.client ∨
      ∃ sec res, Section.commit r s.client b.retained s.now sec = some res ∧
        s'.client = res.1 := by
  rcases client_of_stepCallback hs with hsame | hchk
  · exact Or.inl hsame
  obtain ⟨session, retained, message, generation, pc⟩ := b
  cases pc with
  | checked sec rest =>
    obtain ⟨res, hres, rfl⟩ := Option.map_eq_some_iff.mp hs
    exact Or.inr ⟨sec, res, hres, rfl⟩
  | started => cases hchk
  | captured => cases hchk
  | admitted => cases hchk
  | ready sections => cases hchk
  | locked sec rest => cases hchk
  | committed rest => cases hchk
  | finished => cases hchk

/-- What a step of a retirement does to the client. -/
theorem client_of_stepRetirement {s s' : Fenced} {j : ℕ} {t : Retirement}
    (ht : s.retirements j = some t) (hs : s.stepRetirement j t = some s') :
    (∃ m, s.mutation (.retirement j) = some m ∧ s'.client = m.apply s.client) ∨
      s.mutation (.retirement j) = none ∧
        (s'.client = s.client ∨ s.client.clearSource = some s'.client) := by
  have hmut : s.mutation (.retirement j) = (some t).bind fun t =>
      match t.pc with
      | .inside (m :: _) => some m
      | _ => none := by rw [mutation, ht]
  obtain ⟨kind, pc⟩ := t
  cases pc with
  | waiting =>
    obtain ⟨m, -, rfl⟩ := Option.map_eq_some_iff.mp hs
    exact Or.inr ⟨hmut, Or.inl rfl⟩
  | inside rest =>
    cases rest with
    | nil =>
      obtain rfl := Option.some.inj hs
      exact Or.inr ⟨hmut, Or.inl rfl⟩
    | cons m rest =>
      obtain rfl := Option.some.inj hs
      exact Or.inl ⟨m, hmut, rfl⟩
  | clearing =>
    obtain ⟨c, hc, rfl⟩ := Option.map_eq_some_iff.mp hs
    exact Or.inr ⟨hmut, Or.inr hc⟩
  | finished => cases hs

/-- **Step.** No fenced step changes the refresh flag or the connection. -/
theorem link_step {r : NativeScalars} {s s' : Fenced} {e : FencedEvent}
    (hs : s.step r e = some s') : s'.client.link = s.client.link := by
  cases e with
  | callback i =>
    obtain ⟨b, -, hs⟩ := Option.bind_eq_some_iff.mp hs
    rcases commit_of_stepCallback hs with hsame | ⟨sec, res, hres, hc⟩
    · rw [hsame]
    · rw [hc]
      exact link_commit hres
  | retirement j =>
    obtain ⟨t, ht, hs⟩ := Option.bind_eq_some_iff.mp hs
    rcases client_of_stepRetirement ht hs with ⟨m, -, hc⟩ | ⟨-, hc | hc⟩
    · rw [hc]
      exact link_apply s.client m
    · rw [hc]
    · exact Client.link_clearSource hc
  | route i session retained m =>
    simp only [step] at hs
    split_ifs at hs
    exact Option.some.inj hs ▸ rfl
  | retire j kind =>
    simp only [step] at hs
    split_ifs at hs
    exact Option.some.inj hs ▸ rfl
  | expire =>
    obtain ⟨c, hc, rfl⟩ := Option.map_eq_some_iff.mp hs
    exact Client.link_expire hc
  | overlay =>
    obtain ⟨c, hc, rfl⟩ := Option.map_eq_some_iff.mp hs
    exact (Client.overlaid_of_eq_some hc).link
  | invalidate =>
    obtain ⟨c, hc, rfl⟩ := Option.map_eq_some_iff.mp hs
    exact Client.link_invalidateState hc
  | apply st => exact Option.some.inj hs ▸ s.client.link_applyState st s.now
  | camera p => exact Option.some.inj hs ▸ rfl
  | tick ms => exact Option.some.inj hs ▸ rfl

/-- The gateway mode behind a change of the tokens. -/
theorem gatewayMode_apply (c : Client) (m : Mutation) : (m.apply c).gatewayMode =
    match m with
    | .mode gateway => gateway
    | _ => c.gatewayMode := by
  cases m with
  | banners always => exact (c.resetNativeNotifications_frame _).sameTransport.gateway
  | mqttGeneration =>
    show c.resetMQTTPush.gatewayMode = c.gatewayMode
    unfold Client.resetMQTTPush
    split_ifs <;> rfl
  | session => rfl
  | mode gateway => rfl
  | generation source => rfl
  | disconnect => rfl

/-- **Step.** Only the first section of a switch changes the gateway mode. -/
theorem gatewayMode_step {r : NativeScalars} {s s' : Fenced} {e : FencedEvent}
    (hs : s.step r e = some s') : s'.client.gatewayMode =
      match s.mutation e with
      | some (.mode gateway) => gateway
      | _ => s.client.gatewayMode := by
  by_cases hcb : ∃ i, e = .callback i
  · obtain ⟨i, rfl⟩ := hcb
    obtain ⟨b, -, hs⟩ := Option.bind_eq_some_iff.mp hs
    show s'.client.gatewayMode = s.client.gatewayMode
    rcases commit_of_stepCallback hs with hsame | ⟨sec, res, hres, hc⟩
    · rw [hsame]
    · rw [hc]
      exact (commit_sameTransport hres).gateway
  by_cases hret : ∃ j, e = .retirement j
  · obtain ⟨j, rfl⟩ := hret
    obtain ⟨t, ht, hs⟩ := Option.bind_eq_some_iff.mp hs
    rcases client_of_stepRetirement ht hs with ⟨m, hm, hc⟩ | ⟨hm, hc | hc⟩
    · rw [hc, hm, gatewayMode_apply]
      cases m <;> rfl
    · rw [hc, hm]
    · rw [hm]
      obtain ⟨c', hc', htr, -⟩ := s.client.clearSource_spec
      obtain rfl := Option.some.inj (hc'.symm.trans hc)
      exact htr.gateway
  · have hsame := environment_sameTransport (fun i hi => hcb ⟨i, hi⟩) (fun j hj => hret ⟨j, hj⟩) hs
    have hnone : s.mutation e = none := by
      cases e with
      | retirement j => exact absurd ⟨j, rfl⟩ hret
      | _ => rfl
    rw [hnone]
    exact hsame.gateway

/-! ## Missed messages -/

/-- The changes a retirement has left are the last ones of its kind. -/
def Ordered (s : Fenced) : Prop :=
  ∀ j t rest, s.retirements j = some t → t.pc = .inside rest → rest <:+ t.kind.mutations

/-- The retirement that moves has its last changes left. -/
theorem Ordered.setRetirement {s : Fenced} (h : s.Ordered) {j : ℕ} {t : Retirement} {c : Client}
    {m : RWMutex ℕ ℕ} (ht : ∀ rest, t.pc = .inside rest → rest <:+ t.kind.mutations) :
    Ordered ({ s with client := c, gatewayMu := m }.setRetirement j t) := by
  intro k t' rest hk hpc
  replace hk : Function.update s.retirements j (some t) k = some t' := hk
  by_cases hkj : k = j
  · subst hkj
    rw [Function.update_self] at hk
    obtain rfl := Option.some.inj hk
    exact ht rest hpc
  · rw [Function.update_of_ne hkj] at hk
    exact h k t' rest hk hpc

/-- A step of a callback moves no retirement. -/
theorem retirements_of_stepCallback {r : NativeScalars} {s s' : Fenced} {i : ℕ} {b : Callback}
    (hs : s.stepCallback r i b = some s') : s'.retirements = s.retirements := by
  obtain ⟨session, retained, message, generation, pc⟩ := b
  cases pc with
  | started => exact Option.some.inj hs ▸ rfl
  | captured => exact Option.some.inj hs ▸ rfl
  | admitted => exact Option.some.inj hs ▸ rfl
  | ready sections =>
    cases sections with
    | nil => exact Option.some.inj hs ▸ rfl
    | cons sec rest =>
      obtain ⟨m, -, rfl⟩ := Option.map_eq_some_iff.mp hs
      rfl
  | locked sec rest =>
    simp only [stepCallback] at hs
    split_ifs at hs <;> exact Option.some.inj hs ▸ rfl
  | checked sec rest =>
    obtain ⟨res, -, rfl⟩ := Option.map_eq_some_iff.mp hs
    rfl
  | committed rest => exact Option.some.inj hs ▸ rfl
  | finished => cases hs

/-- Only retirements move retirements. -/
theorem retirements_step {r : NativeScalars} {s s' : Fenced} {e : FencedEvent}
    (he : ∀ j, e ≠ .retirement j) (hk : ∀ j kind, e ≠ .retire j kind)
    (hs : s.step r e = some s') : s'.retirements = s.retirements := by
  cases e with
  | callback i =>
    obtain ⟨b, -, hs⟩ := Option.bind_eq_some_iff.mp hs
    exact retirements_of_stepCallback hs
  | retirement j => exact absurd rfl (he j)
  | retire j kind => exact absurd rfl (hk j kind)
  | route i session retained m =>
    simp only [step] at hs
    split_ifs at hs
    exact Option.some.inj hs ▸ rfl
  | expire =>
    obtain ⟨c, -, rfl⟩ := Option.map_eq_some_iff.mp hs
    rfl
  | overlay =>
    obtain ⟨c, -, rfl⟩ := Option.map_eq_some_iff.mp hs
    rfl
  | invalidate =>
    obtain ⟨c, -, rfl⟩ := Option.map_eq_some_iff.mp hs
    rfl
  | apply st => exact Option.some.inj hs ▸ rfl
  | camera p => exact Option.some.inj hs ▸ rfl
  | tick ms => exact Option.some.inj hs ▸ rfl

/-- **Step.** Retirements go through their changes in order. -/
theorem ordered_step {r : NativeScalars} {s s' : Fenced} {e : FencedEvent} (h : s.Ordered)
    (hs : s.step r e = some s') : s'.Ordered := by
  by_cases hret : ∃ j, e = .retirement j
  · obtain ⟨j, rfl⟩ := hret
    obtain ⟨⟨kind, pc⟩, ht, hs⟩ := Option.bind_eq_some_iff.mp hs
    cases pc with
    | waiting =>
      obtain ⟨m, -, rfl⟩ := Option.map_eq_some_iff.mp hs
      exact h.setRetirement fun rest hpc =>
        RetirementPC.inside.inj hpc ▸ List.suffix_refl kind.mutations
    | inside rest =>
      cases rest with
      | nil =>
        obtain rfl := Option.some.inj hs
        refine h.setRetirement fun rest hpc => ?_
        dsimp only at hpc
        split_ifs at hpc
      | cons m rest =>
        obtain rfl := Option.some.inj hs
        refine h.setRetirement fun rest' hpc => ?_
        obtain rfl := RetirementPC.inside.inj hpc
        exact (List.suffix_cons m rest).trans (h j ⟨kind, .inside (m :: rest)⟩ _ ht rfl)
    | clearing =>
      obtain ⟨c, -, rfl⟩ := Option.map_eq_some_iff.mp hs
      exact h.setRetirement fun rest hpc => by cases hpc
    | finished => cases hs
  by_cases hcall : ∃ j kind, e = .retire j kind
  · obtain ⟨j, kind, rfl⟩ := hcall
    simp only [step] at hs
    split_ifs at hs
    exact Option.some.inj hs ▸ h.setRetirement fun rest hpc => by cases hpc
  · intro j t rest ht hpc
    rw [retirements_step (fun j hj => hret ⟨j, hj⟩) (fun j kind hj => hcall ⟨j, kind, hj⟩) hs] at ht
    exact h j t rest ht hpc

/-- **Run.** Retirements of a reachable state went through their changes in order. -/
theorem retirementsOrdered_of_reachable {r : NativeScalars} {s : Fenced}
    (h : Transition.Reachable (Fenced.step r) (fun _ _ => True) Fenced.Init s) : s.Ordered := by
  refine h.invariant (fun s hs j t rest ht => ?_) fun _ _ _ hi _ hs => ordered_step hi hs
  rw [hs.2.2 j] at ht
  cases ht

/-- A retirement is about to advance the generation. -/
def Advancing (s : Fenced) : Prop :=
  ∃ j t source rest, s.retirements j = some t ∧ t.pc = .inside (.generation source :: rest)

/-- The generation was advanced since, or it is about to be, or the gateway mode is on. -/
def Outdated (g : ℕ) (s : Fenced) : Prop :=
  g < s.client.pushGeneration ∨
    g = s.client.pushGeneration ∧ (s.client.gatewayMode = true ∨ s.Advancing)

/-- A change of the tokens is run by the retirement it comes from. -/
theorem step_of_mutation {r : NativeScalars} {s s' : Fenced} {e : FencedEvent} {m : Mutation}
    (hm : s.mutation e = some m) (hs : s.step r e = some s') :
    ∃ j t rest, e = .retirement j ∧ s.retirements j = some t ∧ t.pc = .inside (m :: rest) ∧
      s' = { s with client := m.apply s.client }.setRetirement j { t with pc := .inside rest } := by
  cases e with
  | retirement j =>
    obtain ⟨⟨kind, pc⟩, ht, hpc⟩ := Option.bind_eq_some_iff.mp hm
    obtain ⟨t', ht', hs⟩ := Option.bind_eq_some_iff.mp hs
    obtain rfl := Option.some.inj (ht.symm.trans ht')
    cases pc with
    | inside rest =>
      cases rest with
      | nil => cases hpc
      | cons m' rest =>
        obtain rfl := Option.some.inj hpc
        exact ⟨j, _, rest, rfl, ht, rfl, (Option.some.inj hs).symm⟩
    | waiting => cases hpc
    | clearing => cases hpc
    | finished => cases hpc
  | _ => cases hm

/-- A retirement waits for its own steps. -/
theorem retirement_kept {r : NativeScalars} {s s' : Fenced} {e : FencedEvent} {j : ℕ}
    {t : Retirement} (ht : s.retirements j = some t) (he : e ≠ .retirement j)
    (hs : s.step r e = some s') : s'.retirements j = some t := by
  by_cases hret : ∃ k, e = .retirement k
  · obtain ⟨k, rfl⟩ := hret
    have hk : j ≠ k := fun h => he (h ▸ rfl)
    obtain ⟨⟨kind, pc⟩, -, hs⟩ := Option.bind_eq_some_iff.mp hs
    cases pc with
    | waiting =>
      obtain ⟨m, -, rfl⟩ := Option.map_eq_some_iff.mp hs
      exact (Function.update_of_ne hk _ _).trans ht
    | inside rest =>
      cases rest <;> exact Option.some.inj hs ▸ (Function.update_of_ne hk _ _).trans ht
    | clearing =>
      obtain ⟨c, -, rfl⟩ := Option.map_eq_some_iff.mp hs
      exact (Function.update_of_ne hk _ _).trans ht
    | finished => cases hs
  by_cases hcall : ∃ k kind, e = .retire k kind
  · obtain ⟨k, kind, rfl⟩ := hcall
    simp only [step] at hs
    split_ifs at hs with hnone
    have hk : j ≠ k := by
      rintro rfl
      rw [hnone] at ht
      cases ht
    exact Option.some.inj hs ▸ (Function.update_of_ne hk _ _).trans ht
  · rw [retirements_step (fun k hk => hret ⟨k, hk⟩) (fun k kind hk => hcall ⟨k, kind, hk⟩) hs]
    exact ht

/-- Behind the change of the mode, `DisableGatewayMode` advances the generation. -/
theorem rest_of_suffix {kind : RetirementKind} {rest : List Mutation}
    (h : .mode false :: rest <:+ kind.mutations) :
    rest = [.generation .mqtt, .banners true, .disconnect] := by
  cases kind <;> simp [RetirementKind.mutations, List.suffix_cons_iff] at h
  exact h

/-- **Step.** An outdated generation stays outdated. -/
theorem outdated_step {r : NativeScalars} {s s' : Fenced} {e : FencedEvent} {g : ℕ}
    (hord : s.Ordered) (h : Outdated g s) (hs : s.step r e = some s') : Outdated g s' := by
  have hmono := (later_step hs).generation
  rcases h with hlt | ⟨rfl, h⟩
  · exact Or.inl (hlt.trans_le hmono)
  rcases hmono.lt_or_eq with hlt | heq
  · exact Or.inl hlt
  refine Or.inr ⟨heq, ?_⟩
  rcases h with hmode | ⟨j, t, source, rest, ht, hpc⟩
  · by_cases hm : s.mutation e = some (.mode false)
    · -- The gateway mode is left, and the generation comes next.
      obtain ⟨j, t, rest, rfl, ht, hpc, rfl⟩ := step_of_mutation hm hs
      obtain rfl := rest_of_suffix (hord j t _ ht hpc)
      exact Or.inr ⟨j, _, .mqtt, _, Function.update_self _ _ _, rfl⟩
    · left
      rw [gatewayMode_step hs]
      split
      · rename_i gateway hgateway
        cases gateway with
        | true => rfl
        | false => exact absurd hgateway hm
      · exact hmode
  · by_cases he : e = .retirement j
    · subst he
      have hm : s.mutation (.retirement j) = some (.generation source) := by
        rw [mutation, ht, Option.bind_some, hpc]
      obtain ⟨k, t', rest', hk, ht', hpc', rfl⟩ := step_of_mutation hm hs
      have hgen : s.client.pushGeneration = s.client.pushGeneration + 1 := heq
      omega
    · exact Or.inr ⟨j, t, source, rest, retirement_kept ht he hs, hpc⟩

/-- The first step of a callback captures the generation. -/
theorem captured_of_started {r : NativeScalars} {s s' : Fenced} {i : ℕ} {b : Callback}
    (hb : s.callbacks i = some b) (hpc : b.pc = .started) (hs : s.step r (.callback i) = some s') :
    ∃ b', s'.callbacks i = some b' ∧ b'.pc ≠ .started ∧
      b'.generation = s.client.pushGeneration ∧ s'.client = s.client := by
  obtain ⟨b', hb', hs⟩ := Option.bind_eq_some_iff.mp hs
  obtain rfl := Option.some.inj (hb.symm.trans hb')
  rw [stepCallback, hpc] at hs
  obtain rfl := Option.some.inj hs
  exact ⟨_, Function.update_self _ _ _, by simp, rfl, rfl⟩

/-- **A message that arrives in gateway mode is discarded.** A callback that captures its generation
in gateway mode never commits.

**Proof sketch.** Its generation is outdated from then on. When it commits, its generation is the
current one and the gateway mode is off, so a retirement is inside the write side; but the callback
holds the read side. -/
theorem not_commits_of_captured {r : NativeScalars} {s s₀ s₁ s₂ : Fenced} {i : ℕ} {b : Callback}
    (h : Transition.Reachable (Fenced.step r) (fun _ _ => True) Fenced.Init s)
    (hb : s.callbacks i = some b) (hpc : b.pc = .started) (hmode : s.client.gatewayMode = true)
    (hs : s.step r (.callback i) = some s₀)
    (h₁ : Transition.Reachable (Fenced.step r) (fun _ _ => True) (· = s₀) s₁)
    (hs₂ : s₁.step r (.callback i) = some s₂) : ¬ s₁.Commits s₂ i := by
  obtain ⟨b₀, hb₀, hst, hgen₀, hclient⟩ := captured_of_started hb hpc hs
  have hr₀ := h.next trivial hs
  have hreach := hr₀.trans h₁
  -- The captured generation is outdated in every later state.
  have hout := Transition.Reachable.invariant (I := fun x =>
      x.Ordered ∧ Outdated s.client.pushGeneration x)
    (fun x hx => hx ▸ ⟨retirementsOrdered_of_reachable hr₀, Or.inr
      ⟨by rw [hclient], Or.inl (by rw [hclient, hmode])⟩⟩)
    (fun x e x' hi _ hx => ⟨ordered_step hi.1 hx, outdated_step hi.1 hi.2 hx⟩) h₁
  have hlater : Later s₀ s₁ := h₁.invariant (fun _ heq => heq ▸ Later.refl s₀)
    fun _ _ _ hi _ hs => hi.trans (later_step hs)
  obtain ⟨b₁, hb₁, -, hkept⟩ := hlater.bound i b₀ hb₀
  have hgen : b₁.generation = s.client.pushGeneration := (hkept hst).2.trans hgen₀
  intro hc
  obtain ⟨-, hcur, hlan⟩ := tokens_of_sourceCurrent (sourceCurrent_of_commits hreach hb₁ hs₂ hc)
  rcases hout.2 with hlt | ⟨-, hmode | ⟨j, t, source, rest, ht, hpc⟩⟩
  · omega
  · rw [hlan] at hmode
    cases hmode
  · have hinv := inv_of_reachable hreach
    have hfree := hinv.not_holds ht (by rw [Retirement.holds, hpc]) hb₁
    have hchk : b₁.isChecked = true := by
      rcases hc with ⟨b₂, hb₂, hchk⟩ | hne
      · exact Option.some.inj (hb₁.symm.trans hb₂) ▸ hchk
      · obtain ⟨b₂, hb₂, hs₂⟩ := Option.bind_eq_some_iff.mp hs₂
        obtain rfl := Option.some.inj (hb₁.symm.trans hb₂)
        exact (client_of_stepCallback hs₂).resolve_left hne
    rw [holds_of_isChecked hchk] at hfree
    cases hfree

end Fenced

/-! ## The system -/

/-- A native message that nothing but the source guard keeps out: it has sections, and names the
portal if there is one. -/
def Client.admits (r : NativeScalars) (c : Client) : Message → Bool
  | .native parts payload => !(nativeSections r c parts payload).isEmpty &&
    (c.portalID == "" || c.portalID == parts.getD 1 "")
  | _ => false

/-- Whether the callback has read nothing yet. -/
def Callback.isStarted (b : Callback) : Bool :=
  match b.pc with
  | .started => true
  | _ => false

/-- A call of `publishKeepalive` and its stages. -/
inductive Keepalive where
  /-- Nothing read yet. -/
  | called (suppress : Bool)
  /-- The portal is known and the connection open. -/
  | admitted (suppress : Bool)
  /-- The flag is read: whether the keepalive asks for everything. -/
  | decided (full : Bool)
  /-- The broker took it or not, after that many switches. -/
  | published (full sent : Bool) (switches : ℕ)
  /-- Returned. -/
  | finished
  deriving DecidableEq

/-- The last section of `publishKeepalive`. -/
def Client.recordKeepalive (c : Client) (full sent : Bool) : Client :=
  { c with keepaliveNeedsRefresh := if full then !sent else c.keepaliveNeedsRefresh }

/-- The fenced client, the running calls of `publishKeepalive`, whether a message of the current
session was missed in gateway mode, how often the gateway mode was left, and whether a full
keepalive was published since. -/
structure Failback where
  fenced : Fenced
  calls : ℕ → Option Keepalive
  missed : Bool
  switches : ℕ
  refreshed : Bool

/-- What can happen. The sections of `Subscribe`, of `refreshPortal`, of the keepalive loop and of
the recovery probe are events of their own, so that they interleave with everything else. -/
inductive FailbackEvent where
  /-- A callback, a retirement or a section that changes no token. -/
  | fenced (e : FencedEvent)
  /-- The connection opens or closes; `Subscribe` enables its subscriptions. -/
  | connection (opened enabled : Bool)
  /-- `SetGatewayConnected`. -/
  | connected (v : Bool)
  /-- `stopKeepalive`. -/
  | stopKeepalive
  /-- The flag section of `startKeepalive`. -/
  | startKeepalive
  /-- The flag section of `refreshPortal`. -/
  | refreshPortal (session : ℕ)
  /-- `publishKeepalive` is called: with `suppress` by the keepalive loop, and without it behind the
  two flag sections. -/
  | keepalive (k : ℕ) (suppress : Bool)
  /-- A call of `publishKeepalive` takes its next stage. -/
  | keepaliving (k : ℕ) (sent : Bool)

namespace Fenced

/-- The event starts a new session. -/
def advances (s : Fenced) (e : FencedEvent) : Bool :=
  match s.mutation e with
  | some .session => true
  | _ => false

/-- The event leaves the gateway mode. -/
def leaves (s : Fenced) (e : FencedEvent) : Bool :=
  match s.mutation e with
  | some (.mode false) => s.client.gatewayMode
  | _ => false

/-- A native message of the current session arrives in gateway mode, and nothing else would keep it
out. -/
def misses (r : NativeScalars) (s : Fenced) : FencedEvent → Bool
  | .callback i => (s.callbacks i).any fun b =>
    b.isStarted && s.client.gatewayMode && b.session == s.client.mqttSession &&
      s.client.admits r b.message
  | _ => false

end Fenced

namespace Failback

/-- The system with another client. -/
def setClient (s : Failback) (c : Client) : Failback :=
  { s with fenced := { s.fenced with client := c } }

/-- The system with the call `k` replaced. -/
def setCall (s : Failback) (k : ℕ) (t : Keepalive) : Failback :=
  { s with calls := Function.update s.calls k (some t) }

/-- The next stage of the call `k`. -/
def stepKeepalive (s : Failback) (k : ℕ) (sent : Bool) : Keepalive → Option Failback
  | .called suppress =>
    some (s.setCall k (if s.fenced.client.portalID = "" ∨ s.fenced.client.connectionOpen = false
      then .finished else .admitted suppress))
  | .admitted suppress =>
    some (s.setCall k (.decided (!suppress || s.fenced.client.keepaliveNeedsRefresh)))
  | .decided full =>
    some ({ s with refreshed := s.refreshed || (full && sent) }.setCall k
      (.published full sent s.switches))
  | .published full sent _ =>
    some ((s.setClient (s.fenced.client.recordKeepalive full sent)).setCall k .finished)
  | .finished => none

/-- One event. -/
def step (r : NativeScalars) (s : Failback) : FailbackEvent → Option Failback
  | .fenced e => (s.fenced.step r e).map fun f =>
    { s with
      fenced := f
      missed := !s.fenced.advances e && (s.missed || s.fenced.misses r e)
      switches := if s.fenced.leaves e then s.switches + 1 else s.switches
      refreshed := !s.fenced.leaves e && s.refreshed }
  | .connection opened enabled => some (s.setClient
    { s.fenced.client with connectionOpen := opened, subscriptionsEnabled := enabled })
  | .connected v => (s.fenced.client.setGatewayConnected v).map s.setClient
  | .stopKeepalive => some (s.setClient s.fenced.client.stopKeepalive)
  | .startKeepalive => some (s.setClient
    { s.fenced.client.stopKeepalive with keepaliveStop := true, keepaliveNeedsRefresh := true })
  | .refreshPortal session =>
    if s.fenced.client.mqttSession = session then
      some (s.setClient { s.fenced.client with keepaliveNeedsRefresh := true })
    else none
  | .keepalive k suppress =>
    if s.calls k = none then some (s.setCall k (.called suppress)) else none
  | .keepaliving k sent => (s.calls k).bind (s.stepKeepalive k sent)

/-- A new client, and nothing runs. -/
def Init (s : Failback) : Prop :=
  s.fenced.Init ∧ (∃ cfg, s.fenced.client = newClient cfg) ∧ (∀ k, s.calls k = none) ∧
    s.missed = false ∧ s.switches = 0 ∧ s.refreshed = false

/-- An uninterrupted call without `suppress` is the function. -/
theorem run_keepalive (r : NativeScalars) (s : Failback) {k : ℕ} (sent : Bool)
    (hk : s.calls k = some (.called false)) (hp : s.fenced.client.portalID ≠ "")
    (ho : s.fenced.client.connectionOpen = true) :
    (Transition.run (Failback.step r) s (List.replicate 4 (.keepaliving k sent))).map
      (fun s' => s'.fenced.client) = some (s.fenced.client.publishKeepalive sent) := by
  simp [List.replicate, Transition.run, step, hk, stepKeepalive, setCall, setClient, hp, ho,
    Client.publishKeepalive, Client.recordKeepalive]

/-! ## The refresh behind a switch -/

/-- In LAN mode, with an open connection and a known portal: when a message of the session was
missed, the flag is set, or a full keepalive was published since the gateway mode was left. -/
def Followed (s : Failback) : Prop :=
  s.fenced.client.gatewayMode = false → s.fenced.client.connectionOpen = true →
    s.fenced.client.portalID ≠ "" → s.missed = true →
      s.fenced.client.keepaliveNeedsRefresh = true ∨ s.refreshed = true

/-- What the call `k` is about to record was published since the gateway mode was left, or another
full keepalive was. -/
def current (s : Failback) (k : ℕ) : Bool :=
  match s.calls k with
  | some (.published true true switches) => switches == s.switches || s.refreshed
  | _ => true

/-- When the gateway mode is left after a message was missed, the refresh is still pending, and it
stays pending until a full keepalive is published. -/
def Deferred (s : Failback) : FailbackEvent → Prop
  | .fenced e => s.fenced.leaves e = true → s.missed = true →
    s.fenced.client.keepaliveNeedsRefresh = true
  | .keepaliving k _ => s.fenced.client.gatewayMode = false → s.missed = true → s.current k = true
  | _ => True

instance (s : Failback) (e : FailbackEvent) : Decidable (s.Deferred e) :=
  match e with
  | .fenced e => inferInstanceAs (Decidable (s.fenced.leaves e = true → s.missed = true →
      s.fenced.client.keepaliveNeedsRefresh = true))
  | .keepaliving k _ => inferInstanceAs (Decidable (s.fenced.client.gatewayMode = false →
      s.missed = true → s.current k = true))
  | .connection .. | .connected _ | .stopKeepalive | .startKeepalive | .refreshPortal _
  | .keepalive .. => isTrue trivial

/-! ## The invariant -/

/-- A missed message is followed by a refresh, and what was published since the gateway mode was
left is remembered. -/
structure Inv (s : Failback) : Prop where
  followed : s.fenced.client.gatewayMode = false → s.missed = true →
    s.fenced.client.keepaliveNeedsRefresh = true ∨ s.refreshed = true
  bound : ∀ k full sent switches, s.calls k = some (.published full sent switches) →
    switches ≤ s.switches
  recorded : ∀ k, s.calls k = some (.published true true s.switches) → s.refreshed = true

theorem inv_of_init {s : Failback} (h : s.Init) : s.Inv := by
  obtain ⟨-, -, hcalls, hmissed, -, -⟩ := h
  refine ⟨fun _ hm => ?_, fun k full sent switches hk => ?_, fun k hk => ?_⟩
  · rw [hmissed] at hm
    cases hm
  · rw [hcalls k] at hk
    cases hk
  · rw [hcalls k] at hk
    cases hk

/-- The invariant implies the property. -/
theorem Inv.toFollowed {s : Failback} (h : s.Inv) : s.Followed :=
  fun hlan _ _ hmissed => h.followed hlan hmissed

/-- A section that keeps the mode and takes no flag back keeps the invariant. -/
theorem Inv.setClient {s : Failback} (h : s.Inv) {c : Client}
    (hmode : c.gatewayMode = s.fenced.client.gatewayMode)
    (hflag : s.fenced.client.keepaliveNeedsRefresh = true → c.keepaliveNeedsRefresh = true) :
    (s.setClient c).Inv :=
  ⟨fun hlan hm => (h.followed (hmode.symm.trans hlan) hm).imp hflag id, h.bound, h.recorded⟩

/-- A call that has published nothing keeps the invariant when it moves. -/
theorem Inv.setCall {s : Failback} (h : s.Inv) {k : ℕ} {t : Keepalive}
    (ht : ∀ full sent switches, t ≠ .published full sent switches) : (s.setCall k t).Inv := by
  have hother : ∀ k' full sent switches,
      Function.update s.calls k (some t) k' = some (.published full sent switches) →
        s.calls k' = some (.published full sent switches) := by
    intro k' full sent switches hk'
    by_cases hk : k' = k
    · subst hk
      rw [Function.update_self] at hk'
      exact absurd (Option.some.inj hk') (ht full sent switches)
    · rwa [Function.update_of_ne hk] at hk'
  exact ⟨h.followed, fun k' full sent switches hk' => h.bound k' _ _ _ (hother k' _ _ _ hk'),
    fun k' hk' => h.recorded k' (hother k' _ _ _ hk')⟩

/-- **Step of a call.** A call that publishes a full keepalive is remembered, and the flag is taken
back behind a publication since the gateway mode was left. -/
theorem inv_stepKeepalive {s s' : Failback} {k : ℕ} {sent : Bool} {t : Keepalive} (h : s.Inv)
    (ht : s.calls k = some t)
    (hok : s.fenced.client.gatewayMode = false → s.missed = true → s.current k = true)
    (hs : s.stepKeepalive k sent t = some s') : s'.Inv := by
  cases t with
  | called suppress =>
    obtain rfl := Option.some.inj hs
    refine h.setCall fun full sent switches heq => ?_
    split_ifs at heq
  | admitted suppress =>
    obtain rfl := Option.some.inj hs
    exact h.setCall fun full sent switches heq => by cases heq
  | decided full =>
    obtain rfl := Option.some.inj hs
    refine ⟨fun hlan hm => ?_, fun k' f b n hk' => ?_, fun k' hk' => ?_⟩
    · refine (h.followed hlan hm).imp id fun hr => ?_
      show (s.refreshed || (full && sent)) = true
      rw [hr, Bool.true_or]
    · replace hk' : Function.update s.calls k (some (.published full sent s.switches)) k' =
        some (.published f b n) := hk'
      by_cases hk : k' = k
      · subst hk
        rw [Function.update_self] at hk'
        obtain ⟨-, -, rfl⟩ := Keepalive.published.inj (Option.some.inj hk')
        exact le_refl _
      · rw [Function.update_of_ne hk] at hk'
        exact h.bound k' f b n hk'
    · replace hk' : Function.update s.calls k (some (.published full sent s.switches)) k' =
        some (.published true true s.switches) := hk'
      show (s.refreshed || (full && sent)) = true
      by_cases hk : k' = k
      · subst hk
        rw [Function.update_self] at hk'
        obtain ⟨rfl, rfl, -⟩ := Keepalive.published.inj (Option.some.inj hk')
        exact Bool.or_true _
      · rw [Function.update_of_ne hk] at hk'
        rw [h.recorded k' hk', Bool.true_or]
  | published full sent' switches =>
    obtain rfl := Option.some.inj hs
    have hkept : (s.setClient (s.fenced.client.recordKeepalive full sent')).Inv := by
      refine ⟨fun hlan hm => ?_, h.bound, h.recorded⟩
      show (if full then !sent' else s.fenced.client.keepaliveNeedsRefresh) = true ∨
        s.refreshed = true
      cases full with
      | false => exact h.followed hlan hm
      | true =>
        cases sent' with
        | false => exact Or.inl rfl
        | true =>
          have hcur := hok hlan hm
          rw [current, ht] at hcur
          rcases (Bool.or_eq_true _ _).mp hcur with hsw | hr
          · exact Or.inr (h.recorded k (beq_iff_eq.mp hsw ▸ ht))
          · exact Or.inr hr
    exact hkept.setCall fun full sent switches heq => by cases heq
  | finished => cases hs

/-- A message is missed in gateway mode only. -/
theorem gatewayMode_of_misses {r : NativeScalars} {f : Fenced} {e : FencedEvent}
    (h : f.misses r e = true) : f.client.gatewayMode = true ∧ f.mutation e = none := by
  cases e with
  | callback i =>
    obtain ⟨b, -, hb⟩ := (Option.any_eq_true _ _).mp h
    simp only [Bool.and_eq_true] at hb
    exact ⟨hb.1.1.2, rfl⟩
  | _ => cases h

/-- A client that is in LAN mode and has not left the gateway mode was in LAN mode. -/
theorem lan_of_not_leaves {r : NativeScalars} {f f' : Fenced} {e : FencedEvent}
    (hs : f.step r e = some f') (hl : f.leaves e = false) (hlan : f'.client.gatewayMode = false) :
    f.client.gatewayMode = false := by
  rw [Fenced.gatewayMode_step hs] at hlan
  unfold Fenced.leaves at hl
  split at hlan
  · rename_i gateway hm
    subst hlan
    rwa [hm] at hl
  · exact hlan

/-- **Step of the fenced client.** The gateway mode is left with the refresh pending. -/
theorem inv_stepFenced {r : NativeScalars} {s s' : Failback} {e : FencedEvent} (h : s.Inv)
    (hok : s.fenced.leaves e = true → s.missed = true →
      s.fenced.client.keepaliveNeedsRefresh = true)
    (hs : s.step r (.fenced e) = some s') : s'.Inv := by
  obtain ⟨f, hf, rfl⟩ := Option.map_eq_some_iff.mp hs
  have hflag : f.client.keepaliveNeedsRefresh = s.fenced.client.keepaliveNeedsRefresh :=
    congrArg Prod.fst (Fenced.link_step hf)
  -- A message that was not missed before is missed in gateway mode.
  have hmissed : (!s.fenced.advances e && (s.missed || s.fenced.misses r e)) = true →
      s.missed = true ∨ s.fenced.client.gatewayMode = true ∧ s.fenced.mutation e = none := by
    intro hm
    simp only [Bool.and_eq_true, Bool.or_eq_true] at hm
    exact hm.2.imp id gatewayMode_of_misses
  cases hl : s.fenced.leaves e with
  | true =>
    refine ⟨fun _ hm => Or.inl ?_, fun k full sent n hk => ?_, fun k hk => ?_⟩
    · rcases hmissed hm with hm | ⟨-, hnone⟩
      · exact hflag.trans (hok hl hm)
      · rw [Fenced.leaves, hnone] at hl
        cases hl
    · exact Nat.le_succ_of_le (h.bound k full sent n hk)
    · exact absurd (h.bound k true true _ hk) (Nat.not_succ_le_self s.switches)
  | false =>
    refine ⟨fun hlan hm => ?_, h.bound, h.recorded⟩
    have hwas := lan_of_not_leaves hf hl hlan
    rcases hmissed hm with hm | ⟨hmode, -⟩
    · exact (h.followed hwas hm).imp hflag.trans id
    · rw [hwas] at hmode
      cases hmode

/-- **Step.** What one event keeps. -/
theorem inv_step {r : NativeScalars} {s s' : Failback} {e : FailbackEvent} (h : s.Inv)
    (hok : s.Deferred e) (hs : s.step r e = some s') : s'.Inv := by
  cases e with
  | fenced e => exact inv_stepFenced h hok hs
  | connection opened enabled => exact Option.some.inj hs ▸ h.setClient rfl id
  | connected v =>
    obtain ⟨c, hc, rfl⟩ := Option.map_eq_some_iff.mp hs
    have hnext : Fed.next r s.fenced.client s.fenced.now (.connected v) = some c := hc
    have hmode : c.gatewayMode = s.fenced.client.gatewayMode := (Fed.kept_next rfl hnext).gateway
    have hlink := congrArg Prod.fst (Client.link_setGatewayConnected hc)
    exact h.setClient hmode fun hflag => hlink.trans hflag
  | stopKeepalive => exact Option.some.inj hs ▸ h.setClient rfl id
  | startKeepalive => exact Option.some.inj hs ▸ h.setClient rfl fun _ => rfl
  | refreshPortal session =>
    simp only [step] at hs
    split_ifs at hs
    exact Option.some.inj hs ▸ h.setClient rfl fun _ => rfl
  | keepalive k suppress =>
    simp only [step] at hs
    split_ifs at hs
    exact Option.some.inj hs ▸ h.setCall fun full sent switches heq => by cases heq
  | keepaliving k sent =>
    obtain ⟨t, ht, hs⟩ := Option.bind_eq_some_iff.mp hs
    exact inv_stepKeepalive h ht hok hs

/-! ## The result -/

/-- An event whose condition fails is not followed by a refresh. -/
theorem deferred_of_followed {r : NativeScalars} {s s' : Failback} {e : FailbackEvent}
    (hs : s.step r e = some s') (ho : s.fenced.client.connectionOpen = true)
    (hp : s.fenced.client.portalID ≠ "") (h : s'.Followed) : s.Deferred e := by
  cases e with
  | fenced e =>
    intro hl hm
    obtain ⟨f, hf, rfl⟩ := Option.map_eq_some_iff.mp hs
    have hlink := Fenced.link_step hf
    have hmode : f.client.gatewayMode = false := by
      rw [Fenced.gatewayMode_step hf]
      unfold Fenced.leaves at hl
      split at hl
      · rename_i hmut
        rw [hmut]
      · cases hl
    have hadv : s.fenced.advances e = false := by
      unfold Fenced.leaves at hl
      split at hl
      · rename_i hmut
        rw [Fenced.advances, hmut]
      · cases hl
    have hportal : f.client.portalID ≠ "" := by
      rw [Fenced.portalID_step hf hp]
      exact hp
    have hfollowed := h hmode ((congrArg Prod.snd hlink).trans ho) hportal (by
      show (!s.fenced.advances e && (s.missed || s.fenced.misses r e)) = true
      rw [hadv, hm]
      rfl)
    rcases hfollowed with hflag | hre
    · exact (congrArg Prod.fst hlink).symm.trans hflag
    · replace hre : (!s.fenced.leaves e && s.refreshed) = true := hre
      rw [hl] at hre
      cases hre
  | keepaliving k sent =>
    intro hlan hm
    obtain ⟨t, ht, hs⟩ := Option.bind_eq_some_iff.mp hs
    rw [current, ht]
    split
    · rename_i switches heq
      obtain rfl := Option.some.inj heq
      obtain rfl := Option.some.inj hs
      rcases h hlan ho hp hm with hflag | hre
      · cases hflag
      · rw [show s.refreshed = true from hre, Bool.or_true]
    · rfl
  | connection opened enabled => trivial
  | connected v => trivial
  | stopKeepalive => trivial
  | startKeepalive => trivial
  | refreshPortal session => trivial
  | keepalive k suppress => trivial

/-- **The refresh after the switch.** In a run in which the refresh is pending whenever the gateway
mode is left after a message was missed, and stays pending until a full keepalive is published,
a missed message is followed by a full refresh in every state. With an open connection and a known
portal, an event is followed by a refresh exactly when it meets that condition.

**Proof sketch.** Messages are missed in gateway mode only, and from the moment it is left the flag
stays set until a keepalive is recorded that was published since. -/
theorem followed_of_reachable (r : NativeScalars) {s : Failback}
    (h : Transition.Reachable (Failback.step r) Failback.Deferred Failback.Init s) :
    s.Followed ∧ ∀ e s', s.step r e = some s' → s.fenced.client.connectionOpen = true →
      s.fenced.client.portalID ≠ "" → (s'.Followed ↔ s.Deferred e) := by
  have hinv : s.Inv := h.invariant (fun _ hs => inv_of_init hs)
    fun _ _ _ hi hok hs => inv_step hi hok hs
  refine ⟨hinv.toFollowed, fun e s' hs ho hp => ⟨deferred_of_followed hs ho hp, fun hok => ?_⟩⟩
  exact (inv_step hinv hok hs).toFollowed

/-- A client that knows its portal. -/
def configured : Failback :=
  ⟨⟨newClient { portalID := "c0" }, 0, RWMutex.free, fun _ => none, fun _ => none⟩, fun _ => none,
    false, 0, false⟩

theorem init_configured : configured.Init :=
  ⟨⟨rfl, fun _ => rfl, fun _ => rfl⟩, ⟨_, rfl⟩, fun _ => rfl, rfl, rfl, rfl⟩

/-- The recovery probe: it connects and subscribes while the gateway mode is on, the broker answers
the first keepalive, and then the mode is left. The next keepalive of the loop follows. -/
def recovery (sent : Bool) : List FailbackEvent :=
  let events : List (ℕ × FailbackEvent) :=
    [(1, .fenced (.retire 0 .enableGatewayMode)), (6, .fenced (.retirement 0)),
      (1, .connection true true),
      (1, .fenced (.retire 1 .advanceMQTTSession)), (4, .fenced (.retirement 1)),
      (1, .fenced (.retire 2 .resetMQTTPush)), (3, .fenced (.retirement 2)),
      (1, .fenced .overlay), (1, .startKeepalive),
      (1, .keepalive 0 false), (4, .keepaliving 0 sent),
      (1, .fenced (.route 0 1 false (.native ["N", "c0", "battery", "1", "Soc"]
        (.json (.obj [("value", .num (.ofInt 80))]))))),
      (7, .fenced (.callback 0)),
      (1, .fenced (.retire 3 .disableGatewayMode)), (7, .fenced (.retirement 3)),
      (1, .keepalive 1 true), (4, .keepaliving 1 true)]
  events.flatMap fun e => List.replicate e.1 e.2

/-- A message was missed, and the session goes on in LAN mode. -/
def failedBack (s : Failback) : Bool :=
  !s.fenced.client.gatewayMode && s.fenced.client.connectionOpen &&
    s.fenced.client.portalID == "c0" && s.missed

/-- The probe's first keepalive takes the flag back before the switch, and no full keepalive
follows. -/
theorem not_followed_of_recovery : ∃ s,
    Transition.Reachable (Failback.step Lan.noScalars) (fun _ _ => True) Failback.Init s ∧
      ¬ s.Followed := by
  obtain ⟨s, hs, hp⟩ := Transition.Reachable.exists_of_run (Failback.step Lan.noScalars)
    (fun _ _ => True) (recovery true)
    (fun s => s.failedBack && !s.fenced.client.keepaliveNeedsRefresh && !s.refreshed)
    init_configured (Transition.Allowed.of_forall (fun _ _ => trivial) configured)
    (by decide +kernel)
  simp only [failedBack, Bool.and_eq_true, Bool.not_eq_true', beq_iff_eq] at hp
  obtain ⟨⟨⟨⟨⟨hlan, hopen⟩, hportal⟩, hmissed⟩, hflag⟩, hre⟩ := hp
  refine ⟨s, hs, fun h => ?_⟩
  rcases h hlan hopen (by rw [hportal]; decide) hmissed with h | h
  · rw [hflag] at h
    cases h
  · rw [hre] at h
    cases h

/-- When the broker does not take the first keepalive, the loop publishes a full one. -/
theorem followed_of_reachable_refused : ∃ s,
    Transition.Reachable (Failback.step Lan.noScalars) Failback.Deferred Failback.Init s ∧
      s.failedBack = true ∧ s.Followed := by
  obtain ⟨s, hs, hp⟩ := Transition.Reachable.exists_of_run (Failback.step Lan.noScalars)
    Failback.Deferred (recovery false) failedBack init_configured (by decide +kernel)
    (by decide +kernel)
  exact ⟨s, hs, hp, (followed_of_reachable Lan.noScalars hs).1⟩

end Failback

end Dashboard
