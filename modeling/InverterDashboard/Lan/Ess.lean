import InverterDashboard.Lan.Permission

set_option relaxedAutoImplicit false
set_option autoImplicit false

/-!
# The permission to select an ESS mode

The permission is read from four pieces of state: the mode and its receipt in the state, and the
mode and receipt the client caches. A lost connection withdraws the first two only, and a frame
that omits `ess_mode` publishes the cached receipt again.

## Main definitions

* `Dashboard.Receipt.essFrame` — a frame that decides the mode: an empty one, or one with a mode.
* `Dashboard.Lan.EssPermission` — the latest such frame of the session is live, recent and
  supports selection.
* `Dashboard.Lan.EssCovered` — the step does not publish a cached receipt of another session.

## Main results

* `Dashboard.Lan.essReceipts_step` — the invariant of covered steps.
* `Dashboard.Lan.essPermission_of_reachable` — in covered runs the permission is one of the session.
-/

namespace Dashboard

open Go

/-- The frame of a message that decides the ESS mode: an empty frame, or one that carries a mode. -/
def Receipt.essFrame (r : Receipt) : Option Frame :=
  r.stateFrame.filter fun data => data.isEmpty || (entry data "ess_mode").isSome

namespace Lan

/-- The latest deciding frame carries a mode that supports selection, live and recent. -/
def EssPermission (log : List Receipt) (now : Time) : Prop :=
  ∃ m data raw mode, latest Receipt.essFrame log = some (m, data) ∧
    entry data "ess_mode" = some raw ∧ decodeESSMode raw = some mode ∧
    mode.selectionSupported = true ∧ Recent m now

/-- A frame that omits the mode is not applied while the client holds a usable mode and receipt of
which the current session has seen no frame. -/
def EssCovered (s : Lan) : LanEvent → Prop
  | .deliver session _ (.state payload) => session = s.client.mqttSession →
    ∀ data ∈ decodeControllerState payload, data ≠ [] → entry data "ess_mode" = none →
      s.client.selectableESSMode ≠ none → s.client.controllerESSObserved ≠ none →
      latest Receipt.essFrame s.log ≠ none
  | _ => True

instance (s : Lan) (e : LanEvent) : Decidable (s.EssCovered e) :=
  match e with
  | .deliver session _ (.state payload) =>
    inferInstanceAs (Decidable (session = s.client.mqttSession →
      ∀ data ∈ decodeControllerState payload, data ≠ [] → entry data "ess_mode" = none →
        s.client.selectableESSMode ≠ none → s.client.controllerESSObserved ≠ none →
        latest Receipt.essFrame s.log ≠ none))
  | .deliver _ _ (.native _ _) | .deliver _ _ (.override _) | .deliver _ _ (.notification _)
  | .deliver _ _ (.portal _) | .deliver _ _ (.camera _) | .tick _ | .expire | .opened | .lost
  | .subscribe _ => isTrue trivial

/-- The mode and the receipt are those of a deciding frame. -/
def DecidedBy (log : List Receipt) (mode : ESSMode) (x : F64) : Prop :=
  ∃ m data raw, latest Receipt.essFrame log = some (m, data) ∧
    entry data "ess_mode" = some raw ∧ decodeESSMode raw = some mode ∧ m.retained = false ∧
    x = receiptSeconds m.time

/-- What the client knows of the ESS mode is what the session delivered. -/
structure EssReceipts (c : Client) (log : List Receipt) : Prop where
  native : c.state.nativeESSObserved = true → c.cerboOwned.has .essMode = true
  observed : ∀ x mode, c.state.field .essModeObservedAt = some x →
    c.selectableESSMode = some mode → DecidedBy log mode x
  cached : ∀ x mode, latest Receipt.essFrame log ≠ none → c.controllerESSObserved = some x →
    c.controllerESSMode = some mode → DecidedBy log mode x
  supported : (c.state.field .essMode).selectionSupported = true →
    c.state.field .essModeObservedAt ≠ none → c.selectableESSMode ≠ none

/-! ## Steps that decide nothing -/

/-- A client with the same view has the same receipts. -/
theorem EssReceipts.of_sameView {c c' : Client} {log : List Receipt} (h : EssReceipts c log)
    (hv : c.SameView c') : EssReceipts c' log := by
  have hf : ∀ f ∈ Client.permissionFields, c'.state.field f = c.state.field f := hv.field
  have hsel : c'.selectableESSMode = c.selectableESSMode := by
    rw [Client.selectableESSMode, hv.essMode, Client.selectableESSMode]
  refine ⟨?_, ?_, ?_, ?_⟩
  · rw [hv.native, hv.owned]
    exact h.native
  · rw [hf _ (by decide), hsel]
    exact h.observed
  · rw [hv.essMode, hv.essObserved]
    exact h.cached
  · rw [hf _ (by decide), hf _ (by decide), hsel]
    exact h.supported

/-- A message that decides nothing. -/
theorem EssReceipts.cons {c : Client} {log : List Receipt} {r : Receipt} (h : EssReceipts c log)
    (hr : r.essFrame = none) : EssReceipts c (r :: log) := by
  have hlog : latest Receipt.essFrame (r :: log) = latest Receipt.essFrame log :=
    latest_cons_none hr
  refine ⟨h.native, ?_, ?_, h.supported⟩
  · unfold DecidedBy
    rw [hlog]
    exact h.observed
  · unfold DecidedBy
    rw [hlog]
    exact h.cached

/-- A withdrawn client has no receipt in the state; the cache is dropped or the session new. -/
theorem EssReceipts.of_withdrawn {c c' : Client} {log log' : List Receipt}
    (h : EssReceipts c log) (hw : c.Withdrawn c')
    (hcache : c'.controllerESSObserved = none ∨ log' = []) : EssReceipts c' log' := by
  refine ⟨?_, ?_, ?_, ?_⟩
  · rw [hw.native, hw.owned]
    exact h.native
  · intro x mode hx
    rw [hw.ess] at hx
    cases hx
  · intro x mode hlog hx
    rcases hcache with hnone | rfl
    · rw [hnone] at hx
      cases hx
    · exact absurd rfl hlog
  · intro _ hne
    exact absurd hw.ess hne

/-- The overlay keeps the receipts: without a usable mode of the controller it installs none that
supports selection. -/
theorem EssReceipts.of_overlaid {c c' : Client} {log : List Receipt} (h : EssReceipts c log)
    (hov : c.Overlaid c') : EssReceipts c' log := by
  have hsel : c'.selectableESSMode = c.selectableESSMode := by
    rw [hov.frame]
    rfl
  have hobs : c'.state.field .essModeObservedAt = c.state.field .essModeObservedAt :=
    hov.field_of_not_direct (by decide) (by decide)
  refine ⟨hov.owned_of_native, ?_, ?_, ?_⟩
  · rw [hsel, hobs]
    exact h.observed
  · rw [hov.frame]
    exact h.cached
  · intro hs hne
    rw [hsel]
    intro hnone
    obtain ⟨-, heq⟩ := hov.essMode_of_supported hnone hs
    exact h.supported (heq ▸ hs) (hobs ▸ hne) hnone

theorem essReceipts_of_init {s : Lan} (h : s.Init) : EssReceipts s.client s.log := by
  obtain ⟨cfg, hc, -, -, -⟩ := h
  rw [hc]
  refine ⟨fun h => ?_, fun x mode h => ?_, fun x mode _ h => ?_, fun h => ?_⟩
  · cases h
  · cases h
  · cases h
  · cases h

/-! ## Messages -/

/-- The cache with a new leaf has the same receipts. -/
theorem EssReceipts.of_stored {c c₀ : Client} {log : List Receipt} {parts : List String}
    {payload : Payload} (h : EssReceipts c log) (hst : c.Stored parts payload c₀) :
    EssReceipts c₀ log := by
  have h₁ := h.of_sameView c.initCerboMaps_sameView
  have hstate : c₀.state = c.initCerboMaps.state := by rw [hst.frame]
  have hcache : c₀.controllerESSMode = c.controllerESSMode ∧
      c₀.controllerESSObserved = c.controllerESSObserved := by
    rw [hst.frame]
    exact ⟨rfl, rfl⟩
  have hsel : c₀.selectableESSMode = c.selectableESSMode := by
    rw [Client.selectableESSMode, hcache.1, Client.selectableESSMode]
  have hsel₁ : c.initCerboMaps.selectableESSMode = c.selectableESSMode := by
    rw [Client.selectableESSMode, c.initCerboMaps_sameView.essMode, Client.selectableESSMode]
  refine ⟨fun hn => hst.owned _ (h.native ?_), ?_, ?_, ?_⟩
  · rw [hstate, c.initCerboMaps_sameView.native] at hn
    exact hn
  · rw [hstate, hsel, ← hsel₁]
    exact h₁.observed
  · rw [hcache.1, hcache.2]
    exact h.cached
  · rw [hstate, hsel, ← hsel₁]
    exact h₁.supported

/-- A native message keeps the receipts. -/
theorem EssReceipts.of_native {c c' : Client} {log : List Receipt} {r : NativeScalars}
    {parts : List String} {payload : Payload} {retained : Bool} {generation session : ℕ}
    {now : Time} (h : EssReceipts c log)
    (hc' : c.applyCerboMessage r parts payload retained generation session now = some c') :
    EssReceipts c' log := by
  rcases Client.applyCerboMessage_spec hc' with rfl | ⟨c₁, hc₁, -, -, -, -, hn⟩
  · exact h
  · have h₁ : EssReceipts c₁ log := by
      rcases hc₁ with ⟨rfl, -⟩ | ⟨-, rfl⟩
      · exact h
      · exact ⟨h.native, h.observed, h.cached, h.supported⟩
    cases hn with
    | ignored => exact h₁
    | banners hb => exact h₁.of_sameView hb.sameView
    | @device c₂ _ changed halarm hd heq =>
      have h₂ : EssReceipts c₂ log := by
        rcases hd with ⟨-, rfl | rfl⟩ | ⟨-, c₀, hst, hov⟩
        · exact h₁
        · exact h₁.of_sameView c₁.initCerboMaps_sameView
        · exact (h₁.of_stored hst).of_overlaid hov
      rw [heq]
      split_ifs <;> exact ⟨h₂.native, h₂.observed, h₂.cached, h₂.supported⟩

/-- A usable mode is the cached one. -/
theorem cached_of_selectable {c : Client} {mode : ESSMode} (h : c.selectableESSMode = some mode) :
    c.controllerESSMode = some mode ∧ mode.selectionSupported = true :=
  Option.filter_eq_some_iff.mp h

/-- The commit of a covered frame keeps the receipts.

**Proof sketch.** A deciding frame is the latest one, and the cache is what it says. Any other frame
leaves the cache alone and publishes its receipt; the receipt is one of the session because the
frame is covered. -/
theorem EssReceipts.of_stateCommitted {c c' : Client} {log : List Receipt} {payload : Payload}
    {data : Frame} {retained : Bool} {now : Time} (h : EssReceipts c log)
    (hdata : decodeControllerState payload = some data)
    (hcov : data ≠ [] → entry data "ess_mode" = none → c.selectableESSMode ≠ none →
      c.controllerESSObserved ≠ none → latest Receipt.essFrame log ≠ none)
    (hc : c.StateCommitted data retained now c') :
    EssReceipts c' (⟨now, retained, .state payload⟩ :: log) := by
  have hframe : (Receipt.mk now retained (.state payload)).essFrame =
      if data.isEmpty || (entry data "ess_mode").isSome then some data else none := by
    have hstate : (Receipt.mk now retained (.state payload)).stateFrame = some data := hdata
    rw [Receipt.essFrame, hstate, Option.filter_some]
  have hmode : c'.controllerESSMode = (Client.essReceipts (c.controllerESSMode,
      c.controllerESSObserved) data retained now).1 := by
    rw [hc.frame]
    rfl
  have hobs : c'.controllerESSObserved = (Client.essReceipts (c.controllerESSMode,
      c.controllerESSObserved) data retained now).2 := by
    rw [hc.frame]
    rfl
  -- What the cache holds is decided by the session.
  have hcache : ∀ x mode, c'.controllerESSObserved = some x → c'.controllerESSMode = some mode →
      (latest Receipt.essFrame (⟨now, retained, .state payload⟩ :: log) ≠ none ∨
        mode.selectionSupported = true) →
      DecidedBy (⟨now, retained, .state payload⟩ :: log) mode x := by
    intro x mode hx hm hor
    rw [hobs] at hx
    rw [hmode] at hm
    by_cases hempty : data = []
    · rw [hempty] at hx
      cases hx
    cases he : entry data "ess_mode" with
    | some raw =>
      cases hd : decodeESSMode raw with
      | none => simp [Client.essReceipts, hempty, he, hd] at hx
      | some mode' =>
        simp only [Client.essReceipts, he, hd, List.isEmpty_iff, if_neg hempty] at hx hm
        obtain ⟨hlive, rfl⟩ := eq_of_receiptTime hx
        obtain rfl := Option.some.inj hm
        exact ⟨_, data, raw, latest_cons_some (by rw [hframe, he]; simp), he, hd, hlive, rfl⟩
    | none =>
      simp only [Client.essReceipts, he, List.isEmpty_iff, if_neg hempty] at hx hm
      have hlog : latest Receipt.essFrame (⟨now, retained, .state payload⟩ :: log) =
          latest Receipt.essFrame log :=
        latest_cons_none (by rw [hframe, he]; simp [hempty])
      unfold DecidedBy
      rw [hlog] at hor ⊢
      refine h.cached x mode ?_ hx hm
      rcases hor with hor | hsup
      · exact hor
      · refine hcov hempty he ?_ (by rw [hx]; simp)
        rw [Client.selectableESSMode, hm, Option.filter_some, hsup]
        simp
  refine ⟨hc.native, ?_, fun x mode hlog hx hm => hcache x mode hx hm (Or.inl hlog), ?_⟩
  · intro x mode hx hsel
    obtain ⟨hm, hsup⟩ := cached_of_selectable hsel
    exact hcache x mode (hc.essObserved ▸ hx) hm (Or.inr hsup)
  · intro hs hne
    exact hc.supported h.native hs (hc.essObserved ▸ hne)

/-- A message of the current session keeps the receipts. -/
theorem EssReceipts.of_deliver {s : Lan} {c' : Client} {r : NativeScalars} {retained : Bool}
    {m : Message} (h : EssReceipts s.client s.log) (hlan : s.client.gatewayMode = false)
    (hexact : (LanEvent.deliver s.client.mqttSession retained m).Exact)
    (hcov : s.EssCovered (.deliver s.client.mqttSession retained m))
    (hc' : s.client.deliver r s.client.mqttSession retained m s.now = some c') :
    EssReceipts c' (⟨s.now, retained, m⟩ :: s.log) := by
  have hcur : s.client.sourceCurrent s.client.pushGeneration s.client.mqttSession = true := by
    simp [Client.sourceCurrent, hlan]
  cases m with
  | native parts payload =>
    simp only [Client.deliver, if_true] at hc'
    exact (h.of_native hc').cons rfl
  | state payload =>
    simp only [Client.deliver, if_true, Client.applyControllerMessage] at hc'
    have hsame : Client.controllerFrame false payload = decodeControllerState payload := rfl
    rw [hsame] at hc'
    cases hd : decodeControllerState payload with
    | none =>
      rw [hd] at hc'
      obtain rfl := Option.some.inj hc'
      refine h.cons ?_
      have hstate : (Receipt.mk s.now retained (.state payload)).stateFrame = none := hd
      rw [Receipt.essFrame, hstate]
      rfl
    | some data =>
      rw [hd] at hc'
      dsimp only at hc'
      rw [if_pos hcur] at hc'
      obtain ⟨c₁, hc₁, rfl⟩ := Option.map_eq_some_iff.mp hc'
      have hcom := h.of_stateCommitted hd (hcov rfl data hd)
        (s.client.stateCommitted_of_eq_some (hexact data hd) hc₁)
      exact ⟨hcom.native, hcom.observed, hcom.cached, hcom.supported⟩
  | override payload =>
    simp only [Client.deliver, if_true, Client.applyControllerMessage] at hc'
    cases hd : Client.controllerFrame true payload with
    | none =>
      rw [hd] at hc'
      exact Option.some.inj hc' ▸ h.cons rfl
    | some data =>
      rw [hd] at hc'
      dsimp only at hc'
      rw [if_pos hcur] at hc'
      obtain ⟨c₁, hc₁, rfl⟩ := Option.map_eq_some_iff.mp hc'
      obtain rfl := Option.some.inj hc₁
      have hobs := s.client.observeControllerCommands_spec data retained s.now
      have h₁ : EssReceipts (s.client.observeControllerCommands data retained s.now) s.log := by
        rw [hobs.frame]
        refine ⟨?_, ?_, h.cached, ?_⟩
        · rw [hobs.native]
          exact h.native
        · rw [hobs.field _ (by decide)]
          exact h.observed
        · rw [hobs.field _ (by decide), hobs.field _ (by decide)]
          exact h.supported
      have h₂ := h₁.cons (r := ⟨s.now, retained, .override payload⟩) rfl
      exact ⟨h₂.native, h₂.observed, h₂.cached, h₂.supported⟩
  | notification payload =>
    simp only [Client.deliver, if_true] at hc'
    obtain rfl := Option.some.inj hc'
    have hb := s.client.applyNotificationMessage_frame payload s.client.pushGeneration
      s.client.mqttSession
    exact (h.cons rfl).of_sameView hb.sameView
  | portal p =>
    obtain rfl := Option.some.inj hc'
    exact (h.cons rfl).of_sameView (s.client.applyPortalMessage_sameView p _ _)
  | camera p =>
    obtain rfl := Option.some.inj hc'
    exact (h.cons rfl).of_sameView (s.client.onCameraMessage_sameView p)

/-! ## Runs -/

/-- **Step.** Every covered event keeps the receipts. -/
theorem essReceipts_step {r : NativeScalars} {s s' : Lan} {e : LanEvent} (hsess : s.Sessions)
    (h : EssReceipts s.client s.log) (he : e.Exact) (hcov : s.EssCovered e)
    (hs : s.step r e = some s') : EssReceipts s'.client s'.log := by
  cases step_cases hs with
  | delivered _ hc' => exact h.of_deliver hsess.lan he hcov hc'
  | stale hv => exact h.of_sameView hv
  | ticked => exact h
  | expired _ _ hcases =>
    rcases hcases with hv | ⟨hw, -, -, -, hobs, -⟩
    · exact h.of_sameView hv
    · exact h.of_withdrawn hw (Or.inl hobs)
  | opened => exact ⟨h.native, h.observed, h.cached, h.supported⟩
  | lost hw => exact h.of_withdrawn hw (Or.inr rfl)
  | refused _ hv => exact h.of_sameView hv
  | @subscribed o c₁ c₂ c' hsub hv hov hv' =>
    have hlog : s.log = [] := (hsess.current hsub).2
    have h₀ : EssReceipts { s.client with cerboLeaves := ∅ } s.log :=
      ⟨h.native, h.observed, h.cached, h.supported⟩
    exact hlog ▸ (((h₀.of_sameView hv).of_overlaid hov).of_sameView hv')

/-- **Run.** The receipts of every state reached by covered steps. -/
theorem essReceipts_of_reachable {r : NativeScalars} {s : Lan}
    (h : Transition.Reachable (Lan.step r) (fun s e => e.Exact ∧ s.EssCovered e) Lan.Init s) :
    s.Sessions ∧ EssReceipts s.client s.log := by
  refine h.invariant (I := fun s => s.Sessions ∧ EssReceipts s.client s.log) ?_ ?_
  · exact fun s hs => ⟨sessions_of_init hs, essReceipts_of_init hs⟩
  · exact fun s e s' hi he hs =>
      ⟨sessions_step hi.1 hs, essReceipts_step hi.1 hi.2 he.1 he.2 hs⟩

/-- A client that is ready for a selection has the permission of the session. -/
theorem essPermission_of_ready {c : Client} {log : List Receipt} {now : Time}
    (h : EssReceipts c log) (hready : essSelectionReady c.state now = true) :
    EssPermission log now := by
  simp only [essSelectionReady, Bool.and_eq_true] at hready
  obtain ⟨⟨⟨hsup, -⟩, -⟩, hfresh⟩ := hready
  obtain ⟨x, hx⟩ := exists_of_observationFresh hfresh
  obtain ⟨mode, hsel⟩ := Option.ne_none_iff_exists'.mp (h.supported hsup (by rw [hx]; simp))
  obtain ⟨m, data, raw, hlatest, he, hd, hlive, heq⟩ := h.observed x mode hx hsel
  exact ⟨m, data, raw, mode, hlatest, he, hd, (cached_of_selectable hsel).2,
    recent_of_observationFresh hfresh hx hlive heq⟩

/-- In a run whose steps are all covered, the selection is allowed, and a selection is published,
only on the permission of a frame of the current session. -/
theorem essPermission_of_reachable (r : NativeScalars) {s : Lan}
    (h : Transition.Reachable (Lan.step r) (fun s e => e.Exact ∧ s.EssCovered e) Lan.Init s) :
    (∀ c', s.client.canSelectESSMode s.now = some (c', true) → EssPermission s.log s.now) ∧
      ∀ payload generation session,
        s.client.dispatches (.setESSMode payload) generation session s.now = true →
        EssPermission s.log s.now := by
  obtain ⟨-, hess⟩ := essReceipts_of_reachable h
  refine ⟨fun c' hc' => ?_, fun payload generation session hd => ?_⟩
  · unfold Client.canSelectESSMode at hc'
    split_ifs at hc' with hconn
    · cases hc'
    · obtain ⟨c₁, hc₁, heq⟩ := Option.map_eq_some_iff.mp hc'
      obtain ⟨-, hready⟩ := Prod.mk.inj heq
      have hs' : s.step r .expire = some { s with client := c₁ } := by
        rw [step, hc₁]
        rfl
      have hok : LanEvent.expire.Exact ∧ s.EssCovered .expire := ⟨trivial, trivial⟩
      exact essPermission_of_ready (essReceipts_of_reachable (h.next hok hs')).2
        (Bool.and_eq_true_iff.mp hready).1
  · simp only [Client.dispatches, Bool.and_eq_true] at hd
    exact essPermission_of_ready hess hd.2

/-- A live frame that allows a selection, and the connection after it was lost and opened again. -/
def reconnectRun : List LanEvent :=
  [.opened, .subscribe ⟨true, true⟩,
    .deliver 1 false (.state (.json (.obj [("dry_run", .bool false),
      ("ess_mode", .obj [("selection_supported", .bool true)])]))),
    .tick 1000, .lost, .opened, .subscribe ⟨true, true⟩]

/-- Whether a selection is allowed. -/
def selects (s : Lan) : Bool := (s.client.canSelectESSMode s.now).any fun res => res.2

/-- The same frame in the new session, and one that omits the mode after it. -/
def renewedRun : List LanEvent :=
  reconnectRun ++
    [.deliver 3 false (.state
    (.json (.obj [("ess_mode", .obj [("selection_supported", .bool true)])]))),
      .deliver 3 true (.state (.json (.obj [("dry_run", .bool false)])))]

theorem essPermission_of_reachable_renewed : ∃ s,
    Transition.Reachable (Lan.step noScalars) (fun s e => e.Exact ∧ s.EssCovered e) Lan.Init s ∧
      selects s = true ∧ EssPermission s.log s.now := by
  obtain ⟨s, hs, hp⟩ := Transition.Reachable.exists_of_run (Lan.step noScalars)
    (fun s e => e.Exact ∧ s.EssCovered e) renewedRun selects
    init_configured (by decide +kernel) (by decide +kernel)
  obtain ⟨⟨c', ok⟩, hres, rfl⟩ := (Option.any_eq_true _ _).mp hp
  exact ⟨s, hs, hp, (essPermission_of_reachable noScalars hs).1 c' hres⟩

/-- After a reconnect, a retained frame that omits the mode allows a selection on the receipt of
the session before. -/
theorem selects_after_reconnect : ∃ s,
    Transition.Reachable (Lan.step noScalars) (fun _ e => e.Exact) Lan.Init s ∧
      selects s = true ∧ ¬ EssPermission s.log s.now := by
  have hexact : ∀ e ∈ reconnectRun ++
      [.deliver 3 true (.state (.json (.obj [("dry_run", .bool false)])))], e.Exact := by
    decide +kernel
  obtain ⟨s, hs, hp⟩ := Transition.Reachable.exists_of_run (Lan.step noScalars) _ _
    (fun s => selects s && (latest Receipt.essFrame s.log).isNone)
    init_configured (Transition.Allowed.of_forall hexact configured) (by decide +kernel)
  obtain ⟨hsel, hnone⟩ := Bool.and_eq_true_iff.mp hp
  refine ⟨s, hs, hsel, ?_⟩
  rintro ⟨m, data, raw, mode, hlatest, -⟩
  rw [hlatest] at hnone
  cases hnone

end Lan

end Dashboard
