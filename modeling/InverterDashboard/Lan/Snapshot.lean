import InverterDashboard.Lan.System
import InverterDashboard.Mqtt.Canonical
import InverterDashboard.Mqtt.Telemetry

set_option relaxedAutoImplicit false
set_option autoImplicit false

/-!
# Incremental reduction agrees with the snapshot

On LAN the cache changes leaf by leaf, and each accepted message clears and installs members of a
state with a history. A gateway snapshot is reduced once, into a new state. Without frames of the
controller both give the same telemetry for the same leaves; only the flags of a client that has
accepted no message yet are all down.

## Main definitions

* `Dashboard.cerboSnapshotToState` — the reduction of a whole snapshot.
* `Dashboard.FieldType.present` — a value with nil collections read as empty ones.
* `Dashboard.Hearing`, `Dashboard.Hearing.step` — a client that hears device messages.
* `Dashboard.Hearing.Incremental` — what it holds between messages.

## Main results

* `Dashboard.Hearing.incremental_step` — one message keeps it.
* `Dashboard.Hearing.agrees_of_reachable` — the telemetry is that of the snapshot, whatever the
  history.
* `Dashboard.Hearing.disagrees_before_accepted` — the flags of a client that has accepted nothing.
-/

namespace Dashboard

open Go

/-! ## The snapshot -/

/-- The client of `CerboSnapshotToState`, before it is reduced. -/
def snapshotClient (all : LeafMap) (o : CerboOptions) : Client :=
  { state := State.zero
    cerboLeaves := all
    tankInstance := o.tankInstance
    pumpInstance := o.pumpInstance
    valveInstance := o.valveInstance
    evInstance := o.evInstance
    evchargerInstance := o.evchargerInstance }

/-- `CerboSnapshotToState`. -/
def cerboSnapshotToState (all : LeafMap) (o : CerboOptions) : Option State :=
  (snapshotClient all o).applyCerboOverlays.map Client.state

/-- A value with nil collections read as empty ones. -/
def FieldType.present : (t : FieldType) → t.denote → t.denote
  | .mapAny, m => some (Option.getD m ∅)
  | .mapBool, m => some (Option.getD m ∅)
  | .mapFloat64, m => some (Option.getD m ∅)
  | .mapString, m => some (Option.getD m ∅)
  | .sliceString, s => GoSlice.ofList s.elems
  | .sliceFloat64, s => GoSlice.ofList s.elems
  | .sliceNotification, s => GoSlice.ofList s.elems
  | .sliceBattery, s => GoSlice.ofList s.elems
  | .sliceSolarSource, s => GoSlice.ofList s.elems
  | .sliceCharger, s => GoSlice.ofList s.elems
  | .sliceCerboDevice, s => GoSlice.ofList s.elems
  | _, v => v

/-- A cleared member reads as the zero one. -/
theorem FieldType.present_cleared (t : FieldType) : t.present t.cleared = t.present t.zero := by
  cases t <;> rfl

/-- What the reducer makes of no leaves reads as the zero state. -/
theorem present_of_empty {o : CerboOptions} {f : Field} {v : f.type.denote}
    (h : (cerboOverlay ∅ o).val f = some v) : f.type.present v = f.type.present f.type.zero := by
  rw [cerboOverlay_empty] at h
  by_cases h₁ : f = .evChargerPresent
  · subst h₁
    rw [Overlay.put_val_self] at h
    exact Option.some.inj h ▸ rfl
  · rw [Overlay.put_val_ne _ h₁] at h
    by_cases h₂ : f = .evPresent
    · subst h₂
      rw [Overlay.put_val_self] at h
      exact Option.some.inj h ▸ rfl
    · rw [Overlay.put_val_ne _ h₂] at h
      by_cases h₃ : f = .discoveredWaterEV
      · subst h₃
        rw [Overlay.put_val_self] at h
        exact Option.some.inj h ▸ rfl
      · rw [Overlay.put_val_ne _ h₃] at h
        cases h

/-- A member as a reduction leaves it: the output, or cleared when there is none or the encoding
failed. -/
def reducedValue (out : Overlay) (f : Field) : f.type.denote :=
  if out.finite then (out.val f).getD f.type.cleared else f.type.cleared

/-- Without an output a reduced member reads as the zero one. -/
theorem present_reducedValue {out : Overlay} {f : Field} (h : out.val f = none) :
    f.type.present (reducedValue out f) = f.type.present f.type.zero := by
  unfold reducedValue
  rw [h, Option.getD_none, ite_self, FieldType.present_cleared]

/-- A reduction leaves what is claimed as the output, and what is not claimed has none. -/
theorem Client.Overlaid.reducedValue {c c' : Client} (h : c.Overlaid c')
    (hsel : c.selectableESSMode = none) {f : Field} (hf : f ∈ directFields) :
    (c'.cerboOwned.has f = true ∧ c'.state.field f = reducedValue c.overlay f ∧
        c'.state.available f.jsonName = (c.overlay.val f).isSome) ∨
      c'.cerboOwned.has f = false ∧ c.overlay.val f = none ∧ c'.state.field f = c.state.field f ∧
        c'.state.available f.jsonName = c.state.available f.jsonName := by
  have htel : f ≠ .telemetryAvailable := by
    rintro rfl
    exact absurd hf (by decide)
  have hfield := h.field f htel fun _ => hsel
  have havail := h.avail f
  cases ho : c'.cerboOwned.has f with
  | true =>
    rw [ho, if_pos rfl] at hfield havail
    exact Or.inl ⟨rfl, hfield, havail⟩
  | false =>
    rw [ho, if_neg Bool.false_ne_true] at hfield havail
    rw [h.owned, Bool.or_eq_false_iff] at ho
    exact Or.inr ⟨rfl, Option.not_isSome_iff_eq_none.mp (by rw [ho.2]; decide), hfield, havail⟩

/-- The snapshot holds the outputs, and nothing else is flagged. -/
theorem cerboSnapshotToState_spec (all : LeafMap) (o : CerboOptions) :
    ∃ st, cerboSnapshotToState all o = some st ∧ ∀ f ∈ directFields,
      f.type.present (st.field f) = f.type.present (reducedValue (cerboOverlay all o) f) ∧
        st.available f.jsonName = ((cerboOverlay all o).val f).isSome := by
  obtain ⟨c', hc', hov⟩ := (snapshotClient all o).applyCerboOverlays_spec
  refine ⟨c'.state, by rw [cerboSnapshotToState, hc']; rfl, fun f hf => ?_⟩
  rcases hov.reducedValue rfl hf with ⟨-, hfield, havail⟩ | ⟨-, hnone, hfield, havail⟩
  · exact ⟨congrArg _ hfield, havail⟩
  · have hnone : (cerboOverlay all o).val f = none := hnone
    rw [hfield, havail, present_reducedValue hnone, hnone]
    exact ⟨rfl, rfl⟩

/-! ## A client that hears device messages -/

/-- A device message. -/
structure DeviceMessage where
  parts : List String
  payload : Payload
  now : Time

/-- The instance a message names is canonical. -/
def DeviceMessage.Canonical (m : DeviceMessage) : Prop := CanonicalID (m.parts.getD 3 "")

instance (m : DeviceMessage) : Decidable m.Canonical :=
  inferInstanceAs (Decidable (CanonicalID _))

/-- A client that hears nothing but device messages, and whether it has accepted one. -/
structure Hearing where
  client : Client
  accepted : Bool

namespace Hearing

/-- `handleCerboDevice`. -/
def step (s : Hearing) (m : DeviceMessage) : Option Hearing :=
  (s.client.handleCerboDevice m.parts m.payload m.now).map fun r => ⟨r.1, s.accepted || r.2⟩

/-- A fresh client. -/
def Init (cfg : Config) (s : Hearing) : Prop := s = ⟨newClient cfg, false⟩

/-- A run whose messages name canonical instances. -/
abbrev Run (cfg : Config) : Hearing → Prop :=
  Transition.Reachable step (fun _ m => m.Canonical) (Init cfg)

/-- Between messages a claimed member holds the output of the reducer, and one that is not claimed
has none and was never touched. -/
structure Incremental (cfg : Config) (s : Hearing) : Prop where
  options : s.client.options = (newClient cfg).options
  essMode : s.client.controllerESSMode = none
  canonical : s.client.cerboLeaves.Canonical
  fresh : s.accepted = false → s.client.cerboLeaves = ∅
  owned : ∀ f, s.client.cerboOwned.has f = true → s.accepted = true ∧
    s.client.state.field f = reducedValue s.client.overlay f ∧
    s.client.state.available f.jsonName = (s.client.overlay.val f).isSome
  unowned : ∀ f ∈ directFields, s.client.cerboOwned.has f = false →
    (s.accepted = true → s.client.overlay.val f = none) ∧
    s.client.state.field f = f.type.zero ∧ s.client.state.available f.jsonName = false

theorem incremental_of_init {cfg : Config} {s : Hearing} (h : Init cfg s) :
    Incremental cfg s := by
  obtain rfl := h
  refine ⟨rfl, rfl, fun l hl => (by cases hl), fun _ => rfl, fun f hf => (by cases hf),
    fun f hf _ => ⟨fun h => (by cases h), ?_, ?_⟩⟩
  · have hnew : ∀ f ∈ directFields, f ∉ [Field.booleans, .features, .dashboardVersion, .version,
        .console, .telemetryAvailable] := by decide
    have hne := hnew f hf
    simp only [List.mem_cons, List.not_mem_nil, or_false, not_or] at hne
    obtain ⟨h₁, h₂, h₃, h₄, h₅, h₆⟩ := hne
    show newState.field f = _
    unfold newState
    rw [State.set_field_ne _ h₆, State.set_field_ne _ h₅, State.set_field_ne _ h₄,
      State.set_field_ne _ h₃, State.set_field_ne _ h₂, State.set_field_ne _ h₁]
    rfl
  · show newState.available f.jsonName = false
    rw [State.available, newState, State.set_field_self, Client.emptyAvailability_find]

/-- A rejected message leaves the telemetry as it was. -/
theorem Incremental.of_sameTelemetry {cfg : Config} {s : Hearing} (h : Incremental cfg s)
    {c' : Client} (hsame : s.client.SameTelemetry c') : Incremental cfg ⟨c', s.accepted⟩ := by
  refine ⟨hsame.options.trans h.options, hsame.essMode.trans h.essMode, ?_, fun ha => ?_,
    fun f hf => ?_, fun f hf ho => ?_⟩
  · exact hsame.leaves.symm ▸ h.canonical
  · exact hsame.leaves.trans (h.fresh ha)
  · have ho : s.client.cerboOwned.has f = true := hsame.owned ▸ hf
    obtain ⟨ha, hfield, havail⟩ := h.owned f ho
    refine ⟨ha, ?_, ?_⟩
    · show c'.state.field f = reducedValue c'.overlay f
      rw [hsame.field f (s.client.cerboOwned.direct f ho), hsame.overlay, hfield]
    · show c'.state.available f.jsonName = (c'.overlay.val f).isSome
      rw [hsame.flags, hsame.overlay, havail]
  · have ho : s.client.cerboOwned.has f = false := hsame.owned ▸ ho
    obtain ⟨hnone, hfield, havail⟩ := h.unowned f hf ho
    exact ⟨fun ha => hsame.overlay.symm ▸ hnone ha, (hsame.field f hf).trans hfield,
      (hsame.flags _).trans havail⟩

/-- A message with a canonical instance keeps the cache canonical. -/
theorem canonical_of_stored {c c₁ : Client} {m : DeviceMessage}
    (h : c.Stored m.parts m.payload c₁) (hc : c.cerboLeaves.Canonical) (hm : m.Canonical) :
    c₁.cerboLeaves.Canonical := by
  obtain ⟨portal, kindName, kind, inst, rest, hparts, -, -, hleaves⟩ := h.leaves
  have hinst : CanonicalID inst := by
    unfold DeviceMessage.Canonical at hm
    rw [hparts] at hm
    exact hm
  intro l hl
  have hmem : (c₁.cerboLeaves.lookup l).isSome := AList.lookup_isSome.mpr (AList.mem_keys.mpr hl)
  rcases hleaves with ⟨-, heq⟩ | ⟨v, -, -, heq⟩
  · rw [heq, LeafMap.lookup_eraseDevice] at hmem
    split_ifs at hmem
    · cases hmem
    · exact hc l (AList.mem_keys.mp (AList.lookup_isSome.mp hmem))
  · by_cases hl' : l = ⟨kind, inst, topicText rest⟩
    · rw [hl']
      exact hinst
    · rw [heq, AList.lookup_insert_ne hl'] at hmem
      exact hc l (AList.mem_keys.mp (AList.lookup_isSome.mp hmem))

/-- **Step.** A message is rejected without a trace, or it reduces the changed cache.

**Proof sketch.** A reduction leaves what is claimed as the output. What is still not claimed was
not claimed before either, and the reduction does not touch it. -/
theorem incremental_step {cfg : Config} {s s' : Hearing} {m : DeviceMessage}
    (h : Incremental cfg s) (hm : m.Canonical) (hs : s.step m = some s') : Incremental cfg s' := by
  obtain ⟨⟨c', changed⟩, hr, rfl⟩ := Option.map_eq_some_iff.mp hs
  obtain ⟨c'', changed', hr', hcases⟩ :=
    s.client.handleCerboDevice_spec m.parts m.payload m.now
  obtain ⟨rfl, rfl⟩ := Prod.mk.inj (Option.some.inj (hr'.symm.trans hr))
  rcases hcases with ⟨rfl, hsame⟩ | ⟨rfl, c₁, hst, hov⟩
  · have hsame : s.client.SameTelemetry c'' := by
      rcases hsame with rfl | rfl
      · exact Client.SameTelemetry.refl _
      · exact s.client.initCerboMaps_sameTelemetry
    have hinc := h.of_sameTelemetry hsame
    rwa [← Bool.or_false s.accepted] at hinc
  · have hsel : c₁.selectableESSMode = none := by
      have hmode : c₁.controllerESSMode = none := by
        rw [hst.frame]
        exact h.essMode
      rw [Client.selectableESSMode, hmode]
      rfl
    have hleaves : c''.cerboLeaves = c₁.cerboLeaves := by rw [hov.frame]
    have hsame := s.client.initCerboMaps_sameTelemetry
    have hstate : c₁.state = s.client.initCerboMaps.state := by rw [hst.frame]
    refine ⟨?_, ?_, ?_, fun ha => ?_, fun f ho => ?_, fun f hf ho => ?_⟩
    · exact (hov.sameTransport.options.trans hst.sameTransport.options).trans h.options
    · show c''.controllerESSMode = none
      rw [hov.frame, hst.frame]
      exact h.essMode
    · show c''.cerboLeaves.Canonical
      rw [hleaves]
      exact canonical_of_stored hst h.canonical hm
    · rw [Bool.or_true] at ha
      cases ha
    · show (s.accepted || true) = true ∧ c''.state.field f = reducedValue c''.overlay f ∧
        c''.state.available f.jsonName = (c''.overlay.val f).isSome
      rw [hov.overlay_eq]
      rcases hov.reducedValue hsel (c''.cerboOwned.direct f ho) with ⟨-, hfield⟩ | ⟨hno, -⟩
      · exact ⟨Bool.or_true _, hfield⟩
      · exact absurd (ho.symm.trans hno) (by decide)
    · have hno : s.client.cerboOwned.has f = false := by
        by_contra hyes
        have hyes' := hov.owned_of_owned (hst.owned f (by simpa using hyes))
        exact absurd (hyes'.symm.trans ho) (by decide)
      obtain ⟨-, hold, holdav⟩ := h.unowned f hf hno
      show (_ → c''.overlay.val f = none) ∧ c''.state.field f = _ ∧
        c''.state.available f.jsonName = false
      rw [hov.overlay_eq]
      rcases hov.reducedValue hsel hf with ⟨hyes, -⟩ | ⟨-, hnone, hfield, havail⟩
      · exact absurd (hyes.symm.trans ho) (by decide)
      · exact ⟨fun _ => hnone, by rw [hfield, hstate, hsame.field f hf, hold],
          by rw [havail, hstate, hsame.flags, holdav]⟩

/-- **Run.** It holds between all messages. -/
theorem incremental_of_run {cfg : Config} {s : Hearing} (h : Run cfg s) : Incremental cfg s :=
  h.invariant (fun _ => incremental_of_init) fun _ _ _ hi hm hs => incremental_step hi hm hs

/-- The telemetry as a function of the leaves alone. -/
theorem Incremental.present {cfg : Config} {s : Hearing} (h : Incremental cfg s) {f : Field}
    (hf : f ∈ directFields) :
    f.type.present (s.client.state.field f) =
        f.type.present (reducedValue s.client.overlay f) ∧
      s.client.state.available f.jsonName = (s.accepted && (s.client.overlay.val f).isSome) := by
  cases ho : s.client.cerboOwned.has f with
  | true =>
    obtain ⟨ha, hfield, havail⟩ := h.owned f ho
    rw [hfield, havail, ha]
    exact ⟨rfl, rfl⟩
  | false =>
    obtain ⟨hnone, hfield, havail⟩ := h.unowned f hf ho
    rw [hfield, havail]
    cases ha : s.accepted with
    | true =>
      rw [present_reducedValue (hnone ha), hnone ha]
      exact ⟨rfl, rfl⟩
    | false =>
      refine ⟨?_, rfl⟩
      have hout : s.client.overlay = cerboOverlay ∅ s.client.options := by
        rw [Client.overlay, h.fresh ha]
      rw [hout]
      cases hv : (cerboOverlay ∅ s.client.options).val f with
      | none => rw [present_reducedValue hv]
      | some v =>
        unfold reducedValue
        rw [hv, Option.getD_some]
        split_ifs
        · exact (present_of_empty hv).symm
        · exact f.type.present_cleared.symm

/-- In every run every message is handled, and between the messages the telemetry is that of the
snapshot of the current leaves, except that nothing is flagged before the first accepted message.
Hence two runs with the same leaves, each with an accepted message or neither, show the same.

**Proof sketch.** Both the client and the snapshot show a function of the reducer's output
(`Incremental.present`, `cerboSnapshotToState_spec`), and the output depends on the leaves alone
(`cerboOverlay_eq_of_same`). -/
theorem agrees_of_reachable {cfg : Config} {s : Hearing} (h : Run cfg s) :
    (∀ m, (s.step m).isSome) ∧
    (∃ st, cerboSnapshotToState s.client.cerboLeaves s.client.options = some st ∧
      ∀ f ∈ directFields, f.type.present (s.client.state.field f) = f.type.present (st.field f) ∧
        s.client.state.available f.jsonName = (s.accepted && st.available f.jsonName)) ∧
    ∀ cfg' s', Run cfg' s' → s'.client.options = s.client.options →
      s.client.cerboLeaves.Same s'.client.cerboLeaves → s'.accepted = s.accepted →
      ∀ f ∈ directFields,
        f.type.present (s.client.state.field f) = f.type.present (s'.client.state.field f) ∧
          s.client.state.available f.jsonName = s'.client.state.available f.jsonName := by
  have hinc := incremental_of_run h
  refine ⟨fun m => ?_, ?_, fun cfg' s' h' hopt hsame hacc f hf => ?_⟩
  · obtain ⟨c', changed, hr, -⟩ := s.client.handleCerboDevice_spec m.parts m.payload m.now
    rw [step, hr]
    rfl
  · obtain ⟨st, hst, hspec⟩ := cerboSnapshotToState_spec s.client.cerboLeaves s.client.options
    refine ⟨st, hst, fun f hf => ?_⟩
    obtain ⟨hfield, havail⟩ := hinc.present hf
    obtain ⟨hfield', havail'⟩ := hspec f hf
    exact ⟨hfield.trans hfield'.symm, by rw [havail, havail']; rfl⟩
  · have hov : s'.client.overlay = s.client.overlay := by
      rw [Client.overlay, Client.overlay, hopt,
        cerboOverlay_eq_of_same hsame hinc.canonical.distinctNumbers]
    obtain ⟨hfield, havail⟩ := hinc.present hf
    obtain ⟨hfield', havail'⟩ := (incremental_of_run h').present hf
    rw [hfield, hfield', havail, havail', hov, hacc]
    exact ⟨rfl, rfl⟩

/-- Whether the cache is a list of two numeric leaves. -/
def holds (s : Hearing) (a b : Leaf × F64) : Bool :=
  match s.client.cerboLeaves.entries with
  | [⟨l, .float64 x⟩, ⟨l', .float64 x'⟩] => decide ((l, x) = a ∧ (l', x') = b)
  | _ => false

theorem entries_of_holds {s : Hearing} {a b : Leaf × F64} (h : s.holds a b = true) :
    s.client.cerboLeaves.entries = [⟨a.1, .float64 a.2⟩, ⟨b.1, .float64 b.2⟩] := by
  unfold holds at h
  split at h
  · obtain ⟨rfl, rfl⟩ := of_decide_eq_true h
    assumption
  · cases h

/-- A number on a leaf. -/
def reading (kind inst : String) (path : List String) (n : ℤ) : DeviceMessage :=
  ⟨"N" :: "c0" :: kind :: inst :: path, .json (.obj [("value", .num (.ofInt n))]), 0⟩

/-- Two leaves. -/
def plainRun : List DeviceMessage :=
  [reading "tank" "0" ["Level"] 50, reading "ev" "2" ["Soc"] 40]

/-- The same leaves in another order, with other values and a battery in between. -/
def restlessRun : List DeviceMessage :=
  [reading "ev" "2" ["Soc"] 90, reading "battery" "1" ["Dc", "0", "Voltage"] 52,
    ⟨["N", "c0", "battery", "1"], .empty, 0⟩, reading "ev" "2" ["Soc"] 40,
    reading "tank" "0" ["Level"] 50]

theorem agrees_of_reachable_restless : ∃ s s', Run {} s ∧ Run {} s' ∧
    s.client.overlay.val .carSOC = some (40 : F64) ∧ s.accepted = true ∧ s'.accepted = true ∧
    (∃ st, cerboSnapshotToState s.client.cerboLeaves s.client.options = some st ∧
      ∀ f ∈ directFields, f.type.present (s.client.state.field f) = f.type.present (st.field f) ∧
        s.client.state.available f.jsonName = (s.accepted && st.available f.jsonName)) ∧
    ∀ f ∈ directFields,
      f.type.present (s.client.state.field f) = f.type.present (s'.client.state.field f) ∧
        s.client.state.available f.jsonName = s'.client.state.available f.jsonName := by
  obtain ⟨s, hs, hp⟩ := Transition.Reachable.exists_of_run step (fun _ m => m.Canonical) plainRun
    (fun s => s.accepted && s.client.overlay.val .carSOC == some (40 : F64) &&
      s.holds (⟨.ev, "2", "Soc"⟩, 40) (⟨.tank, "0", "Level"⟩, 50))
    (show Init {} _ from rfl) (by decide +kernel) (by decide +kernel)
  obtain ⟨s', hs', hp'⟩ := Transition.Reachable.exists_of_run step (fun _ m => m.Canonical)
    restlessRun
    (fun s => s.accepted && s.holds (⟨.tank, "0", "Level"⟩, 50) (⟨.ev, "2", "Soc"⟩, 40))
    (show Init {} _ from rfl) (by decide +kernel) (by decide +kernel)
  simp only [Bool.and_eq_true, beq_iff_eq] at hp hp'
  obtain ⟨⟨hacc, hsoc⟩, hleaves⟩ := hp
  obtain ⟨hacc', hleaves'⟩ := hp'
  have hsame : s.client.cerboLeaves.Same s'.client.cerboLeaves := fun l =>
    AList.perm_lookup (by
      rw [entries_of_holds hleaves, entries_of_holds hleaves']
      exact List.Perm.swap _ _ _)
  have hopt : s'.client.options = s.client.options :=
    (incremental_of_run hs').options.trans (incremental_of_run hs).options.symm
  obtain ⟨-, hst, hall⟩ := agrees_of_reachable hs
  exact ⟨s, s', hs, hs', hsoc, hacc, hacc', hst, hall {} s' hs' hopt hsame (hacc'.trans hacc.symm)⟩

/-- The first message is rejected: the presence of a vehicle is not flagged, as it is in the
snapshot of no leaves. -/
theorem disagrees_before_accepted : ∃ m s st, m.Canonical ∧
    step ⟨newClient {}, false⟩ m = some s ∧
    cerboSnapshotToState s.client.cerboLeaves s.client.options = some st ∧
    s.client.state.available "ev_present" = false ∧ st.available "ev_present" = true := by
  have hrun : (step ⟨newClient {}, false⟩ ⟨["N", "c0", "ev", "2", "Soc"], .invalid, 0⟩).any
      (fun s =>
      !s.client.state.available "ev_present" &&
        (cerboSnapshotToState s.client.cerboLeaves s.client.options).any
          fun st => st.available "ev_present") = true := by
    decide
  obtain ⟨s, hs, hp⟩ := (Option.any_eq_true _ _).mp hrun
  obtain ⟨hno, hst⟩ := Bool.and_eq_true_iff.mp hp
  obtain ⟨st, hst, hyes⟩ := (Option.any_eq_true _ _).mp hst
  exact ⟨_, s, st, by decide, hs, hst, by simpa using hno, hyes⟩

end Hearing

end Dashboard
