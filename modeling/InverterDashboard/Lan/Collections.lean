import InverterDashboard.Go.Residue
import InverterDashboard.Lan.Ownership
import InverterDashboard.Mqtt.Independence

set_option relaxedAutoImplicit false
set_option autoImplicit false

/-!
# Legacy collections

The lists of a controller frame that native telemetry does not own are decoded into the list that is
there, element by element. Here is exactly when such a list is the one of the frame.

## Main definitions

* `Dashboard.Collection`, `Collection.slice`, `Collection.element` — the lists and their elements.
* `Dashboard.Collection.fresh` — a list decoded into a fresh value.
* `Dashboard.Lan.OutputsClaimed` — native telemetry owns what it outputs.

## Main results

* `Dashboard.Client.slice_of_commitState` — what a frame makes of a list.
* `Dashboard.Lan.outputsClaimed_of_reachable` — in a run, outputs are owned.
* `Dashboard.Lan.replaced_iff_of_reachable` — when a list is replaced.
-/

namespace Go.Member

variable {σ : Type}

/-- A text member. -/
def text (name : String) (get : σ → String) (set : σ → String → σ)
    (h : ∀ s v, get (set s v) = v := by intros; rfl) : Member σ :=
  ⟨name, .scalar "" .string Decoder.scalar_string, get, set, h⟩

/-- A number member. -/
def float64 (name : String) (get : σ → F64) (set : σ → F64 → σ)
    (h : ∀ s v, get (set s v) = v := by intros; rfl) : Member σ :=
  ⟨name, .scalar 0 .float64 Decoder.scalar_float64, get, set, h⟩

/-- An optional number. -/
def ptrFloat64 (name : String) (get : σ → Option F64) (set : σ → Option F64 → σ)
    (h : ∀ s v, get (set s v) = v := by intros; rfl) : Member σ :=
  ⟨name, .pointer 0 .float64 Decoder.scalar_float64, get, set, h⟩

/-- A map of flags. -/
def mapBool (name : String) (get : σ → GoMap Bool) (set : σ → GoMap Bool → σ)
    (h : ∀ s v, get (set s v) = v := by intros; rfl) : Member σ :=
  ⟨name, .map false .bool, get, set, h⟩

/-- A flag. -/
def bool (name : String) (get : σ → Bool) (set : σ → Bool → σ)
    (h : ∀ s v, get (set s v) = v := by intros; rfl) : Member σ :=
  ⟨name, .scalar false .bool Decoder.scalar_bool, get, set, h⟩

end Go.Member

namespace Dashboard

open Go

/-! ## Elements -/

/-- Batteries by their members. -/
def Battery.record : Record Battery where
  zero := {}
  shown :=
    [.text "instance" (·.inst) fun s v => { s with inst := v },
     .text "serial" (·.serial) fun s v => { s with serial := v },
     .ptrFloat64 "temperature" (·.temperature) fun s v => { s with temperature := v },
     .ptrFloat64 "min_cell_voltage" (·.minCellVoltage) fun s v => { s with minCellVoltage := v },
     .ptrFloat64 "max_cell_voltage" (·.maxCellVoltage) fun s v => { s with maxCellVoltage := v },
     .text "min_voltage_cell_id" (·.minVoltageCellID) fun s v => { s with minVoltageCellID := v },
     .text "max_voltage_cell_id" (·.maxVoltageCellID) fun s v => { s with maxVoltageCellID := v },
     .mapBool "telemetry_available" (·.telemetryAvailable)
       fun s v => { s with telemetryAvailable := v },
     .text "name" (·.name) fun s v => { s with name := v },
     .float64 "voltage" (·.voltage) fun s v => { s with voltage := v },
     .float64 "current" (·.current) fun s v => { s with current := v },
     .float64 "power" (·.power) fun s v => { s with power := v },
     .float64 "soc" (·.soc) fun s v => { s with soc := v },
     .text "state" (·.state) fun s v => { s with state := v },
     .text "time_to_go" (·.timeToGo) fun s v => { s with timeToGo := v }]
  hidden := []
  get_zero := by
    simp only [List.append_nil, List.forall_mem_cons]
    repeat' constructor
    all_goals first | rfl | simp
  nodup := by decide
  apart := by
    simp only [List.append_nil, List.pairwise_cons, List.forall_mem_cons]
    repeat' constructor
    all_goals first | exact fun _ _ => rfl | simp

/-- Chargers and PV inverters by their members. -/
def Charger.record : Record Charger where
  zero := {}
  shown :=
    [.text "instance" (·.inst) fun s v => { s with inst := v },
     .text "serial" (·.serial) fun s v => { s with serial := v },
     .mapBool "telemetry_available" (·.telemetryAvailable)
       fun s v => { s with telemetryAvailable := v },
     .text "name" (·.name) fun s v => { s with name := v },
     .float64 "pv_voltage" (·.pvVoltage) fun s v => { s with pvVoltage := v },
     .float64 "current" (·.current) fun s v => { s with current := v },
     .float64 "power" (·.power) fun s v => { s with power := v }]
  hidden := []
  get_zero := by
    simp only [List.append_nil, List.forall_mem_cons]
    repeat' constructor
    all_goals first | rfl | simp
  nodup := by decide
  apart := by
    simp only [List.append_nil, List.pairwise_cons, List.forall_mem_cons]
    repeat' constructor
    all_goals first | exact fun _ _ => rfl | simp

/-- Solar sources by their members. -/
def SolarSource.record : Record SolarSource where
  zero := {}
  shown :=
    [.text "name" (·.name) fun s v => { s with name := v },
     .float64 "pv_voltage" (·.pvVoltage) fun s v => { s with pvVoltage := v },
     .float64 "current" (·.current) fun s v => { s with current := v },
     .float64 "power" (·.power) fun s v => { s with power := v }]
  hidden := []
  get_zero := by
    simp only [List.append_nil, List.forall_mem_cons]
    repeat' constructor
    all_goals first | rfl | simp
  nodup := by decide
  apart := by
    simp only [List.append_nil, List.pairwise_cons, List.forall_mem_cons]
    repeat' constructor
    all_goals first | exact fun _ _ => rfl | simp

/-- Banners by their members; `PushIncomplete` is not part of the schema. -/
def Notification.record : Record Notification where
  zero := {}
  shown :=
    [.text "id" (·.id) fun s v => { s with id := v },
     .text "level" (·.level) fun s v => { s with level := v },
     .text "title" (·.title) fun s v => { s with title := v },
     .text "body" (·.body) fun s v => { s with body := v },
     .text "source" (·.source) fun s v => { s with source := v },
     .text "ts" (·.ts) fun s v => { s with ts := v }]
  hidden := [.bool "-" (·.pushIncomplete) fun s v => { s with pushIncomplete := v }]
  get_zero := by
    simp only [List.cons_append, List.nil_append, List.forall_mem_cons]
    repeat' constructor
    all_goals first | rfl | simp
  nodup := by decide
  apart := by
    simp only [List.cons_append, List.nil_append, List.pairwise_cons, List.forall_mem_cons]
    repeat' constructor
    all_goals first | exact fun _ _ => rfl | simp

/-! ## Lists -/

/-- The lists of a controller frame that the merge decodes into the old list. -/
inductive Collection where
  | batteries | mpptChargers | mpptIndividual | pvInverters | solarSources | notifications
  deriving DecidableEq

namespace Collection

/-- The member of the state. -/
def field : Collection → Field
  | .batteries => .batteries
  | .mpptChargers => .mpptChargers
  | .mpptIndividual => .mpptIndividual
  | .pvInverters => .pvInverters
  | .solarSources => .solarSources
  | .notifications => .notifications

/-- What a list holds. -/
@[reducible] def Elem : Collection → Type
  | .batteries => Battery
  | .mpptChargers | .pvInverters => Charger
  | .mpptIndividual => F64
  | .solarSources => SolarSource
  | .notifications => Notification

/-- The elements of a list. -/
def element : (k : Collection) → Element k.Elem
  | .batteries => Battery.record.element
  | .mpptChargers | .pvInverters => Charger.record.element
  | .mpptIndividual => (Slot.scalar 0 .float64 Decoder.scalar_float64).element
  | .solarSources => SolarSource.record.element
  | .notifications => Notification.record.element

/-- The list of a state. -/
def slice (st : State) : (k : Collection) → GoSlice k.Elem
  | .batteries => st.field .batteries
  | .mpptChargers => st.field .mpptChargers
  | .mpptIndividual => st.field .mpptIndividual
  | .pvInverters => st.field .pvInverters
  | .solarSources => st.field .solarSources
  | .notifications => st.field .notifications

/-- Decoding into a list. -/
def decode (k : Collection) : Decoder (GoSlice k.Elem) := .slice k.element.zero k.element.decode

/-- A list decoded into a fresh value. -/
def fresh (k : Collection) (v : Any) : GoSlice k.Elem := (k.decode v .nil).1

/-- The list is the one of the frame. -/
def Replaced (k : Collection) (st : State) (v : Any) : Prop :=
  k.element.SameSlice (slice st k) (k.fresh v)

/-- Decoding the member is decoding the list. -/
theorem slice_set_decoder (k : Collection) (st : State) (old : State) (v : Any)
    (h : st.field k.field = (k.field.type.decoder v (old.field k.field)).1) :
    slice st k = (k.decode v (slice old k)).1 := by
  cases k <;> exact h

/-- A list fits the member when it fits the list. -/
theorem accepts_eq (k : Collection) (v : Any) :
    k.field.type.accepts v = (k.decode v .nil).2 := by
  cases k <;> rfl

/-- No list is in the native section of a frame. -/
theorem skipsKey_field (k : Collection) {c : Client} (h : c.cerboOwned.has k.field = false) :
    c.skipsKey k.field.jsonName = false := by
  unfold Client.skipsKey
  rw [OwnedFields.hasName_jsonName, h]
  cases k <;> decide

end Collection

namespace Client

/-- **Frames.** After a frame a list that native telemetry neither owns nor outputs is the list of
the frame, decoded into the old one.

**Proof sketch.** The first loop decodes it (`mergeLoop_field_of_entry`), and neither the flags nor
the section nor the reducer nor the receipts reach it. -/
theorem slice_of_commitState {c c' : Client} {data : Frame} (hn : (data.map Prod.fst).Nodup)
    (k : Collection)
    (hexact : ∀ e ∈ data, matchField e.1 = some k.field → e.1 = k.field.jsonName)
    (hown : c.cerboOwned.has k.field = false) (hout : c.overlay.val k.field = none)
    {retained : Bool} {now : Time} (hc : c.commitState data retained now = some c') {v : Any}
    (hv : entry data k.field.jsonName = some v) :
    Collection.slice c'.state k = (k.decode v (Collection.slice c.state k)).1 := by
  obtain ⟨c₁, h₁, hc⟩ := Option.bind_eq_some_iff.mp hc
  obtain rfl := Option.some.inj hc
  obtain ⟨st₁, st₂, hm⟩ := merged_of_eq_some _ h₁
  have hne : k.field ≠ .telemetryAvailable ∧ k.field ≠ .essMode ∧ k.field ≠ .dashboardVersion ∧
      k.field ∉ snapshotFields ∧ k.field ∉ [Field.setpointOverride, .setpointOverrideObservedAt,
        .electricityTariffObservedAt, .essModeObservedAt, .gridBackupObservedAt] := by
    cases k <;> decide
  obtain ⟨htel, hess, hver, hsec, hrec⟩ := hne
  have hnot : c₁.cerboOwned.has k.field = false := by
    rw [hm.overlaid.owned]
    have hhub : ownedWithHub4 { c.receiveState data retained now with
        state := st₂.set .dashboardVersion (c.receiveState data retained now).currentVersion } =
        c.ownedWithHub4 := rfl
    have hov : overlay { c.receiveState data retained now with
        state := st₂.set .dashboardVersion (c.receiveState data retained now).currentVersion } =
        c.overlay := rfl
    rw [hhub, hov, hout, ownedWithHub4]
    split_ifs <;> simp [OwnedFields.claim, hown, hess]
  refine k.slice_set_decoder _ c.state v ?_
  calc (c₁.finishState data retained now).state.field k.field
      = c₁.state.field k.field := (c₁.finishState_spec data retained now).field _ hrec
    _ = (st₂.set .dashboardVersion _).field k.field := by
        rw [hm.overlaid.field _ htel fun h => absurd h hess, hnot]
        rfl
    _ = st₂.field k.field := State.set_field_ne _ hver _
    _ = st₁.field k.field := hm.snapshot.frame _ hsec
    _ = (c.mergeLoop data).1.field k.field := by
        rw [hm.loop _ htel, mergeLoop_receiveState]
    _ = _ := by rw [c.mergeLoop_field_of_entry hn hexact (k.skipsKey_field hown) htel, hv]

end Client

/-! ## Runs -/

namespace Lan

/-- Native telemetry owns the lists it outputs. -/
structure OutputsClaimed (c : Client) : Prop where
  claimed : ∀ k : Collection, (c.overlay.val k.field).isSome → c.cerboOwned.has k.field = true

/-- Without readings no list is output. -/
theorem outputsClaimed_of_empty {c : Client} (h : c.cerboLeaves = ∅) : OutputsClaimed c := by
  refine ⟨fun k hk => ?_⟩
  rw [Client.overlay, h, cerboOverlay_empty] at hk
  cases k <;> exact absurd hk (by simp [Collection.field, Overlay.empty])

/-- **Step.** A reduction owns what it outputs, and nothing else outputs more. -/
theorem outputsClaimed_step {r : NativeScalars} {s s' : Lan} {e : LanEvent}
    (h : OutputsClaimed s.client) (hs : s.step r e = some s') : OutputsClaimed s'.client := by
  cases step_touched hs with
  | kept hsame _ =>
    refine ⟨fun k hk => ?_⟩
    rw [hsame.owned]
    exact h.claimed k (hsame.overlay ▸ hk)
  | reduced hred =>
    obtain ⟨c₁, c₂, -, hov, hsame⟩ := hred
    refine ⟨fun k hk => ?_⟩
    rw [hsame.owned, hov.owned, ← hov.overlay_eq, ← hsame.overlay, hk, Bool.or_true]
  | expired hexp _ =>
    refine ⟨fun k hk => ?_⟩
    rw [hexp.owned]
    refine h.claimed k ?_
    rwa [Client.overlay, hexp.leaves, hexp.options] at hk
  | emptied he _ => exact outputsClaimed_of_empty he.leaves

/-- **Run.** In a run, outputs are owned. -/
theorem outputsClaimed_of_reachable {r : NativeScalars} {s : Lan}
    (h : Transition.Reachable (step r) (fun _ _ => True) Init s) : OutputsClaimed s.client := by
  refine h.invariant (I := fun s => OutputsClaimed s.client) ?_ ?_
  · rintro s ⟨cfg, hc, -⟩
    exact outputsClaimed_of_empty (by rw [hc, newClient])
  · intro s e s' hi _ hs
    exact outputsClaimed_step (s := s) hi hs

/-- On LAN a delivered state frame is committed. -/
theorem commitState_of_deliver {r : NativeScalars} {s s' : Lan} {retained : Bool}
    {payload : Payload} {data : Frame} (hlan : s.client.gatewayMode = false)
    (hd : decodeControllerState payload = some data)
    (hs : s.step r (.deliver s.client.mqttSession retained (.state payload)) = some s') :
    ∃ c', s.client.commitState data retained s.now = some c' ∧ s'.client.state = c'.state := by
  rw [step] at hs
  by_cases hmem : s.client.mqttSession ∈ s.bound
  swap
  · rw [if_neg hmem] at hs
    cases hs
  rw [if_pos hmem] at hs
  obtain ⟨c', hc', rfl⟩ := Option.map_eq_some_iff.mp hs
  rw [Client.deliver, if_pos rfl, Client.applyControllerMessage_eq _ hd, Client.applyInOrder] at hc'
  split_ifs at hc' with hcur
  · obtain ⟨c₁, hc₁, rfl⟩ := Option.map_eq_some_iff.mp hc'
    exact ⟨c₁, hc₁, rfl⟩
  · exact absurd (by simp [Client.sourceCurrent, hlan]) hcur

/-- **Legacy collections.** After every history, a frame that carries a list native telemetry does
not own, under its exact name and of the right type, replaces the list exactly if its elements leave
nothing of the old ones at their places.

**Proof sketch.** The list is decoded into the old one (`Client.slice_of_commitState`, with
`outputsClaimed_of_reachable`), and decoding an array into an old slice is decoding it afresh
exactly if nothing is left (`Go.Element.slice_same_iff`). -/
theorem replaced_iff_of_reachable (r : NativeScalars) {s s' : Lan}
    (h : Transition.Reachable (step r) (fun _ _ => True) Init s) {retained : Bool}
    {payload : Payload} {data : Frame} (hd : decodeControllerState payload = some data)
    (hs : s.step r (.deliver s.client.mqttSession retained (.state payload)) = some s')
    (k : Collection)
    (hexact : ∀ e ∈ data, matchField e.1 = some k.field → e.1 = k.field.jsonName)
    (hown : s.client.cerboOwned.has k.field = false) {as : List Any}
    (hv : entry data k.field.jsonName = some (.list as))
    (hfit : k.field.type.accepts (.list as) = true) :
    k.Replaced s'.client.state (.list as) ↔
      k.element.CleanSlice as (Collection.slice s.client.state k) := by
  have hlan : s.client.gatewayMode = false :=
    (h.invariant (I := Sessions) (fun _ => sessions_of_init)
      fun _ _ _ hi _ hs => sessions_step hi hs).lan
  have hout : s.client.overlay.val k.field = none := by
    by_contra hne
    rw [(outputsClaimed_of_reachable h).claimed k (Option.isSome_iff_ne_none.mpr hne)] at hown
    cases hown
  obtain ⟨c', hc', hcommit⟩ := commitState_of_deliver hlan hd hs
  have hslice := Client.slice_of_commitState (Client.decodeControllerState_nodup hd) k hexact hown
    hout hc' hv
  rw [Collection.Replaced, hcommit, hslice]
  exact k.element.slice_same_iff ((k.accepts_eq _).symm.trans hfit) _

/-- A battery with a state of charge. -/
def chargedFrame : Payload :=
  .json (.obj [("batteries", .arr [.obj [("name", .str "A"), ("soc", .num (.ofInt 55))]])])

/-- A battery without one. -/
def swappedFrame : Payload := .json (.obj [("batteries", .arr [.obj [("name", .str "B")]])])

/-- What the second frame carries. -/
def swappedList : List Any := [.object [("name", .string "B")]]

theorem decode_swappedFrame :
    decodeControllerState swappedFrame = some [("batteries", .list swappedList)] := rfl

theorem exact_swappedFrame : ∀ e ∈ [("batteries", Any.list swappedList)],
    matchField e.1 = some (Collection.field .batteries) →
      e.1 = (Collection.field .batteries).jsonName := by
  intro e he _
  rw [List.mem_singleton.mp he]
  rfl

theorem accepts_swappedList :
    (Collection.field .batteries).type.accepts (.list swappedList) = true := by decide +kernel

/-- The first list of a history is the one of its frame. -/
theorem replaced_iff_of_reachable_first : ∃ s s',
    Transition.Reachable (step noScalars) (fun _ _ => True) Init s ∧
      s.step noScalars (.deliver s.client.mqttSession false (.state swappedFrame)) = some s' ∧
      Collection.Replaced .batteries s'.client.state (.list swappedList) := by
  obtain ⟨s, hs, hp⟩ := Transition.Reachable.exists_of_run (step noScalars) (fun _ _ => True)
    [.opened, .subscribe ⟨true, true⟩]
    (fun s => (s.step noScalars (.deliver s.client.mqttSession false (.state swappedFrame))).isSome
      && !s.client.cerboOwned.has .batteries &&
      (Collection.slice s.client.state .batteries).elems.isEmpty &&
      (Collection.slice s.client.state .batteries).spare.isEmpty)
    init_configured (by decide +kernel) (by decide +kernel)
  simp only [Bool.and_eq_true, Bool.not_eq_true', List.isEmpty_iff] at hp
  obtain ⟨⟨⟨hstep, hown⟩, helems⟩, hspare⟩ := hp
  obtain ⟨s', hs'⟩ := Option.isSome_iff_exists.mp hstep
  refine ⟨s, s', hs, hs', (replaced_iff_of_reachable noScalars hs decode_swappedFrame hs'
    .batteries exact_swappedFrame hown rfl accepts_swappedList).mpr ?_⟩
  rw [Element.CleanSlice, helems, hspare]
  simp

/-- The states of charge of a list of batteries that is replaced are those of the frame. -/
theorem soc_of_replaced {st : State} {v : Any} (h : Collection.Replaced .batteries st v) :
    (st.field .batteries).elems.map (·.soc) =
      (Collection.fresh .batteries v).elems.map (·.soc) := by
  have hsoc : Member.float64 "soc" (·.soc) (fun s v => { s with soc := v }) ∈
      Battery.record.shown ++ Battery.record.hidden := by
    simp [Battery.record]
  have hsame := h.2
  rw [← List.forall₂_eq_eq_eq, List.forall₂_map_left_iff, List.forall₂_map_right_iff]
  exact hsame.imp fun a b hab => hab _ hsoc

/-- A battery that takes the place of another one inherits its state of charge. -/
theorem not_replaced_swapped : ∃ s s',
    Transition.Reachable (step noScalars) (fun _ _ => True) Init s ∧
      s.step noScalars (.deliver s.client.mqttSession false (.state swappedFrame)) = some s' ∧
      s.client.cerboOwned.has .batteries = false ∧
      (s'.client.state.field .batteries).elems.map (fun b => (b.name, b.soc)) = [("B", .fin 55)] ∧
      ¬ Collection.Replaced .batteries s'.client.state (.list swappedList) := by
  obtain ⟨s, hs, hp⟩ := Transition.Reachable.exists_of_run (step noScalars) (fun _ _ => True)
    [.opened, .subscribe ⟨true, true⟩, .deliver 1 false (.state chargedFrame)]
    (fun s => !s.client.cerboOwned.has .batteries &&
      (s.step noScalars (.deliver s.client.mqttSession false (.state swappedFrame))).any fun s' =>
        (s'.client.state.field .batteries).elems.map (fun b => (b.name, b.soc)) == [("B", .fin 55)])
    init_configured (by decide +kernel) (by decide +kernel)
  simp only [Bool.and_eq_true, Bool.not_eq_true'] at hp
  obtain ⟨hown, hstep⟩ := hp
  obtain ⟨s', hs', hrow⟩ := (Option.any_eq_true _ _).mp hstep
  have hrow := beq_iff_eq.mp hrow
  refine ⟨s, s', hs, hs', hown, hrow, fun hrep => ?_⟩
  have hsoc := soc_of_replaced hrep
  have hmap : (s'.client.state.field .batteries).elems.map (·.soc) = [.fin 55] := by
    have := congrArg (List.map Prod.snd) hrow
    rwa [List.map_map] at this
  have hfresh : (Collection.fresh .batteries (.list swappedList)).elems.map (·.soc) = [0] := rfl
  rw [hmap, hfresh] at hsoc
  exact absurd hsoc (by decide)

end Lan

end Dashboard
