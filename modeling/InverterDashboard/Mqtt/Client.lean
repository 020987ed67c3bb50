import InverterDashboard.Mqtt.Overlay
import InverterDashboard.State.Commands

set_option relaxedAutoImplicit false
set_option autoImplicit false

/-!
# The client record and the commit of native telemetry

`mqtt.Client` without its locks and with the parts of it the reducers read and write. A write to
a nil map panics in Go, so every function that writes a map returns an `Option`; `none` is the
panic.

## Main definitions

* `Dashboard.OwnedFields` — the members native telemetry has claimed.
* `Dashboard.Client` — the record.
* `Dashboard.State.available`, `State.setAvailable`, `State.clearAll` — the availability flags.
* `Dashboard.Client.applyCerboOverlays` — the commit of the reducer's output.

## Main results

* `Dashboard.Client.applyCerboOverlays_spec` — the commit never panics, and what it does to every
  member, flag and claim (`Overlaid`).
-/

namespace Dashboard

open Go

/-! ## Claimed members -/

/-- `cerboOwned`: the members native telemetry has claimed. The map is made by `NewClient`, is
never replaced, and only outputs of the reducer enter it. -/
structure OwnedFields where
  has : Field → Bool
  direct : ∀ f, has f = true → f ∈ directFields

namespace OwnedFields

/-- No claims. -/
def none : OwnedFields := ⟨fun _ => false, fun _ h => by cases h⟩

/-- The claims with one more. -/
def claim (o : OwnedFields) (f : Field) (hf : f ∈ directFields) : OwnedFields where
  has g := o.has g || g == f
  direct g h := by
    rcases Bool.or_eq_true_iff.mp h with h | h
    · exact o.direct g h
    · exact beq_iff_eq.mp h ▸ hf

/-- The claims with every output of the reducer. -/
def claimOutputs (o : OwnedFields) (all : LeafMap) (opts : CerboOptions) : OwnedFields where
  has f := o.has f || ((cerboOverlay all opts).val f).isSome
  direct f h := by
    rcases Bool.or_eq_true_iff.mp h with h | h
    · exact o.direct f h
    · by_contra hf
      rw [cerboOverlay_val_eq_none all opts hf] at h
      cases h

/-- `cerboOwned[key]`. -/
def hasName (o : OwnedFields) (key : String) : Bool := (Field.ofName? key).any o.has

@[simp] theorem hasName_jsonName (o : OwnedFields) (f : Field) :
    o.hasName f.jsonName = o.has f := by
  simp [hasName]

end OwnedFields

/-! ## The client -/

/-- The sources of push samples. -/
inductive PushSource where
  | gateway
  | mqtt
  deriving DecidableEq

/-- The devices of `SetWaterMode`. -/
inductive WaterDevice where
  | pump
  | valve
  deriving DecidableEq

/-- The member that holds the mode of a device. -/
def WaterDevice.field : WaterDevice → Field
  | .pump => .pumpMode
  | .valve => .waterValveMode

/-- A platform notification slot (`platformSlotState`). -/
structure PlatformSlot where
  inst : ℕ
  slot : ℕ
  description : String := ""
  deviceName : String := ""
  service : String := ""
  dateTime : String := ""
  notifType : ℤ := 0
  hasType : Bool := false
  pushTypeKnown : Bool := false
  active : Option Bool := none
  acknowledged : Bool := false
  deriving DecidableEq

/-- `mqtt.Client`. The zero `time.Time` is `none`, the session and generation counters do not
wrap around in the life of a process, a nil cache reads as the empty one, and of the library
client only the state of the connection is kept. -/
structure Client where
  pushGeneration : ℕ := 0
  pushSource : Option PushSource := none
  mqttSession : ℕ := 0
  connectionOpen : Bool := false
  state : State
  lastStateTime : Option Time := none
  portalID : String := ""
  tankInstance : ℤ := 0
  pumpInstance : ℤ := 0
  valveInstance : ℤ := 0
  evInstance : ℤ := -1
  evchargerInstance : ℤ := -1
  alarmValues : StrMap ℕ := ∅
  platformSlots : AList fun _ : ℕ × ℕ => PlatformSlot := ∅
  platformNotifsSeen : Bool := false
  cerboLeaves : LeafMap := ∅
  cerboOwned : OwnedFields := OwnedFields.none
  controllerLastSeen : Option Time := none
  controllerLiveAt : Option Time := none
  waterModeObserved : WaterDevice → Option Time := fun _ => none
  overrideReceipt : ℕ := 0
  controllerESSMode : Option ESSMode := none
  controllerESSObserved : Option F64 := none
  nativeLastSeen : Option Time := none
  keepaliveStop : Bool := false
  keepaliveNeedsRefresh : Bool := false
  subscriptionsEnabled : Bool := false
  gatewayMode : Bool := false
  gatewayConnected : Bool := false
  gatewayPublish : Bool := false
  /-- `version.GetCurrent()`, which the build sets once. -/
  currentVersion : String := "dev"

/-! ## Availability flags -/

/-- `emptyAvailability`. -/
def emptyAvailability : StrMap Bool :=
  directFields.foldl (fun m f => m.insert f.jsonName false) ∅

namespace State

/-- `st.TelemetryAvailable[key]`; a missing flag is false. -/
def available (st : State) (key : String) : Bool :=
  ((st.field .telemetryAvailable).find key).getD false

/-- `st.TelemetryAvailable[key] = b`. -/
def setAvailable (st : State) (f : Field) (b : Bool) : Option State :=
  ((st.field .telemetryAvailable).write f.jsonName b).map (st.set .telemetryAvailable)

/-- Each of the members is cleared and its flag set. -/
def clearAll (b : Bool) : List Field → State → Option State
  | [], st => some st
  | f :: fs, st => do
    let st ← (clearStateField st f.jsonName).setAvailable f b
    clearAll b fs st

/-- What clearing a list of members does: `avail` says it of the flags, which are there after
it, and no other member changes. -/
structure ClearedBy (b : Bool) (fs : List Field) (st st' : State) : Prop where
  present : (st'.field .telemetryAvailable).isSome
  cleared : ∀ g, g ≠ .telemetryAvailable → g ∈ fs → st'.field g = g.type.cleared
  frame : ∀ g, g ≠ .telemetryAvailable → g ∉ fs → st'.field g = st.field g
  avail : ∀ g, (st'.field .telemetryAvailable).find g.jsonName =
    if g ∈ fs then some b else (st.field .telemetryAvailable).find g.jsonName
  avail_other : ∀ key, (∀ g ∈ fs, g.jsonName ≠ key) →
    (st'.field .telemetryAvailable).find key = (st.field .telemetryAvailable).find key
  native : st'.nativeESSObserved = st.nativeESSObserved

/-- A flag of a present map can be set, and nothing else changes. -/
theorem setAvailable_spec {st : State} (hst : (st.field .telemetryAvailable).isSome)
    (f : Field) (b : Bool) : ∃ st', st.setAvailable f b = some st' ∧
      (st'.field .telemetryAvailable).isSome ∧
      (∀ g, g ≠ .telemetryAvailable → st'.field g = st.field g) ∧
      (∀ key, (st'.field .telemetryAvailable).find key =
        if key = f.jsonName then some b else (st.field .telemetryAvailable).find key) ∧
      st'.nativeESSObserved = st.nativeESSObserved := by
  obtain ⟨m, hm⟩ := Option.isSome_iff_exists.mp hst
  refine ⟨st.set .telemetryAvailable (some (m.insert f.jsonName b)), ?_, ?_, ?_, ?_, rfl⟩
  · simp [setAvailable, hm]
  · simp
  · exact fun g hg => set_field_ne st hg _
  · intro key
    rw [set_field_self, GoMap.find_insert, hm]

/-- Clearing members other than the flags never panics on a present map.

**Proof sketch.** Induction on the list. Clearing `f` leaves the map alone because `f` is another
member, and the write keeps it present. -/
theorem clearAll_spec (b : Bool) (fs : List Field) (hfs : .telemetryAvailable ∉ fs)
    {st : State} (hst : (st.field .telemetryAvailable).isSome) :
    ∃ st', clearAll b fs st = some st' ∧ ClearedBy b fs st st' := by
  induction fs generalizing st with
  | nil =>
    exact ⟨st, rfl, hst, fun _ _ h => by simp at h, fun _ _ _ => rfl, fun _ => by simp,
      fun _ _ => rfl, rfl⟩
  | cons f fs ih =>
    obtain ⟨hf, hfs⟩ := not_or.mp (List.mem_cons.not.mp hfs)
    have hclear : clearStateField st f.jsonName = st.set f f.type.cleared :=
      clearStateField_jsonName st f
    have hpres : ((st.set f f.type.cleared).field .telemetryAvailable) =
        st.field .telemetryAvailable := set_field_ne st hf _
    obtain ⟨st₁, h₁, hp₁, hframe₁, hav₁, hn₁⟩ :=
      setAvailable_spec (hpres.symm ▸ hst) f b
    obtain ⟨st₂, h₂, hs⟩ := ih hfs hp₁
    refine ⟨st₂, ?_, hs.present, ?_, ?_, ?_, ?_, ?_⟩
    · rw [clearAll, hclear, h₁]
      exact h₂
    · intro g hg hmem
      by_cases hgfs : g ∈ fs
      · exact hs.cleared g hg hgfs
      · obtain rfl : g = f := (List.mem_cons.mp hmem).resolve_right hgfs
        rw [hs.frame g hg hgfs, hframe₁ g hg, set_field_self]
    · intro g hg hmem
      obtain ⟨hgf, hgfs⟩ := not_or.mp (List.mem_cons.not.mp hmem)
      rw [hs.frame g hg hgfs, hframe₁ g hg, set_field_ne st hgf]
    · intro g
      rw [hs.avail g, hav₁, hpres]
      by_cases hgf : g = f
      · simp [hgf]
      · have hne : g.jsonName ≠ f.jsonName := fun h => hgf (Field.jsonName_injective h)
        simp [hgf, hne]
    · intro key hkey
      rw [hs.avail_other key fun g hg => hkey g (List.mem_cons_of_mem _ hg), hav₁, hpres,
        if_neg fun h => hkey f List.mem_cons_self h.symm]
    · rw [hs.native, hn₁]
      rfl

end State

/-! ## The commit -/

namespace Client

/-- `options`. -/
def options (c : Client) : CerboOptions :=
  { tankInstance := c.tankInstance
    pumpInstance := c.pumpInstance
    valveInstance := c.valveInstance
    evInstance := c.evInstance
    evchargerInstance := c.evchargerInstance }

/-- The reducer's output for the current leaves. -/
def overlay (c : Client) : Overlay := cerboOverlay c.cerboLeaves c.options

/-- `initCerboMaps`: the flags are made when they are missing. The caches are never nil here. -/
def initCerboMaps (c : Client) : Client :=
  if (c.state.field .telemetryAvailable).isSome then c
  else { c with state := c.state.set .telemetryAvailable (some emptyAvailability) }

/-- Whether a `Hub4Mode` leaf was seen. -/
def hub4Seen (c : Client) : Bool :=
  c.cerboLeaves.keys.any fun l =>
    l.kind == .settings && hasSuffix (l.inst ++ "/" ++ l.path) "/Settings/CGwacs/Hub4Mode"

/-- The claims once the `Hub4Mode` leaf is accounted for. -/
def ownedWithHub4 (c : Client) : OwnedFields :=
  if c.hub4Seen then c.cerboOwned.claim .essMode (by decide) else c.cerboOwned

/-- The supported mode of the controller, which wins over the native one. -/
def selectableESSMode (c : Client) : Option ESSMode :=
  c.controllerESSMode.filter fun m => m.selectionSupported

/-- `json.Unmarshal` of the encoded output into the cleared members. A value that is not finite
makes `json.Marshal` fail, and then no output is decoded. -/
def decodeOutputs (st : State) (out : Overlay) : State :=
  if out.finite then { st with field := fun f => (out.val f).getD (st.field f) } else st

/-- The state with the given ESS mode, if there is one. -/
def installESSMode (st : State) : Option ESSMode → State
  | some mode => st.set .essMode mode
  | none => st

/-- `applyCerboOverlays`. -/
def applyCerboOverlays (c : Client) : Option Client := do
  let c := c.initCerboMaps
  let out := c.overlay
  let owned := c.ownedWithHub4
  let st := { c.state with nativeESSObserved := owned.has .essMode }
  let st ← st.clearAll false (Field.all.filter fun f => owned.has f && (out.val f).isNone)
  let st ← st.clearAll true (Field.all.filter fun f => (out.val f).isSome)
  let st := installESSMode (decodeOutputs st out) c.selectableESSMode
  return { c with cerboOwned := owned.claimOutputs c.cerboLeaves c.options, state := st }

theorem decodeOutputs_field (st : State) (out : Overlay) (f : Field) :
    (decodeOutputs st out).field f =
      if out.finite then (out.val f).getD (st.field f) else st.field f := by
  unfold decodeOutputs
  split_ifs <;> rfl

theorem decodeOutputs_native (st : State) (out : Overlay) :
    (decodeOutputs st out).nativeESSObserved = st.nativeESSObserved := by
  unfold decodeOutputs
  split_ifs <;> rfl

theorem installESSMode_field (st : State) (mode : Option ESSMode) {f : Field}
    (h : f = .essMode → mode = none) : (installESSMode st mode).field f = st.field f := by
  cases mode with
  | none => rfl
  | some mode => exact State.set_field_ne st (fun hf => by simpa using h hf) _

theorem installESSMode_native (st : State) (mode : Option ESSMode) :
    (installESSMode st mode).nativeESSObserved = st.nativeESSObserved := by
  cases mode <;> rfl

/-! ## What the commit does -/

/-- What `applyCerboOverlays` does. `frame` says that only the claims and the state change,
`field` and `avail` say how: an output is installed (cleared when the encoding failed), a claimed
member without an output is cleared, and everything else stays. -/
structure Overlaid (c c' : Client) : Prop where
  frame : c' = { c with cerboOwned := c'.cerboOwned, state := c'.state }
  owned : ∀ f, c'.cerboOwned.has f = (c.ownedWithHub4.has f || (c.overlay.val f).isSome)
  native : c'.state.nativeESSObserved = c.ownedWithHub4.has .essMode
  present : (c'.state.field .telemetryAvailable).isSome
  field : ∀ f, f ≠ .telemetryAvailable → (f = .essMode → c.selectableESSMode = none) →
    c'.state.field f =
      if c'.cerboOwned.has f then
        (if c.overlay.finite then (c.overlay.val f).getD f.type.cleared else f.type.cleared)
      else c.state.field f
  essMode : ∀ mode, c.selectableESSMode = some mode → c'.state.field .essMode = mode
  avail : ∀ f, c'.state.available f.jsonName =
    if c'.cerboOwned.has f then (c.overlay.val f).isSome else c.state.available f.jsonName
  avail_other : ∀ key, Field.ofName? key = none →
    c'.state.available key = c.state.available key

/-- The flags of `emptyAvailability` are all false. -/
theorem emptyAvailability_find (key : String) :
    (GoMap.find (some emptyAvailability) key).getD false = false := by
  have hfold : ∀ (fs : List Field) (m : StrMap Bool),
      (GoMap.find (some m) key).getD false = false →
      (GoMap.find (some (fs.foldl (fun m f => m.insert f.jsonName false) m)) key).getD false =
        false := by
    intro fs
    induction fs with
    | nil => exact fun m hm => hm
    | cons f fs ih =>
      intro m hm
      refine ih _ ?_
      rw [GoMap.find_insert]
      split_ifs
      · rfl
      · exact hm
  exact hfold directFields ∅ (by simp [GoMap.find])

/-- Making the flags adds none that is set and changes no other member. -/
theorem initCerboMaps_spec (c : Client) :
    c.initCerboMaps = { c with state := c.initCerboMaps.state } ∧
      (c.initCerboMaps.state.field .telemetryAvailable).isSome ∧
      (∀ f, f ≠ .telemetryAvailable → c.initCerboMaps.state.field f = c.state.field f) ∧
      (∀ key, c.initCerboMaps.state.available key = c.state.available key) ∧
      c.initCerboMaps.state.nativeESSObserved = c.state.nativeESSObserved := by
  unfold initCerboMaps
  split_ifs with h
  · exact ⟨rfl, h, fun _ _ => rfl, fun _ => rfl, rfl⟩
  · refine ⟨rfl, by simp, fun f hf => State.set_field_ne _ hf _, fun key => ?_, rfl⟩
    unfold State.available
    rw [State.set_field_self, emptyAvailability_find, Option.not_isSome_iff_eq_none.mp h]
    rfl

/-- The commit never panics.

**Proof sketch.** The flags are made first, and neither of the two clearing loops touches the map
itself, since only outputs of the reducer are claimed (`OwnedFields.direct`,
`cerboOverlay_val_eq_none`). The two loops visit disjoint members. -/
theorem applyCerboOverlays_spec (c : Client) :
    ∃ c', c.applyCerboOverlays = some c' ∧ Overlaid c c' := by
  obtain ⟨hinit, hpres, hfield, havail, -⟩ := c.initCerboMaps_spec
  have hleaves : c.initCerboMaps.cerboLeaves = c.cerboLeaves := by rw [hinit]
  have hout : c.initCerboMaps.overlay = c.overlay := by rw [hinit]; rfl
  have howned : c.initCerboMaps.ownedWithHub4 = c.ownedWithHub4 := by rw [hinit]; rfl
  have hsel : c.initCerboMaps.selectableESSMode = c.selectableESSMode := by rw [hinit]; rfl
  have hnone : c.overlay.val .telemetryAvailable = none :=
    cerboOverlay_val_eq_none _ _ (by decide)
  have hnotOwned : c.ownedWithHub4.has .telemetryAvailable = false := by
    by_contra h
    exact absurd (c.ownedWithHub4.direct _ (by simpa using h)) (by decide)
  have hpres₀ : (State.field { c.initCerboMaps.state with
      nativeESSObserved := c.ownedWithHub4.has .essMode } .telemetryAvailable).isSome := hpres
  obtain ⟨st₁, h₁, hs₁⟩ := State.clearAll_spec false
    (Field.all.filter fun f => c.ownedWithHub4.has f && (c.overlay.val f).isNone)
    (by simp [hnotOwned]) hpres₀
  obtain ⟨st₂, h₂, hs₂⟩ := State.clearAll_spec true
    (Field.all.filter fun f => (c.overlay.val f).isSome) (by simp [hnone]) hs₁.present
  have hmem₁ : ∀ f, f ∈ (Field.all.filter fun f =>
      c.ownedWithHub4.has f && (c.overlay.val f).isNone) ↔
      c.ownedWithHub4.has f = true ∧ c.overlay.val f = none := by
    simp [Field.mem_all]
  have hmem₂ : ∀ f, f ∈ (Field.all.filter fun f => (c.overlay.val f).isSome) ↔
      (c.overlay.val f).isSome := by
    simp [Field.mem_all]
  refine ⟨{ c.initCerboMaps with
    cerboOwned := c.ownedWithHub4.claimOutputs c.cerboLeaves c.options
    state := installESSMode (decodeOutputs st₂ c.overlay) c.selectableESSMode }, ?_, ?_⟩
  · simp only [applyCerboOverlays, hout, howned, hsel, hleaves, Option.bind_eq_bind, h₁, h₂,
      Option.bind_some, Option.pure_def]
    rw [hinit]
    rfl
  · have hfinal : ∀ f, f ≠ .telemetryAvailable → (f = .essMode → c.selectableESSMode = none) →
        (installESSMode (decodeOutputs st₂ c.overlay) c.selectableESSMode).field f =
          if c.ownedWithHub4.has f || (c.overlay.val f).isSome then
            (if c.overlay.finite then (c.overlay.val f).getD f.type.cleared
              else f.type.cleared)
          else c.state.field f := by
      intro f hf hess
      rw [installESSMode_field _ _ hess, decodeOutputs_field]
      cases hv : c.overlay.val f with
      | some v => rw [hs₂.cleared f hf ((hmem₂ f).mpr (by simp [hv]))]; simp
      | none =>
        rw [hs₂.frame f hf (fun h => by simpa [hv] using (hmem₂ f).mp h)]
        cases ho : c.ownedWithHub4.has f with
        | true => rw [hs₁.cleared f hf ((hmem₁ f).mpr ⟨ho, hv⟩)]; simp
        | false =>
          rw [hs₁.frame f hf (fun h => by simpa [ho] using ((hmem₁ f).mp h).1)]
          simpa using hfield f hf
    have hflags : (installESSMode (decodeOutputs st₂ c.overlay) c.selectableESSMode).field
        .telemetryAvailable = st₂.field .telemetryAvailable := by
      rw [installESSMode_field _ _ (fun h => by cases h), decodeOutputs_field, hnone]
      simp
    refine ⟨by rw [hinit], fun f => rfl, ?_, ?_, hfinal, ?_, ?_, ?_⟩
    · rw [installESSMode_native, decodeOutputs_native, hs₂.native, hs₁.native]
    · rw [hflags]
      exact hs₂.present
    · intro mode hmode
      rw [hmode]
      exact State.set_field_self _ _ _
    · intro f
      show _ = if (c.ownedWithHub4.has f || (c.overlay.val f).isSome) = true then _ else _
      rw [State.available, hflags, hs₂.avail, hs₁.avail, ← havail f.jsonName]
      simp only [hmem₁, hmem₂, State.available]
      cases hv : c.overlay.val f <;> cases ho : c.ownedWithHub4.has f <;> simp
    · intro key hkey
      have hne : ∀ g : Field, g.jsonName ≠ key := fun g hg => by
        rw [← hg, Field.ofName?_jsonName] at hkey
        cases hkey
      rw [State.available, hflags, hs₂.avail_other key fun g _ => hne g,
        hs₁.avail_other key fun g _ => hne g]
      exact havail key

/-! ## Consequences of a commit -/

namespace Overlaid

variable {c c' : Client} (h : Overlaid c c')
include h

/-- The leaves and the options are those from before. -/
theorem overlay_eq : c'.overlay = c.overlay := by
  rw [h.frame]
  rfl

/-- A claim is kept. -/
theorem owned_of_owned {f : Field} (hf : c.cerboOwned.has f = true) :
    c'.cerboOwned.has f = true := by
  rw [h.owned]
  unfold ownedWithHub4
  split_ifs <;> simp [OwnedFields.claim, hf]

/-- A member the reducer never outputs is not changed. -/
theorem field_of_not_direct {f : Field} (hf : f ∉ directFields) (htel : f ≠ .telemetryAvailable) :
    c'.state.field f = c.state.field f := by
  have hno : c'.cerboOwned.has f = false := by
    by_contra ho
    exact hf (c'.cerboOwned.direct f (by simpa using ho))
  have hess : f ≠ .essMode := fun h => hf (by rw [h]; decide)
  rw [h.field f htel fun h => absurd h hess, hno]
  rfl

/-- A flag that is set was set before or is that of an output. -/
theorem flags {key : String} (hk : c'.state.available key = true) :
    c.state.available key = true ∨ ∃ f ∈ directFields, f.jsonName = key := by
  cases hn : Field.ofName? key with
  | none => exact Or.inl (h.avail_other key hn ▸ hk)
  | some f =>
    obtain rfl := Field.ofName?_eq_some_iff.mp hn
    rw [h.avail f] at hk
    split_ifs at hk with ho
    · exact Or.inr ⟨f, c'.cerboOwned.direct f ho, rfl⟩
    · exact Or.inl hk

/-- The flag of a member that only native readings set is the flag of an output. -/
theorem output_of_available {f : Field}
    (hf : c.state.available f.jsonName = true → c.cerboOwned.has f = true)
    (hk : c'.state.available f.jsonName = true) :
    c'.cerboOwned.has f = true ∧ (c'.overlay.val f).isSome := by
  rw [h.avail f] at hk
  split_ifs at hk with ho
  · exact ⟨ho, h.overlay_eq ▸ hk⟩
  · exact absurd (h.owned_of_owned (hf hk)) ho

/-- The native flag implies the claim. -/
theorem owned_of_native (hn : c'.state.nativeESSObserved = true) :
    c'.cerboOwned.has .essMode = true := by
  rw [h.owned, ← h.native, hn, Bool.true_or]

/-- Without a supported mode of the controller, a supported mode of the state is an old one that
nothing native claims. -/
theorem essMode_of_supported (hsel : c.selectableESSMode = none)
    (hs : (c'.state.field .essMode).selectionSupported = true) :
    c'.cerboOwned.has .essMode = false ∧ c'.state.field .essMode = c.state.field .essMode := by
  have hfield := h.field .essMode (by decide) fun _ => hsel
  cases ho : c'.cerboOwned.has .essMode with
  | false =>
    rw [ho] at hfield
    exact ⟨rfl, hfield⟩
  | true =>
    exfalso
    rw [ho, if_pos rfl] at hfield
    rw [hfield] at hs
    split_ifs at hs
    · cases hv : c.overlay.val .essMode with
      | none =>
        rw [hv] at hs
        cases hs
      | some m =>
        rw [hv, Option.getD_some, cerboOverlay_essMode hv] at hs
        cases hs
    · cases hs

end Overlaid

end Client

end Dashboard
