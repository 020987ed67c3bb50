import InverterDashboard.Lan.System

set_option relaxedAutoImplicit false
set_option autoImplicit false

/-!
# Frames with keys of any spelling

The deny list in front of the merge compares keys exactly, while `json.Unmarshal` matches members
by case folding. A key that spells a member in another way passes the list and is decoded into the
member.

## Main definitions

* `Dashboard.respelled` — the values of a frame under inexact spellings of a member.
* `Dashboard.absorb` — the values decoded one after the other into a member.
* `Dashboard.Client.Completes` — the callback body returns, in whatever order the entries of the
  frame are visited.
* `Dashboard.Client.ServerOwned` — what a frame may do to the members the server owns.

## Main results

* `Dashboard.Client.mergeLoop_field_native` — the merge of a member of the native section.
* `Dashboard.Client.completes_iff` — when the callback body returns.
* `Dashboard.Client.serverOwned_iff` — when the members of the server are kept.
-/

namespace Dashboard

open Go

/-- The key selects the member but is not its name. -/
def respells (f : Field) (key : String) : Bool := matchField key == some f && key != f.jsonName

/-- The values of a frame under inexact spellings of a member, in the order of the visit. -/
def respelled (f : Field) (data : Frame) : List Any :=
  (data.filter fun e => respells f e.1).map Prod.snd

/-- The values decoded one after the other into a member. -/
def absorb (f : Field) (vs : List Any) (old : f.type.denote) : f.type.denote :=
  vs.foldl (fun v a => (f.type.decoder a v).1) old

theorem respells_iff {f : Field} {key : String} :
    respells f key = true ↔ foldName f.jsonName = foldName key ∧ key ≠ f.jsonName := by
  simp [respells, matchField_eq_some_iff]

/-- An inexact spelling is the name of no member. -/
theorem ofName?_of_respells {f : Field} {key : String} (h : respells f key = true) :
    Field.ofName? key = none := by
  obtain ⟨hfold, hne⟩ := respells_iff.mp h
  cases hn : Field.ofName? key with
  | none => rfl
  | some g =>
    have hg : g.jsonName = key := Field.ofName?_eq_some_iff.mp hn
    have hgf : f = g := Field.eq_of_foldName_eq (by rw [hfold, hg])
    exact absurd (hgf ▸ hg.symm) hne

namespace Client

/-- The deny list knows names of members only, apart from `telemetry`, which selects none. -/
theorem nativeSectionNames_ofName? : ∀ key ∈ nativeSectionNames,
    (Field.ofName? key).isSome ∨ matchField key = none := by
  decide +kernel

/-- An inexact spelling passes the deny list. -/
theorem skipsKey_of_respells (c : Client) {f : Field} {key : String}
    (h : respells f key = true) : c.skipsKey key = false := by
  have hno := ofName?_of_respells h
  have hmatch : matchField key = some f := matchField_eq_some_iff.mpr (respells_iff.mp h).1
  have hnative : isNativeSectionField key = false := by
    by_contra hk
    have hk : key ∈ nativeSectionNames := by simpa [isNativeSectionField] using hk
    rcases nativeSectionNames_ofName? key hk with hsome | hnone
    · rw [hno] at hsome
      cases hsome
    · rw [hmatch] at hnone
      cases hnone
  have htel : (key == "telemetry_available") = false := by
    rw [beq_eq_false_iff_ne]
    rintro rfl
    have : Field.ofName? "telemetry_available" = some .telemetryAvailable :=
      Field.ofName?_jsonName .telemetryAvailable
    rw [this] at hno
    cases hno
  rw [skipsKey, OwnedFields.hasName, hno, htel, hnative]
  rfl

/-! ## The merge of a denied member -/

/-- A member whose name is skipped takes what its inexact spellings carry. -/
theorem foldl_mergeEntry_respelled (c : Client) {f : Field}
    (hskip : c.skipsKey f.jsonName = true) (data : Frame) (acc : State × Frame) :
    (data.foldl c.mergeEntry acc).1.field f = absorb f (respelled f data) (acc.1.field f) := by
  induction data generalizing acc with
  | nil => rfl
  | cons e data ih =>
    rw [List.foldl_cons, ih]
    cases hr : respells f e.1 with
    | true =>
      have hmatch : matchField e.1 = some f := matchField_eq_some_iff.mpr (respells_iff.mp hr).1
      have hsplit : respelled f (e :: data) = e.2 :: respelled f data := by
        simp [respelled, hr]
      rw [hsplit, absorb, absorb, List.foldl_cons]
      unfold mergeEntry
      rw [c.skipsKey_of_respells hr]
      simp [State.unmarshalEntry, hmatch]
    | false =>
      have hsplit : respelled f (e :: data) = respelled f data := by simp [respelled, hr]
      rw [hsplit]
      congr 1
      unfold mergeEntry
      cases hs : c.skipsKey e.1 with
      | true => rfl
      | false =>
        refine State.unmarshalEntry_of_ne acc.1 e.2 fun hfold => ?_
        have hname : e.1 = f.jsonName := by
          by_contra hne
          rw [respells_iff.mpr ⟨hfold, hne⟩] at hr
          cases hr
        rw [hname, hskip] at hs
        cases hs

/-- The merge of a member of the native section. -/
theorem mergeLoop_field_native (c : Client) (data : Frame) {f : Field}
    (hskip : isNativeSectionField f.jsonName = true) (htel : f ≠ .telemetryAvailable) :
    (c.mergeLoop data).1.field f = absorb f (respelled f data) (c.state.field f) := by
  rw [mergeLoop, c.foldl_mergeEntry_respelled (by rw [skipsKey, hskip, Bool.or_true]),
    c.initCerboMaps_spec.2.2.1 f htel]

/-- The merge of the flags. -/
theorem mergeLoop_field_flags (c : Client) (data : Frame) :
    (c.mergeLoop data).1.field .telemetryAvailable =
      absorb .telemetryAvailable (respelled .telemetryAvailable data)
        (c.initCerboMaps.state.field .telemetryAvailable) := by
  rw [mergeLoop, c.foldl_mergeEntry_respelled]
  simp [skipsKey, Field.jsonName]

/-! ## When the callback returns -/

/-- Whether decoding an entry saves no error. -/
def fits (e : String × Any) : Bool := (matchField e.1).all fun f => f.type.accepts e.2

theorem unmarshalEntry_snd (st : State) (e : String × Any) :
    (st.unmarshalEntry e.1 e.2).2 = fits e := by
  unfold State.unmarshalEntry fits
  cases matchField e.1 with
  | none => rfl
  | some f => exact f.type.decoder_snd e.2 _

/-- The clean entries are those that pass the deny list and fit. -/
theorem foldl_mergeEntry_clean (c : Client) (data : Frame) (acc : State × Frame) :
    (data.foldl c.mergeEntry acc).2 =
      acc.2 ++ data.filter fun e => !c.skipsKey e.1 && fits e := by
  induction data generalizing acc with
  | nil => simp
  | cons e data ih =>
    rw [List.foldl_cons, ih]
    unfold mergeEntry
    cases hs : c.skipsKey e.1 with
    | true => simp [hs]
    | false =>
      have hfit := unmarshalEntry_snd acc.1 e
      cases hf : fits e with
      | true => simp [hs, hfit, hf]
      | false => simp [hs, hfit, hf]

/-- The frame has an entry for the member that passes the deny list, fits and is not null. -/
def CarriesReading (c : Client) (data : Frame) (f : Field) : Prop :=
  ∃ v, entry data f.jsonName = some v ∧ v.isNil = false ∧ c.skipsKey f.jsonName = false ∧
    f.type.accepts v = true

/-- The marked members are those with a reading. -/
theorem marks_mergeLoop_iff (c : Client) {data : Frame} (hn : (data.map Prod.fst).Nodup)
    (f : Field) : marks (c.mergeLoop data).2 f = true ↔ c.CarriesReading data f := by
  have hclean : (c.mergeLoop data).2 = data.filter fun e => !c.skipsKey e.1 && fits e := by
    rw [mergeLoop, foldl_mergeEntry_clean]
    rfl
  unfold marks CarriesReading
  rw [hclean, Option.any_eq_true]
  constructor
  · rintro ⟨v, hv, hnil⟩
    obtain ⟨hv, hp⟩ := (entry_filter hn _ _ _).mp hv
    refine ⟨v, hv, by simpa using hnil, ?_⟩
    simpa [fits] using hp
  · rintro ⟨v, hv, hnil, hs, hfit⟩
    exact ⟨v, (entry_filter hn _ _ _).mpr ⟨hv, by simp [fits, hs, hfit]⟩, by simp [hnil]⟩

/-- A frame writes a flag: that of a reading, or that of the ESS mode when it is not claimed. -/
def WritesFlags (c : Client) (data : Frame) : Prop :=
  c.cerboOwned.has .essMode = false ∨ ∃ f ∈ directFields, c.CarriesReading data f

/-- The part of `mergeDaemonState` behind the flags. -/
def finishMerge (c : Client) (data : Frame) (st : State) : Option Client :=
  (applyControllerSnapshot st data).bind fun st =>
    applyCerboOverlays { c with state := st.set .dashboardVersion c.currentVersion }

/-- Behind the flags nothing can fail. -/
theorem finishMerge_isSome (c : Client) (data : Frame) (st : State) :
    (c.finishMerge data st).isSome := by
  obtain ⟨st₁, h₁, -⟩ := applyControllerSnapshot_spec st data
  obtain ⟨c₁, hc₁, -⟩ :=
    applyCerboOverlays_spec { c with state := st₁.set .dashboardVersion c.currentVersion }
  rw [finishMerge, h₁, Option.bind_some, hc₁]
  rfl

theorem mergeDaemonState_eq (c : Client) (data : Frame) : c.mergeDaemonState data =
    (markAvailable (c.mergeLoop data).2 directFields (c.mergeLoop data).1).bind fun st =>
      (c.initCerboMaps.resetESSFlag st).bind (c.initCerboMaps.finishMerge data) := by
  simp only [mergeDaemonState, mergeEntry_initCerboMaps, Option.bind_eq_bind]
  rfl

/-- A merge returns when the flags are there after the loop, or none is written. -/
theorem mergeDaemonState_isSome_iff (c : Client) {data : Frame}
    (hn : (data.map Prod.fst).Nodup) : (c.mergeDaemonState data).isSome ↔
      ((c.mergeLoop data).1.field .telemetryAvailable).isSome ∨ ¬ c.WritesFlags data := by
  have howned : c.initCerboMaps.cerboOwned = c.cerboOwned := by rw [c.initCerboMaps_spec.1]
  have hrest := c.initCerboMaps.finishMerge_isSome data
  rw [mergeDaemonState_eq]
  cases hflags : (c.mergeLoop data).1.field .telemetryAvailable with
  | some m =>
    have hpres : ((c.mergeLoop data).1.field .telemetryAvailable).isSome := by
      rw [hflags]
      rfl
    obtain ⟨st₁, h₁, hp, -⟩ := markAvailable_spec (c.mergeLoop data).2 directFields hpres
    obtain ⟨st₂, h₂⟩ := c.initCerboMaps.resetESSFlag_isSome hp
    rw [h₁, Option.bind_some, h₂, Option.bind_some]
    simp [hrest]
  | none =>
    rw [markAvailable_of_none _ _ hflags]
    have hany : directFields.any (marks (c.mergeLoop data).2) = true ↔
        ∃ f ∈ directFields, c.CarriesReading data f := by
      simp [List.any_eq_true, c.marks_mergeLoop_iff hn]
    cases ha : directFields.any (marks (c.mergeLoop data).2) with
    | true =>
      have hw : c.WritesFlags data := Or.inr (hany.mp ha)
      simp [hw]
    | false =>
      have hnone : ¬ ∃ f ∈ directFields, c.CarriesReading data f := by
        rw [← hany, ha]
        exact Bool.false_ne_true
      simp only [Bool.false_eq_true, if_false, Option.bind_some, resetESSFlag, howned,
        WritesFlags, hnone, or_false]
      cases ho : c.cerboOwned.has .essMode with
      | true => simp [hrest]
      | false => simp [State.setAvailable, hflags]

/-! ### The order of the visit -/

/-- The frame has a null under an inexact spelling of `telemetry_available`. -/
def NilsFlags (data : Frame) : Prop :=
  ∃ e ∈ data, respells .telemetryAvailable e.1 = true ∧ e.2.isNil = true

theorem respelled_append (f : Field) (a b : Frame) :
    respelled f (a ++ b) = respelled f a ++ respelled f b := by
  simp [respelled]

/-- Without a null the flags stay there. -/
theorem absorb_flags_isSome {vs : List Any} (h : ∀ a ∈ vs, a.isNil = false) (m : GoMap Bool)
    (hm : m.isSome) : (absorb .telemetryAvailable vs m).isSome := by
  induction vs generalizing m with
  | nil => exact hm
  | cons a vs ih =>
    refine ih (fun b hb => h b (List.mem_cons_of_mem _ hb)) _ ?_
    have ha := h a List.mem_cons_self
    cases a with
    | nil => cases ha
    | object es => rfl
    | _ => exact hm

/-- In the order that visits it last, a null leaves no flags. -/
theorem exists_perm_flags_none (c : Client) {data : Frame} (h : NilsFlags data) :
    ∃ order : Frame, order.Perm data ∧
      (c.mergeLoop order).1.field .telemetryAvailable = none := by
  obtain ⟨⟨key, v⟩, he, hr, hv⟩ := h
  obtain ⟨l₁, l₂, rfl⟩ := List.append_of_mem he
  refine ⟨(l₁ ++ l₂) ++ [(key, v)], ?_, ?_⟩
  · refine (List.perm_append_singleton _ _).trans ?_
    exact List.perm_middle.symm
  · have hlast : respelled .telemetryAvailable [(key, v)] = [v] := by simp [respelled, hr]
    rw [mergeLoop_field_flags, respelled_append, hlast, absorb, List.foldl_append]
    cases v with
    | nil => rfl
    | _ => cases hv

/-- The callback body returns, in whatever order it visits the entries of the frame. -/
def Completes (c : Client) (payload : Payload) (retained : Bool) (session generation : ℕ)
    (override : Bool) (now : Time) : Prop :=
  ∀ data ∈ controllerFrame override payload, c.sourceCurrent generation session = true →
    ∀ order : Frame, order.Perm data → (c.commitController override order retained now).isSome

/-- A callback body that returns in every order returns in the order of the text. -/
theorem Completes.isSome {c : Client} {payload : Payload} {retained : Bool}
    {session generation : ℕ} {override : Bool} {now : Time}
    (h : c.Completes payload retained session generation override now) :
    (c.applyControllerMessage payload retained session generation override now).isSome := by
  unfold applyControllerMessage
  cases hd : controllerFrame override payload with
  | none => rfl
  | some data =>
    dsimp only
    split_ifs with hcur
    · rw [Option.isSome_map]
      exact h data hd hcur data (List.Perm.refl _)
    · rfl

/-- A decoded frame has every key once. -/
theorem decodeControllerState_nodup {payload : Payload} {data : Frame}
    (h : decodeControllerState payload = some data) : (data.map Prod.fst).Nodup := by
  match payload with
  | .empty | .json .null =>
    obtain rfl := Option.some.inj h
    exact List.nodup_nil
  | .json (.obj fs) =>
    simp only [decodeControllerState, Option.bind_eq_bind, Option.bind_eq_some_iff,
      Option.pure_def, Option.some.injEq] at h
    obtain ⟨values, -, rfl⟩ := h
    have hkeys : ((lastWins values).map fun e => if e.1 = "setpoint_override" then
        (e.1, ((entry fs.reverse e.1).map Json.useNumber).getD .nil) else e).map Prod.fst =
        (lastWins values).map Prod.fst := by
      rw [List.map_map]
      refine List.map_congr_left fun e _ => ?_
      simp only [Function.comp]
      split_ifs <;> rfl
    rw [hkeys]
    exact lastWins_nodup values

/-- The part of a commit before the merge does not reach the state. -/
theorem receiveState_initCerboMaps (c : Client) (data : Frame) (retained : Bool) (now : Time) :
    (c.receiveState data retained now).initCerboMaps.state = c.initCerboMaps.state := by
  have hstate : (c.receiveState data retained now).state = c.state := rfl
  unfold initCerboMaps
  rw [hstate]
  split_ifs <;> rfl

/-- The callback body returns unless a frame takes the flags away and writes one.

**Proof sketch.** With the null visited last the flags are gone after the loop
(`exists_perm_flags_none`), and the first write panics; which flags are written does not depend on
the order (`entry_eq_of_perm`). Without a null the flags stay, in every order. -/
theorem completes_iff (c : Client) (payload : Payload) (retained : Bool)
    (session generation : ℕ) (override : Bool) (now : Time) :
    c.Completes payload retained session generation override now ↔
      ¬ (override = false ∧ c.sourceCurrent generation session = true ∧
        ∃ data ∈ decodeControllerState payload, NilsFlags data ∧ c.WritesFlags data) := by
  have hcommit : ∀ order : Frame, (order.map Prod.fst).Nodup →
      ((c.commitState order retained now).isSome ↔
        ((c.mergeLoop order).1.field .telemetryAvailable).isSome ∨ ¬ c.WritesFlags order) := by
    intro order hn
    have hsome : (c.commitState order retained now).isSome ↔
        ((c.receiveState order retained now).mergeDaemonState order).isSome := by
      rw [commitState]
      cases (c.receiveState order retained now).mergeDaemonState order <;> rfl
    rw [hsome, mergeDaemonState_isSome_iff _ hn, mergeLoop_field_flags, mergeLoop_field_flags,
      receiveState_initCerboMaps]
    exact Iff.rfl
  have hwrites : ∀ {order data : Frame}, order.Perm data → (data.map Prod.fst).Nodup →
      (c.WritesFlags order ↔ c.WritesFlags data) := by
    intro order data hp hn
    unfold WritesFlags CarriesReading
    simp only [entry_eq_of_perm hp hn]
  cases override with
  | true =>
    simp only [Bool.true_eq_false, false_and, not_false_eq_true, iff_true]
    exact fun _ _ _ _ _ => rfl
  | false =>
    constructor
    · rintro hc ⟨-, hcur, data, hd, hnil, hw⟩
      have hn := decodeControllerState_nodup hd
      obtain ⟨order, hp, hnone⟩ := c.exists_perm_flags_none hnil
      have hsome := hc data hd hcur order hp
      rcases (hcommit order ((hp.map Prod.fst).nodup_iff.mpr hn)).mp hsome with h | h
      · rw [hnone] at h
        cases h
      · exact h ((hwrites hp hn).mpr hw)
    · intro hno data hd hcur order hp
      have hn := decodeControllerState_nodup hd
      refine (hcommit order ((hp.map Prod.fst).nodup_iff.mpr hn)).mpr ?_
      by_cases hw : c.WritesFlags data
      · left
        have hnil : ¬ NilsFlags data := fun h => hno ⟨rfl, hcur, data, hd, h, hw⟩
        rw [mergeLoop_field_flags]
        refine absorb_flags_isSome (fun a ha => ?_) _ c.initCerboMaps_spec.2.1
        obtain ⟨e, he, rfl⟩ := List.mem_map.mp ha
        obtain ⟨he, hr⟩ := List.mem_filter.mp he
        by_contra hv
        exact hnil ⟨e, hp.mem_iff.mp he, hr, by simpa using hv⟩
      · exact Or.inr fun h => hw ((hwrites hp hn).mp h)

/-- A null under an inexact spelling of the flags crashes a client that was just subscribed. -/
theorem crash_on_respelled_flags : ∃ s,
    Transition.Reachable (Lan.step Lan.noScalars) (fun _ _ => True) Lan.Init s ∧
      s.client.applyControllerMessage (.json (.obj [("Telemetry_Available", .null)])) false
        s.client.mqttSession s.client.pushGeneration false s.now = none := by
  obtain ⟨s, hs, hp⟩ := Transition.Reachable.exists_of_run (Lan.step Lan.noScalars)
    (fun _ _ => True) [.opened, .subscribe ⟨true, true⟩]
    (fun s => (s.client.applyControllerMessage (.json (.obj [("Telemetry_Available", .null)]))
      false s.client.mqttSession s.client.pushGeneration false s.now).isNone)
    Lan.init_configured (by decide +kernel) (by decide +kernel)
  exact ⟨s, hs, Option.isNone_iff_eq_none.mp hp⟩

/-! ## What a frame may do to the members of the server -/

/-- The telemetry members that the deny list names. -/
def deniedTelemetry : List Field := directFields.filter fun f => isNativeSectionField f.jsonName

/-- Whether native telemetry holds a member after the commit. -/
def claims (c : Client) (f : Field) : Bool := c.ownedWithHub4.has f || (c.overlay.val f).isSome

/-- A receipt of a frame is absent, as before, or the local time of this live frame. -/
def ReceiptKept (old new : Option F64) (retained : Bool) (now : Time) : Prop :=
  new = none ∨ new = old ∨ retained = false ∧ new = some (receiptSeconds now)

/-- The members the server owns, after a frame. -/
structure ServerOwned (c : Client) (data : Frame) (retained : Bool) (now : Time)
    (c' : Client) : Prop where
  overrideObserved : ReceiptKept (c.state.field .setpointOverrideObservedAt)
    (c'.state.field .setpointOverrideObservedAt) retained now
  tariffObserved : ReceiptKept (c.state.field .electricityTariffObservedAt)
    (c'.state.field .electricityTariffObservedAt) retained now
  essObserved : c'.state.field .essModeObservedAt = none ∨ c'.state.field .essModeObservedAt =
    (c.observeESSMode data retained now).controllerESSObserved
  override : c'.state.field .setpointOverride = c.state.field .setpointOverride ∨
    c'.state.field .setpointOverride = none ∨
    ∃ raw, entry data "setpoint_override" = some raw ∧
      c'.state.field .setpointOverride = parseOverrideStatus raw
  capabilities : c'.state.field .gatewayCapabilities = c.state.field .gatewayCapabilities
  telemetry : ∀ f ∈ deniedTelemetry, c'.state.field f = c.state.field f ∨
    c'.state.field f = f.type.cleared ∨ c.overlay.val f = some (c'.state.field f)

/-- What the inexact spellings of a frame decode to, member by member: nothing new, or nothing that
is left of it. -/
structure Harmless (c : Client) (data : Frame) (retained : Bool) (now : Time) : Prop where
  overrideObserved : entry data "setpoint_override" = none →
    ReceiptKept (c.state.field .setpointOverrideObservedAt)
      (absorb .setpointOverrideObservedAt (respelled .setpointOverrideObservedAt data)
        (c.state.field .setpointOverrideObservedAt)) retained now
  tariffObserved : entry data "ui_config" = none →
    ReceiptKept (c.state.field .electricityTariffObservedAt)
      (absorb .electricityTariffObservedAt (respelled .electricityTariffObservedAt data)
        (c.state.field .electricityTariffObservedAt)) retained now
  override : entry data "setpoint_override" = none →
    absorb .setpointOverride (respelled .setpointOverride data) (c.state.field .setpointOverride) =
        c.state.field .setpointOverride ∨
      absorb .setpointOverride (respelled .setpointOverride data)
        (c.state.field .setpointOverride) = none
  capabilities : absorb .gatewayCapabilities (respelled .gatewayCapabilities data)
    (c.state.field .gatewayCapabilities) = c.state.field .gatewayCapabilities
  telemetry : ∀ f ∈ deniedTelemetry, c.claims f = false →
    absorb f (respelled f data) (c.state.field f) = c.state.field f ∨
      absorb f (respelled f data) (c.state.field f) = f.type.cleared

/-- A frame without inexact spellings is harmless. -/
theorem harmless_of_respelled {c : Client} {data : Frame} {retained : Bool} {now : Time}
    (h : ∀ f ∈ [Field.setpointOverride, .setpointOverrideObservedAt, .electricityTariffObservedAt,
      .gatewayCapabilities] ++ deniedTelemetry, respelled f data = []) :
    c.Harmless data retained now := by
  have hsame : ∀ f ∈ [Field.setpointOverride, .setpointOverrideObservedAt,
      .electricityTariffObservedAt, .gatewayCapabilities] ++ deniedTelemetry,
      absorb f (respelled f data) (c.state.field f) = c.state.field f := by
    intro f hf
    rw [h f hf]
    rfl
  refine ⟨fun _ => ?_, fun _ => ?_, fun _ => ?_, ?_, fun f hf _ => ?_⟩
  · exact Or.inr (Or.inl (hsame _ (by decide)))
  · exact Or.inr (Or.inl (hsame _ (by decide)))
  · exact Or.inl (hsame _ (by decide))
  · exact hsame _ (by decide)
  · exact Or.inl (hsame f (List.mem_append_right _ hf))

/-- A denied member before the snapshot. -/
theorem Merged.field_of_native {c : Client} {data : Frame} {st₁ st₂ : State} {c' : Client}
    (h : Merged c data st₁ st₂ c') {f : Field} (hnat : isNativeSectionField f.jsonName = true)
    (htel : f ≠ .telemetryAvailable) :
    st₁.field f = absorb f (respelled f data) (c.state.field f) := by
  rw [h.loop f htel, mergeLoop_field_native c data hnat htel]

/-- The members of the server after the commit of a frame with keys of any spelling. -/
structure CommitFields (c : Client) (data : Frame) (retained : Bool) (now : Time)
    (c' : Client) : Prop where
  override : c'.state.field .setpointOverride = (carriedStatus data).getD
    (if data.isEmpty then none else absorb .setpointOverride (respelled .setpointOverride data)
      (c.state.field .setpointOverride))
  overrideObserved : c'.state.field .setpointOverrideObservedAt =
    match carriedStatus data with
    | some status => if status.isSome then receiptTime retained now else none
    | none => if data.isEmpty then none else
        absorb .setpointOverrideObservedAt (respelled .setpointOverrideObservedAt data)
          (c.state.field .setpointOverrideObservedAt)
  tariffObserved : c'.state.field .electricityTariffObservedAt =
    if (entry data "ui_config").isSome then receiptTime retained now
    else if data.isEmpty then none else
      absorb .electricityTariffObservedAt (respelled .electricityTariffObservedAt data)
        (c.state.field .electricityTariffObservedAt)
  essObserved : c'.state.field .essModeObservedAt =
    (c.observeESSMode data retained now).controllerESSObserved
  capabilities : c'.state.field .gatewayCapabilities =
    absorb .gatewayCapabilities (respelled .gatewayCapabilities data)
      (c.state.field .gatewayCapabilities)
  telemetry : ∀ f ∈ deniedTelemetry, c'.state.field f =
    if c.claims f then
      (if c.overlay.finite then (c.overlay.val f).getD f.type.cleared else f.type.cleared)
    else absorb f (respelled f data) (c.state.field f)

theorem commitFields_of_eq_some {c c' : Client} {data : Frame} {retained : Bool} {now : Time}
    (h : c.commitState data retained now = some c') : CommitFields c data retained now c' := by
  simp only [commitState, Option.bind_eq_bind, Option.bind_eq_some_iff, Option.pure_def,
    Option.some.injEq] at h
  obtain ⟨c₂, hmerge, rfl⟩ := h
  obtain ⟨st₁, st₂, hm⟩ := merged_of_eq_some _ hmerge
  have hfin := c₂.finishState_spec data retained now
  obtain ⟨c₃, hobs, -, hobs3⟩ := hfin.observed
  refine ⟨?_, ?_, ?_, ?_, ?_, ?_⟩
  · rw [hobs3 _ (by decide), hobs.override,
      hm.field_of_not_direct (by decide) (by decide) (by decide), hm.snapshot.override,
      hm.field_of_native (by decide) (by decide)]
    rfl
  · rw [hobs3 _ (by decide), hobs.overrideObserved,
      hm.field_of_not_direct (by decide) (by decide) (by decide), hm.snapshot.overrideObserved,
      hm.field_of_native (by decide) (by decide)]
    rfl
  · rw [hobs3 _ (by decide), hobs.tariffObserved,
      hm.field_of_not_direct (by decide) (by decide) (by decide), hm.snapshot.tariffObserved,
      hm.field_of_native (by decide) (by decide)]
    rfl
  · rw [hfin.essObserved, hm.overlaid.frame]
    rfl
  · rw [hfin.field _ (by decide), hm.field_of_not_direct (by decide) (by decide) (by decide),
      hm.snapshot.frame _ (by decide), hm.field_of_native (by decide) (by decide)]
    rfl
  · intro f hf
    obtain ⟨hdir, hnat⟩ := List.mem_filter.mp hf
    have hno : ∀ g ∈ deniedTelemetry, g ∉ snapshotFields ∧ g ≠ .telemetryAvailable ∧
        g ≠ .dashboardVersion ∧ g ≠ .essMode ∧ g ∉ [Field.setpointOverride,
        .setpointOverrideObservedAt, .electricityTariffObservedAt, .essModeObservedAt,
        .gridBackupObservedAt] := by decide
    obtain ⟨hsnap, htel, hver, hess, hlist⟩ := hno f hf
    have hclaims : c₂.cerboOwned.has f = c.claims f := hm.overlaid.owned f
    have hst₂ : (st₂.set .dashboardVersion (c.receiveState data retained now).currentVersion).field
        f = absorb f (respelled f data) (c.state.field f) := by
      rw [State.set_field_ne _ hver, hm.snapshot.frame f hsnap, hm.field_of_native hnat htel]
      rfl
    rw [hfin.field f hlist, hm.overlaid.field f htel fun h => absurd h hess, hclaims, hst₂]
    rfl

theorem receiptKept_receiptTime (old : Option F64) (retained : Bool) (now : Time) :
    ReceiptKept old (receiptTime retained now) retained now := by
  unfold receiptTime
  split_ifs with h
  · exact Or.inl rfl
  · exact Or.inr (Or.inr ⟨by simpa using h, rfl⟩)

/-- A receipt that a frame does not renew is kept exactly when its inexact spellings keep it. -/
theorem receiptKept_ite_iff {data : Frame} {old new absorbed : Option F64}
    (hnil : data = [] → absorbed = old) {retained : Bool} {now : Time}
    (h : new = if data.isEmpty then none else absorbed) :
    ReceiptKept old new retained now ↔ ReceiptKept old absorbed retained now := by
  by_cases hempty : data = []
  · rw [h, hnil hempty, hempty]
    exact ⟨fun _ => Or.inr (Or.inl rfl), fun _ => Or.inl rfl⟩
  · have hne : data.isEmpty = false := by simpa using hempty
    rw [h, hne]
    exact Iff.rfl

/-- A frame keeps the members of the server exactly when its inexact spellings are harmless.

**Proof sketch.** Member by member (`CommitFields`): an exact entry, an empty frame or a native
reading decides the member by itself; otherwise it is what the inexact spellings made of it. -/
theorem serverOwned_iff_harmless {c c' : Client} {data : Frame} {retained : Bool} {now : Time}
    (h : CommitFields c data retained now c') :
    ServerOwned c data retained now c' ↔ c.Harmless data retained now := by
  have hnil : ∀ f : Field, data = [] →
      absorb f (respelled f data) (c.state.field f) = c.state.field f := by
    rintro f rfl
    rfl
  have hoverride : ReceiptKept (c.state.field .setpointOverrideObservedAt)
      (c'.state.field .setpointOverrideObservedAt) retained now ↔
      (entry data "setpoint_override" = none → ReceiptKept
        (c.state.field .setpointOverrideObservedAt) (absorb .setpointOverrideObservedAt
          (respelled .setpointOverrideObservedAt data)
          (c.state.field .setpointOverrideObservedAt)) retained now) := by
    have hobs := h.overrideObserved
    cases he : entry data "setpoint_override" with
    | some raw =>
      refine ⟨fun _ h => (by cases h), fun _ => ?_⟩
      simp only [carriedStatus, he, Option.map_some] at hobs
      rw [hobs]
      split_ifs
      · exact receiptKept_receiptTime _ _ _
      · exact Or.inl rfl
    | none =>
      simp only [carriedStatus, he, Option.map_none] at hobs
      rw [receiptKept_ite_iff (hnil _) hobs]
      exact ⟨fun h _ => h, fun h => h rfl⟩
  have htariff : ReceiptKept (c.state.field .electricityTariffObservedAt)
      (c'.state.field .electricityTariffObservedAt) retained now ↔
      (entry data "ui_config" = none → ReceiptKept
        (c.state.field .electricityTariffObservedAt) (absorb .electricityTariffObservedAt
          (respelled .electricityTariffObservedAt data)
          (c.state.field .electricityTariffObservedAt)) retained now) := by
    have hobs := h.tariffObserved
    cases he : entry data "ui_config" with
    | some raw =>
      refine ⟨fun _ h => (by cases h), fun _ => ?_⟩
      rw [he, Option.isSome_some, if_pos rfl] at hobs
      rw [hobs]
      exact receiptKept_receiptTime _ _ _
    | none =>
      rw [he, Option.isSome_none, if_neg Bool.false_ne_true] at hobs
      rw [receiptKept_ite_iff (hnil _) hobs]
      exact ⟨fun h _ => h, fun h => h rfl⟩
  constructor
  · intro hs
    refine ⟨hoverride.mp hs.overrideObserved, htariff.mp hs.tariffObserved, fun he => ?_, ?_,
      fun f hf hclaims => ?_⟩
    · by_cases hempty : data = []
      · exact Or.inl (hnil _ hempty)
      · have hnew := h.override
        simp only [carriedStatus, he, Option.map_none, Option.getD_none, List.isEmpty_iff,
          if_neg hempty] at hnew
        rcases hs.override with hold | hnone | ⟨raw, hraw, -⟩
        · exact Or.inl (hnew ▸ hold)
        · exact Or.inr (hnew ▸ hnone)
        · rw [he] at hraw
          cases hraw
    · exact h.capabilities ▸ hs.capabilities
    · have hnew := h.telemetry f hf
      rw [hclaims, if_neg Bool.false_ne_true] at hnew
      have hno : c.overlay.val f = none := by
        have hclaims := (Bool.or_eq_false_iff.mp hclaims).2
        exact Option.not_isSome_iff_eq_none.mp (by rw [hclaims]; exact Bool.false_ne_true)
      rcases hs.telemetry f hf with hold | hclear | hov
      · exact Or.inl (hnew ▸ hold)
      · exact Or.inr (hnew ▸ hclear)
      · rw [hno] at hov
        cases hov
  · intro hh
    refine ⟨hoverride.mpr hh.overrideObserved, htariff.mpr hh.tariffObserved,
      Or.inr h.essObserved, ?_, by rw [h.capabilities, hh.capabilities], fun f hf => ?_⟩
    · rw [h.override]
      cases he : entry data "setpoint_override" with
      | some raw => exact Or.inr (Or.inr ⟨raw, rfl, by simp [carriedStatus, he]⟩)
      | none =>
        simp only [carriedStatus, he, Option.map_none, Option.getD_none]
        split_ifs
        · exact Or.inr (Or.inl rfl)
        · rcases hh.override he with hold | hnone
          · exact Or.inl hold
          · exact Or.inr (Or.inl hnone)
    · rw [h.telemetry f hf]
      cases hc : c.claims f with
      | true =>
        rw [if_pos rfl]
        cases hv : c.overlay.val f with
        | none =>
          rw [Option.getD_none, ite_self]
          exact Or.inr (Or.inl rfl)
        | some v =>
          split_ifs
          · exact Or.inr (Or.inr rfl)
          · exact Or.inr (Or.inl rfl)
      | false =>
        rw [if_neg Bool.false_ne_true]
        rcases hh.telemetry f hf hc with hold | hclear
        · exact Or.inl hold
        · exact Or.inr (Or.inl hclear)

end Client

end Dashboard
