import InverterDashboard.HomeAssistant.Poll
import InverterDashboard.Lib.MapFill
import InverterDashboard.Mqtt.Client
import InverterDashboard.State.Encode

set_option relaxedAutoImplicit false
set_option autoImplicit false

/-!
# Merging the overlay into the state

`mergeStates` of `internal/websocket/handler.go`: the state as a map, with what Home Assistant says
about the keys it owns, or with its keys reset when it is disconnected. A nil map cannot be written
to, so the merge of a state that cannot be marshalled panics.

## Main definitions

* `Dashboard.HomeAssistant.mergeStates` — the merge, `none` for the panic.
* `Dashboard.HomeAssistant.KeepsOwned` — the members of the MQTT side are left alone.
* `Dashboard.HomeAssistant.Harmless` — the overlay agrees with the state on a key.

## Main results

* `Dashboard.HomeAssistant.lookup_mergeStates_connected`, `lookup_mergeStates_disconnected` — the
  merged map, key by key.
* `Dashboard.HomeAssistant.mergeStates_keepsOwned_iff` — when the MQTT side is left alone.
-/

namespace Dashboard

open Go

namespace HomeAssistant

/-! ## The merge -/

/-- `merged["booleans"].(map[string]interface{})`, or an empty map. -/
def booleansOf (m : StrMap Any) : StrMap Any :=
  (((m.lookup "booleans").bind Any.object?).getD []).foldl (fun b e => b.insert e.1 e.2) ∅

/-- `merged["booleans"] = booleans`, which the loops go on writing to. -/
def putBooleans (m booleans : StrMap Any) : StrMap Any :=
  m.insert "booleans" (.object (booleans.entries.map fun e => (e.1, e.2)))

/-- What of a connected overlay goes into the map. -/
def mergedField (key : String) (v : Any) : Option Any :=
  if v.isNil || isMQTTOwnedKey key then none else some v

/-- What of a connected overlay goes into the booleans. -/
def mergedBoolean (key : String) (v : Bool) : Option Any :=
  if isMQTTOwnedKey key then none else some (.bool v)

/-- The reset of one managed key. -/
def resetKey (r : StrMap Any × StrMap Any) (key : String) : StrMap Any × StrMap Any :=
  if isMQTTOwnedKey key then r
  else
    (r.1.insert key (.bool false),
      if (r.2.lookup key).isSome then r.2.insert key (.bool false) else r.2)

/-- `mergeStates`. -/
def mergeStates (st : State) (overlay : Overlay) (managedKeys : List String) :
    Option (StrMap Any) :=
  (stateToMap st).map fun m =>
    let merged := m.insert "ha_direct_connected" (.bool overlay.haDirectConnected)
    let booleans := booleansOf merged
    if overlay.haDirectConnected then
      putBooleans
        (MapFill.fill Sigma.fst (fun e => mergedField e.1 e.2)
          (overlay.additionalFields.getD ∅).entries merged)
        (MapFill.fill Sigma.fst (fun e => mergedBoolean e.1 e.2)
          (overlay.booleans.getD ∅).entries booleans)
    else
      let r := managedKeys.foldl resetKey (merged, booleans)
      putBooleans r.1 r.2

/-! ## Key by key -/

theorem booleansOf_insert {m : StrMap Any} {key : String} (h : key ≠ "booleans") (v : Any) :
    booleansOf (m.insert key v) = booleansOf m := by
  rw [booleansOf, AList.lookup_insert_ne h.symm, booleansOf]

/-- The booleans are read back as they were put. -/
theorem lookup_booleansOf_putBooleans (m b : StrMap Any) (key : String) :
    (booleansOf (putBooleans m b)).lookup key = b.lookup key := by
  have hfill : booleansOf (putBooleans m b) =
      MapFill.fill Sigma.fst (fun e => some e.2) b.entries ∅ := by
    rw [booleansOf, putBooleans, AList.lookup_insert]
    simp only [Option.bind_some, Any.object?, Option.getD_some, List.foldl_map]
    rfl
  rw [hfill, MapFill.lookup_fill_entries b (fun _ v => some v), AList.lookup_empty]
  simp

theorem lookup_putBooleans {m b : StrMap Any} {key : String} (h : key ≠ "booleans") :
    (putBooleans m b).lookup key = m.lookup key := AList.lookup_insert_ne h

/-- The reset, key by key. -/
theorem lookup_foldl_resetKey (keys : List String) (r : StrMap Any × StrMap Any) (key : String) :
    (keys.foldl resetKey r).1.lookup key =
      (if isMQTTOwnedKey key = false ∧ key ∈ keys then some (.bool false)
        else r.1.lookup key) ∧
    (isMQTTOwnedKey key = true → (keys.foldl resetKey r).2.lookup key = r.2.lookup key) := by
  induction keys generalizing r with
  | nil => simp
  | cons k keys ih =>
    obtain ⟨hfst, hsnd⟩ := ih (resetKey r k)
    rw [List.foldl_cons]
    have hstep : (resetKey r k).1.lookup key =
        (if isMQTTOwnedKey key = false ∧ key = k then some (.bool false) else r.1.lookup key) ∧
        (isMQTTOwnedKey key = true → (resetKey r k).2.lookup key = r.2.lookup key) := by
      unfold resetKey
      cases hk : isMQTTOwnedKey k with
      | true =>
        refine ⟨?_, fun _ => rfl⟩
        rw [if_pos rfl, if_neg]
        rintro ⟨hfree, rfl⟩
        exact absurd (hk.symm.trans hfree) (by decide)
      | false =>
        rw [if_neg (by decide)]
        by_cases heq : key = k
        · subst heq
          refine ⟨?_, fun howned => absurd (hk.symm.trans howned) (by decide)⟩
          rw [AList.lookup_insert, if_pos ⟨hk, rfl⟩]
        · refine ⟨?_, fun _ => ?_⟩
          · rw [AList.lookup_insert_ne heq, if_neg fun h => heq h.2]
          · simp only
            split_ifs
            · exact AList.lookup_insert_ne heq
            · rfl
    refine ⟨?_, fun howned => (hsnd howned).trans (hstep.2 howned)⟩
    rw [hfst, hstep.1]
    simp only [List.mem_cons]
    by_cases hfree : isMQTTOwnedKey key = false
    · by_cases hmem : key ∈ keys
      · simp [hfree, hmem]
      · simp [hfree, hmem]
    · simp [hfree]

section Merged

variable {st : State} {overlay : Overlay} {managedKeys : List String} {m merged : StrMap Any}

/-- **A connected overlay.** Under a key the merged map has what the overlay says when it says
something about a key of its own, and what the state says otherwise. -/
theorem lookup_mergeStates_connected (hm : stateToMap st = some m)
    (h : mergeStates st overlay managedKeys = some merged) (hc : overlay.haDirectConnected = true) :
    (∀ key, key ≠ "booleans" → key ≠ "ha_direct_connected" → merged.lookup key =
      ((overlay.additionalFields.find key).bind (mergedField key)).or (m.lookup key)) ∧
    ∀ key, (booleansOf merged).lookup key =
      ((overlay.booleans.find key).bind (mergedBoolean key)).or ((booleansOf m).lookup key) := by
  have hfind : ∀ {α : Type} (g : GoMap α) (key : String),
      (g.getD ∅).lookup key = g.find key := by
    intro α g key
    cases g <;> rfl
  simp only [mergeStates, hm, Option.map_some, Option.some.injEq] at h
  rw [if_pos hc] at h
  subst h
  refine ⟨fun key hb hd => ?_, fun key => ?_⟩
  · rw [lookup_putBooleans hb, MapFill.lookup_fill_entries _ mergedField, hfind,
      AList.lookup_insert_ne hd]
  · rw [lookup_booleansOf_putBooleans, MapFill.lookup_fill_entries _ mergedBoolean, hfind,
      booleansOf_insert (by decide)]

/-- **A disconnected overlay.** Under a managed key that Home Assistant owns the merged map has
false, and what the state says otherwise. -/
theorem lookup_mergeStates_disconnected (hm : stateToMap st = some m)
    (h : mergeStates st overlay managedKeys = some merged)
    (hc : overlay.haDirectConnected = false) :
    (∀ key, key ≠ "booleans" → key ≠ "ha_direct_connected" → merged.lookup key =
      if isMQTTOwnedKey key = false ∧ key ∈ managedKeys then some (.bool false)
        else m.lookup key) ∧
    ∀ key, isMQTTOwnedKey key = true →
      (booleansOf merged).lookup key = (booleansOf m).lookup key := by
  simp only [mergeStates, hm, Option.map_some, Option.some.injEq] at h
  rw [if_neg (by simp [hc])] at h
  subst h
  refine ⟨fun key hb hd => ?_, fun key howned => ?_⟩
  · rw [lookup_putBooleans hb, (lookup_foldl_resetKey _ _ key).1, AList.lookup_insert_ne hd]
  · rw [lookup_booleansOf_putBooleans, (lookup_foldl_resetKey _ _ key).2 howned,
      booleansOf_insert (by decide)]

/-- Under a key of the MQTT side the merged map has what the state says. -/
theorem lookup_mergeStates_of_owned (hm : stateToMap st = some m)
    (h : mergeStates st overlay managedKeys = some merged) {key : String}
    (howned : isMQTTOwnedKey key = true) :
    (key ≠ "booleans" → key ≠ "ha_direct_connected" → merged.lookup key = m.lookup key) ∧
      (booleansOf merged).lookup key = (booleansOf m).lookup key := by
  have hnone : ∀ o : Option Any, o.bind (mergedField key) = none := by
    intro o
    cases o <;> simp [mergedField, howned]
  have hnone' : ∀ o : Option Bool, o.bind (mergedBoolean key) = none := by
    intro o
    cases o <;> simp [mergedBoolean, howned]
  cases hc : overlay.haDirectConnected with
  | true =>
    obtain ⟨hfst, hsnd⟩ := lookup_mergeStates_connected hm h hc
    refine ⟨fun hb hd => ?_, ?_⟩
    · rw [hfst key hb hd, hnone, Option.none_or]
    · rw [hsnd key, hnone', Option.none_or]
  | false =>
    obtain ⟨hfst, hsnd⟩ := lookup_mergeStates_disconnected hm h hc
    refine ⟨fun hb hd => ?_, hsnd key howned⟩
    rw [hfst key hb hd, if_neg]
    rintro ⟨hfree, -⟩
    exact absurd (howned.symm.trans hfree) (by decide)

end Merged

/-! ## The MQTT side -/

/-- The members of the MQTT side: those of Cerbo and those of the controller, apart from the two
maps that are merged on their own. -/
def mqttMembers : List Field :=
  (directFields ++ controllerFields).filter fun f => f != .uiConfig && f != .booleans

/-- The members of the grid loss, which `IsMQTTOwnedKey` does not list. -/
def gridLossMembers : List Field :=
  [.gridLossState, .gridLossHoldSeconds, .gridLossElapsed, .gridLossRemaining,
    .gridLossZeroApplied]

/-- Every other member of the MQTT side is listed. -/
theorem owned_of_mem_mqttMembers : ∀ f ∈ mqttMembers, f ∉ gridLossMembers →
    isMQTTOwnedKey f.jsonName = true := by
  decide +kernel

/-- The merge leaves the members of the MQTT side and the control flags alone. -/
def KeepsOwned (st : State) (overlay : Overlay) (managedKeys : List String) : Prop :=
  ∃ m merged, stateToMap st = some m ∧ mergeStates st overlay managedKeys = some merged ∧
    (∀ f ∈ mqttMembers, merged.lookup f.jsonName = m.lookup f.jsonName) ∧
    ∀ key, isControlFlag key = true →
      (booleansOf merged).lookup key = (booleansOf m).lookup key

/-- The overlay says nothing else about a key than the state. -/
def Harmless (m : StrMap Any) (overlay : Overlay) (managedKeys : List String) (key : String) :
    Prop :=
  if overlay.haDirectConnected then
    ∀ v, overlay.additionalFields.find key = some v → v.isNil = false → m.lookup key = some v
  else key ∈ managedKeys → m.lookup key = some (.bool false)

/-- A key that is not listed keeps its value exactly if the overlay is harmless for it. -/
theorem lookup_mergeStates_eq_iff {st : State} {overlay : Overlay} {managedKeys : List String}
    {m merged : StrMap Any} (hm : stateToMap st = some m)
    (h : mergeStates st overlay managedKeys = some merged) {key : String}
    (hfree : isMQTTOwnedKey key = false) (hb : key ≠ "booleans")
    (hd : key ≠ "ha_direct_connected") :
    merged.lookup key = m.lookup key ↔ Harmless m overlay managedKeys key := by
  unfold Harmless
  cases hc : overlay.haDirectConnected with
  | true =>
    rw [if_pos rfl, (lookup_mergeStates_connected hm h hc).1 key hb hd]
    cases overlay.additionalFields.find key with
    | none => simp
    | some v =>
      cases hnil : v.isNil with
      | true => simp [mergedField, hnil]
      | false =>
        simp only [mergedField, hnil, hfree, Bool.or_self, Bool.false_eq_true, if_false,
          Option.bind_some, Option.some_or, Option.some.injEq, forall_eq']
        exact ⟨fun heq _ => heq.symm, fun heq => (heq trivial).symm⟩
  | false =>
    rw [if_neg (by decide), (lookup_mergeStates_disconnected hm h hc).1 key hb hd]
    by_cases hmem : key ∈ managedKeys
    · simp only [hfree, hmem, and_self, if_true, true_imp_iff]
      exact eq_comm
    · simp [hmem]

/-- **The MQTT side under an overlay.** The merge leaves the members of the MQTT side and the
control flags alone exactly if the state can be marshalled and the overlay is harmless for the
members of the grid loss.

**Proof sketch.** Every other member and every control flag is a key of the MQTT side, which no loop
of the merge writes to. -/
theorem mergeStates_keepsOwned_iff (st : State) (overlay : Overlay) (managedKeys : List String) :
    KeepsOwned st overlay managedKeys ↔
      ∃ m, stateToMap st = some m ∧
        ∀ f ∈ gridLossMembers, Harmless m overlay managedKeys f.jsonName := by
  have hloss : ∀ f ∈ gridLossMembers, f ∈ mqttMembers ∧ isMQTTOwnedKey f.jsonName = false := by
    decide +kernel
  have hnames : ∀ f ∈ mqttMembers, f.jsonName ≠ "booleans" ∧
      f.jsonName ≠ "ha_direct_connected" := by
    decide +kernel
  constructor
  · rintro ⟨m, merged, hm, hmerged, hkeep, -⟩
    refine ⟨m, hm, fun f hf => ?_⟩
    obtain ⟨hmem, hfree⟩ := hloss f hf
    obtain ⟨hb, hd⟩ := hnames f hmem
    exact (lookup_mergeStates_eq_iff hm hmerged hfree hb hd).mp (hkeep f hmem)
  · rintro ⟨m, hm, hharmless⟩
    obtain ⟨merged, hmerged⟩ : ∃ merged, mergeStates st overlay managedKeys = some merged := by
      rw [mergeStates, hm]
      exact ⟨_, rfl⟩
    refine ⟨m, merged, hm, hmerged, fun f hf => ?_, fun key hflag => ?_⟩
    · obtain ⟨hb, hd⟩ := hnames f hf
      by_cases hmem : f ∈ gridLossMembers
      · exact (lookup_mergeStates_eq_iff hm hmerged (hloss f hmem).2 hb hd).mpr (hharmless f hmem)
      · exact (lookup_mergeStates_of_owned hm hmerged (owned_of_mem_mqttMembers f hf hmem)).1 hb hd
    · refine (lookup_mergeStates_of_owned hm hmerged ?_).2
      rw [isMQTTOwnedKey, hflag]
      rfl

/-- A client with a sensor under the name of a member of the grid loss. -/
def mirrorClient : Client :=
  newClient { sensorEntities := [("grid_loss_elapsed", "sensor.old_elapsed")] } true

/-- The overlay of a poll that finds the sensor at five. -/
def mirrorOverlay : Overlay :=
  fetchStatesOnce mirrorClient [] [("grid_loss_elapsed", "sensor.old_elapsed")] []
    fun _ => (some { entityID := "sensor.old_elapsed", state := "5" }, 1)

/-- The state does not know how long the grid has been lost, and the merged map says five
seconds. -/
theorem not_keepsOwned_gridLossElapsed :
    mirrorClient.Ordered [] [("grid_loss_elapsed", "sensor.old_elapsed")] [] ∧
      ¬ KeepsOwned .zero mirrorOverlay mirrorClient.getManagedKeys := by
  refine ⟨by decide +kernel, ?_⟩
  rintro ⟨m, merged, hm, hmerged, hkeep, -⟩
  have hharmless := (lookup_mergeStates_eq_iff hm hmerged (by decide) (by decide)
    (by decide)).mp (hkeep .gridLossElapsed (by decide))
  have hvalue : (mirrorOverlay.additionalFields.find (Field.jsonName .gridLossElapsed)).any
      (fun v => !v.isNil) = true := by decide +kernel
  obtain ⟨v, hv, hnil⟩ := (Option.any_eq_true _ _).mp hvalue
  have hlook := hharmless v hv (by simpa using hnil)
  -- the member is nil in the state
  rw [lookup_stateToMap hm, if_neg (by decide)] at hlook
  obtain rfl := Option.some.inj hlook
  cases hnil

end HomeAssistant

end Dashboard
