import InverterDashboard.HomeAssistant.Entity

set_option relaxedAutoImplicit false
set_option autoImplicit false

/-!
# Polling Home Assistant

`FetchStatesOnce` of `internal/homeassistant/client.go`: one request for each configured entity that
Home Assistant owns, in the order of the lists and in any order within a map. A request may fail. A
poll collects the overlay and, beside it, when it has seen an entity in a usable state and which
bounds the number entities reported. Times are readings of the monotonic clock in nanoseconds.

## Main definitions

* `Dashboard.HomeAssistant.Overlay` — what a poll returns.
* `Dashboard.HomeAssistant.FetchSlot`, `Client.slots` — the requests.
* `Dashboard.HomeAssistant.Poll`, `Poll.fetch` — a poll and its next request.
* `Dashboard.HomeAssistant.Poll.ranges`, `Poll.overlay` — what a finished poll commits and returns.
* `Dashboard.HomeAssistant.fetchStatesOnce` — a whole poll.

## Main results

* `Dashboard.HomeAssistant.Poll.sound_fetch` — observations and bounds come from responses.
* `Dashboard.HomeAssistant.owned_fetchStatesOnce` — an overlay has no key of the MQTT side.
-/

namespace Dashboard

open Go

namespace HomeAssistant

/-- `Overlay`. -/
structure Overlay where
  booleans : GoMap Bool := none
  haDirectConnected : Bool := false
  additionalFields : GoMap Any := none

/-! ## Requests -/

/-- What a request is made for. -/
inductive FetchSlot where
  | boolean (key entity : String)
  | switch (key entity : String)
  | sensor (key entity : String)
  | appliance (key entity : String)
  | display (id : String)
  deriving DecidableEq

/-- The entity that is asked for. -/
def FetchSlot.entity : FetchSlot → String
  | .boolean _ entity | .switch _ entity | .sensor _ entity | .appliance _ entity => entity
  | .display id => id

/-- The key under which the answer is kept, apart from the displays. -/
def FetchSlot.key? : FetchSlot → Option String
  | .boolean key _ | .switch key _ | .sensor key _ | .appliance key _ => some key
  | .display _ => none

/-- The requests of a poll, for an order of each map. -/
def Client.slots (c : Client) (booleans sensors appliances : List (String × String)) :
    List FetchSlot :=
  let owned (es : List (String × String)) := es.filter fun e => haOwnsField e.1 e.2
  (owned booleans).map (fun e => .boolean e.1 e.2) ++
    (owned (c.switchEntities.map fun b => (b.stateKey, b.entity))).map
      (fun e => .switch e.1 e.2) ++
    (owned sensors).map (fun e => .sensor e.1 e.2) ++
    (owned appliances).map (fun e => .appliance e.1 e.2) ++
    ((c.filteredEntities.map filteredAll).getD []).map .display

/-- The order of the maps is left to the runtime. -/
def Client.Ordered (c : Client) (booleans sensors appliances : List (String × String)) : Prop :=
  booleans.Perm c.booleanEntities ∧ sensors.Perm c.sensorEntities ∧
    appliances.Perm c.applianceEntities

instance (c : Client) (bs ss as : List (String × String)) : Decidable (c.Ordered bs ss as) :=
  inferInstanceAs (Decidable (_ ∧ _))

/-- A path segment that `newAPIRequest` accepts. -/
def validSegment (segment : String) : Bool :=
  !(["", ".", ".."].contains segment) && segment.toList.all fun c => c != '/' && c != '\\'

/-- The keyed requests are for entities that Home Assistant owns. -/
theorem not_owned_of_mem_slots {c : Client} {bs ss as : List (String × String)} {slot : FetchSlot}
    {key : String} (h : slot ∈ c.slots bs ss as) (hkey : slot.key? = some key) :
    isMQTTOwnedKey key = false := by
  have howned : ∀ (es : List (String × String)) (e : String × String),
      e ∈ es.filter (fun e => haOwnsField e.1 e.2) → isMQTTOwnedKey e.1 = false := by
    intro es e he
    have := (List.mem_filter.mp he).2
    simp only [haOwnsField, Bool.and_eq_true, Bool.not_eq_true'] at this
    exact this.1
  simp only [Client.slots, List.mem_append, List.mem_map] at h
  rcases h with ((((⟨e, he, rfl⟩ | ⟨e, he, rfl⟩) | ⟨e, he, rfl⟩) | ⟨e, he, rfl⟩) | ⟨id, -, rfl⟩)
  · exact Option.some.inj hkey ▸ howned _ e he
  · exact Option.some.inj hkey ▸ howned _ e he
  · exact Option.some.inj hkey ▸ howned _ e he
  · exact Option.some.inj hkey ▸ howned _ e he
  · cases hkey

/-! ## A poll -/

/-- A successful answer, and when it came. -/
structure Response where
  entity : String
  doc : EntityState
  time : ℕ

/-- A state in which an entity counts as observed. -/
def usable (entity state : String) : Bool :=
  state != "" && state != "unavailable" &&
    (state != "unknown" || hasPrefix entity "scene." || hasPrefix entity "button.")

/-- A poll under way, with the answers it got so far, the latest first. -/
structure Poll where
  booleans : StrMap Bool := ∅
  additional : StrMap Any := ∅
  observed : StrMap ℕ := ∅
  docs : StrMap EntityState := ∅
  hadResponse : Bool := false
  responses : List Response := []

namespace Poll

/-- `fetchDoc`, on an answer. -/
def fetchDoc (p : Poll) (entity : String) (doc : EntityState) (now : ℕ) : Poll :=
  { p with
    hadResponse := true
    observed := if usable entity doc.state then p.observed.insert entity now else p.observed
    responses := ⟨entity, doc, now⟩ :: p.responses }

/-- An answer is kept for what it was asked for. -/
def keep (p : Poll) (doc : EntityState) : FetchSlot → Poll
  | .boolean key _ =>
    match homeSwitchState doc.state with
    | .bool b => { p with booleans := p.booleans.insert key b }
    | _ => p
  | .switch key _ => { p with additional := p.additional.insert key (homeSwitchState doc.state) }
  | .sensor key _ =>
    { p with
      additional := p.additional.insert key
        ((parseFiniteNumber doc.state).elim .nil Any.float64) }
  | .appliance key entity =>
    { p with additional := p.additional.insert key (parseApplianceField key entity doc.state) }
  | .display id =>
    if (p.observed.lookup id).isSome then { p with docs := p.docs.insert id doc } else p

/-- The next request of `FetchStatesOnce`: `answer` is the outcome of `getEntityDoc`. -/
def fetch (p : Poll) (slot : FetchSlot) (answer : Option EntityState) (now : ℕ) : Poll :=
  match answer.filter fun _ => validSegment slot.entity with
  | some doc => (p.fetchDoc slot.entity doc now).keep doc slot
  | none =>
    match slot with
    | .switch key _ => { p with additional := p.additional.insert key .nil }
    | _ => p

/-- The bounds of the configured number entities. -/
def ranges (p : Poll) (c : Client) : StrMap (F64 × F64) :=
  ((c.filteredEntities.map FilteredEntityConfig.numbers).getD []).foldl
    (fun m id => (((p.docs.lookup id).bind numberBounds).elim m fun b => m.insert id b)) ∅

/-- The returned overlay. -/
def overlay (p : Poll) (c : Client) : Overlay where
  booleans := some p.booleans
  haDirectConnected := p.hadResponse
  additionalFields := some
    (match c.filteredEntities.filter fun f => !filteredEmpty (some f) with
      | some f => p.additional.insert "ha_filtered" (buildFilteredDisplays p.docs.lookup f)
      | none => p.additional)

end Poll

/-- `FetchStatesOnce`, for an order of each map and the answer to each request. -/
def fetchStatesOnce (c : Client) (booleans sensors appliances : List (String × String))
    (answers : ℕ → Option EntityState × ℕ) : Overlay :=
  if c.isDirectMode then
    ((c.slots booleans sensors appliances).zipIdx.foldl
      (fun p e => p.fetch e.1 (answers e.2).1 (answers e.2).2) ({} : Poll)).overlay c
  else { booleans := some ∅ }

/-! ## What a poll keeps -/

namespace Poll

/-- Observations and documents come from responses of the poll. -/
structure Sound (p : Poll) : Prop where
  observed : ∀ entity t, p.observed.lookup entity = some t →
    ∃ r ∈ p.responses, r.entity = entity ∧ usable entity r.doc.state = true ∧ r.time = t
  docs : ∀ id doc, p.docs.lookup id = some doc → ∃ r ∈ p.responses, r.entity = id ∧ r.doc = doc

theorem sound_empty : Sound {} where
  observed _ _ h := by simp at h
  docs _ _ h := by simp at h

/-- A response is added. -/
theorem sound_fetchDoc {p : Poll} (h : p.Sound) (entity : String) (doc : EntityState) (now : ℕ) :
    (p.fetchDoc entity doc now).Sound where
  observed e t he := by
    simp only [fetchDoc] at he ⊢
    have hold : p.observed.lookup e = some t → ∃ r ∈ ⟨entity, doc, now⟩ :: p.responses,
        r.entity = e ∧ usable e r.doc.state = true ∧ r.time = t := by
      intro hlook
      obtain ⟨r, hr, hrest⟩ := h.observed e t hlook
      exact ⟨r, List.mem_cons_of_mem _ hr, hrest⟩
    split_ifs at he with hus
    · by_cases heq : e = entity
      · subst heq
        rw [AList.lookup_insert, Option.some.injEq] at he
        exact ⟨_, List.mem_cons_self, rfl, hus, he⟩
      · rw [AList.lookup_insert_ne heq] at he
        exact hold he
    · exact hold he
  docs id d hd := by
    obtain ⟨r, hr, hrest⟩ := h.docs id d hd
    exact ⟨r, List.mem_cons_of_mem _ hr, hrest⟩

/-- **Observations.** The next request keeps the poll sound.

**Proof sketch.** A document is kept for a display only, and it is that of the newest response. -/
theorem sound_fetch {p : Poll} (h : p.Sound) (slot : FetchSlot) (answer : Option EntityState)
    (now : ℕ) : (p.fetch slot answer now).Sound := by
  unfold fetch
  cases answer.filter fun _ => validSegment slot.entity with
  | none => cases slot <;> exact ⟨h.observed, h.docs⟩
  | some doc =>
    have hs := sound_fetchDoc h slot.entity doc now
    cases slot with
    | boolean key entity =>
      simp only [keep]
      split <;> exact ⟨hs.observed, hs.docs⟩
    | switch key entity | sensor key entity | appliance key entity =>
      exact ⟨hs.observed, hs.docs⟩
    | display id =>
      simp only [keep]
      split_ifs
      · refine ⟨hs.observed, fun id' d hd => ?_⟩
        by_cases heq : id' = id
        · subst heq
          rw [AList.lookup_insert, Option.some.injEq] at hd
          exact ⟨_, List.mem_cons_self, rfl, hd⟩
        · rw [AList.lookup_insert_ne heq] at hd
          exact hs.docs id' d hd
      · exact hs

/-- A recorded range is that of a document of the poll. -/
theorem docs_of_ranges {p : Poll} {c : Client} {id : String} {b : F64 × F64}
    (h : (p.ranges c).lookup id = some b) :
    ∃ doc, p.docs.lookup id = some doc ∧ numberBounds doc = some b := by
  have hfold : ∀ (ids : List String) (m : StrMap (F64 × F64)),
      (ids.foldl (fun m id => (((p.docs.lookup id).bind numberBounds).elim m
        fun b => m.insert id b)) m).lookup id = some b →
      m.lookup id = some b ∨ ∃ doc, p.docs.lookup id = some doc ∧ numberBounds doc = some b := by
    intro ids
    induction ids with
    | nil => exact fun _ h => Or.inl h
    | cons i ids ih =>
      intro m hm
      rw [List.foldl_cons] at hm
      rcases ih _ hm with hm' | hdoc
      · cases hb : (p.docs.lookup i).bind numberBounds with
        | none =>
          rw [hb] at hm'
          exact Or.inl hm'
        | some b' =>
          rw [hb] at hm'
          by_cases heq : id = i
          · subst heq
            rw [Option.elim_some, AList.lookup_insert] at hm'
            obtain ⟨doc, hdoc, hbounds⟩ := Option.bind_eq_some_iff.mp hb
            exact Or.inr ⟨doc, hdoc, hbounds.trans hm'⟩
          · rw [Option.elim_some, AList.lookup_insert_ne heq] at hm'
            exact Or.inl hm'
      · exact Or.inr hdoc
  rcases hfold _ _ h with hempty | hdoc
  · rw [AList.lookup_empty] at hempty
    cases hempty
  · exact hdoc

/-- No key of the MQTT side. -/
structure Owned (p : Poll) : Prop where
  booleans : ∀ key v, p.booleans.lookup key = some v → isMQTTOwnedKey key = false
  additional : ∀ key v, p.additional.lookup key = some v → isMQTTOwnedKey key = false

/-- A map that gets an entry under a key of Home Assistant. -/
theorem owned_insert {α : Type} {m : StrMap α} {key : String} {v : α}
    (hm : ∀ k w, m.lookup k = some w → isMQTTOwnedKey k = false)
    (hkey : isMQTTOwnedKey key = false) :
    ∀ k w, (m.insert key v).lookup k = some w → isMQTTOwnedKey k = false := by
  intro k w h
  by_cases heq : k = key
  · exact heq ▸ hkey
  · rw [AList.lookup_insert_ne heq] at h
    exact hm k w h

theorem owned_fetch {p : Poll} (h : p.Owned) {slot : FetchSlot}
    (hkey : ∀ key, slot.key? = some key → isMQTTOwnedKey key = false)
    (answer : Option EntityState) (now : ℕ) : (p.fetch slot answer now).Owned := by
  unfold fetch
  cases answer.filter fun _ => validSegment slot.entity with
  | none =>
    cases slot with
    | switch key entity => exact ⟨h.booleans, owned_insert h.additional (hkey key rfl)⟩
    | _ => exact h
  | some doc =>
    cases slot with
    | boolean key entity =>
      simp only [keep]
      split
      · exact ⟨owned_insert h.booleans (hkey key rfl), h.additional⟩
      · exact ⟨h.booleans, h.additional⟩
    | switch key entity | sensor key entity | appliance key entity =>
      exact ⟨h.booleans, owned_insert h.additional (hkey key rfl)⟩
    | display id =>
      simp only [keep]
      split <;> exact ⟨h.booleans, h.additional⟩

end Poll

/-- **Ownership of an overlay.** Whatever the entities are called and however the requests end, an
overlay has no key of the MQTT side. -/
theorem owned_fetchStatesOnce (c : Client) (bs ss as : List (String × String))
    (answers : ℕ → Option EntityState × ℕ) :
    (∀ key v, (fetchStatesOnce c bs ss as answers).booleans.find key = some v →
      isMQTTOwnedKey key = false) ∧
    ∀ key v, (fetchStatesOnce c bs ss as answers).additionalFields.find key = some v →
      isMQTTOwnedKey key = false := by
  unfold fetchStatesOnce
  split_ifs
  · have hfold : ∀ (es : List (FetchSlot × ℕ)) (p : Poll), p.Owned →
        (∀ e ∈ es, e.1 ∈ c.slots bs ss as) →
        (es.foldl (fun p e => p.fetch e.1 (answers e.2).1 (answers e.2).2) p).Owned := by
      intro es
      induction es with
      | nil => exact fun _ hp _ => hp
      | cons e es ih =>
        intro p hp hes
        refine ih _ (Poll.owned_fetch hp (fun key hkey => ?_) _ _) fun e' he' =>
          hes e' (List.mem_cons_of_mem _ he')
        exact not_owned_of_mem_slots (hes e List.mem_cons_self) hkey
    have hp := hfold (c.slots bs ss as).zipIdx {}
      ⟨fun _ _ h => by simp at h, fun _ _ h => by simp at h⟩ fun e he =>
        (List.mem_zipIdx he).2.2 ▸ List.getElem_mem _
    refine ⟨hp.booleans, fun key v h => ?_⟩
    simp only [Poll.overlay] at h
    split at h
    · exact Poll.owned_insert hp.additional (by decide) key v h
    · exact hp.additional key v h
  · exact ⟨fun _ _ h => by simp [GoMap.find] at h, fun _ _ h => by simp [GoMap.find] at h⟩

end HomeAssistant

end Dashboard
