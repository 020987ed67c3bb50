import InverterDashboard.HomeAssistant.Actions

set_option relaxedAutoImplicit false
set_option autoImplicit false

/-!
# The limits of number entities

A poll shows the number entities with bounds and records the bounds against which a requested value
is checked. Both are `numberBounds` of the same document. A bound that the document does not have
is zero, and two bounds that are zero become 0 and 100, also when the document has a maximum of
zero.

## Main definitions

* `Dashboard.HomeAssistant.numberDisplay`, `shownNumbers` — the number section of the displays.
* `Dashboard.HomeAssistant.EntityState.Within`, `Malformed` — the limits of a document.
* `Dashboard.HomeAssistant.EntityState.ZeroTop` — a maximum of zero that is taken for a missing one.
* `Dashboard.HomeAssistant.Poll.Honest` — what is shown and authorised respects the limits.

## Main results

* `Dashboard.HomeAssistant.Poll.lookup_ranges` — the recorded bounds.
* `Dashboard.HomeAssistant.numberBounds_within` — values between the bounds respect the limits.
* `Dashboard.HomeAssistant.Poll.honest_polled_iff` — a poll is honest if no configured number has a
  maximum of zero that is taken for a missing one, and only then.
* `Dashboard.HomeAssistant.Home.within_of_reachable` — authorised values, in every run.
-/

namespace Dashboard

open Go

namespace HomeAssistant

/-! ## The number section -/

/-- The body of the loop over `cfg.Numbers` in `BuildFilteredDisplays`. -/
def numberDisplay (doc : EntityState) : Option Any := do
  let value ← (doc.attrFloat "state").or (parseFiniteNumber doc.state)
  if doc.state = "unavailable" ∨ doc.state = "unknown" then none
  else
    let (lo, hi) ← numberBounds doc
    let step := (doc.attrFloat "step").getD 0
    let step := if step.eq 0 then 1 else step
    return .object [("entity_id", .string doc.entityID), ("name", .string doc.friendlyName),
      ("value", .float64 value), ("min", .float64 lo), ("max", .float64 hi),
      ("step", .float64 step), ("unit", .string (doc.attrString "unit_of_measurement"))]

/-- The members of the number section. -/
def shownNumbers (display : Any) : List Any :=
  match display.object?.bind fun fields => entry fields "numbers" with
  | some (.list shown) => shown
  | _ => []

/-- A member of a shown number. -/
def numberMember (shown : Any) (key : String) : Option Any :=
  shown.object?.bind fun fields => entry fields key

theorem shownNumbers_buildFilteredDisplays (docs : String → Option EntityState)
    (f : FilteredEntityConfig) :
    shownNumbers (buildFilteredDisplays docs f) =
      (f.numbers.filterMap fun id => if id = "" then none else docs id).filterMap numberDisplay :=
  rfl

/-- A number is shown with its bounds. -/
theorem bounds_of_numberDisplay {doc : EntityState} {shown : Any}
    (h : numberDisplay doc = some shown) :
    ∃ lo hi, numberBounds doc = some (lo, hi) ∧
      numberMember shown "min" = some (.float64 lo) ∧
      numberMember shown "max" = some (.float64 hi) := by
  unfold numberDisplay at h
  obtain ⟨value, -, h⟩ := Option.bind_eq_some_iff.mp h
  split_ifs at h
  obtain ⟨⟨lo, hi⟩, hbounds, h⟩ := Option.bind_eq_some_iff.mp h
  obtain rfl := Option.some.inj h
  exact ⟨lo, hi, hbounds, rfl, rfl⟩

/-! ## The limits of a document -/

namespace EntityState

/-- A value respects the limits that the document has. -/
structure Within (doc : EntityState) (x : F64) : Prop where
  min : ∀ lo, doc.attrFloat "min" = some lo → lo.le x = true
  max : ∀ hi, doc.attrFloat "max" = some hi → x.le hi = true

/-- A limit of the document is no number, or the two are in the wrong order. -/
inductive Malformed (doc : EntityState) : Prop
  | min : (entry doc.attributes "min").isSome = true → doc.attrFloat "min" = none → Malformed doc
  | max : (entry doc.attributes "max").isSome = true → doc.attrFloat "max" = none → Malformed doc
  | reversed {lo hi : F64} : doc.attrFloat "min" = some lo → doc.attrFloat "max" = some hi →
      lo.le hi = false → Malformed doc

/-- A maximum of zero, with a minimum of zero or none. -/
def ZeroTop (doc : EntityState) : Prop :=
  doc.attrFloat "max" = some 0 ∧
    (entry doc.attributes "min" = none ∨ doc.attrFloat "min" = some 0)

/-- Without an entry there is no number. -/
theorem attrFloat_of_entry {doc : EntityState} {key : String}
    (h : entry doc.attributes key = none) :
    doc.attrFloat key = none := by
  unfold attrFloat
  rw [h]

end EntityState

/-- Only zero equals zero. -/
theorem eq_zero_iff {x : F64} : x.eq 0 = true ↔ x = 0 := by
  cases x with
  | fin q =>
    refine ⟨fun h => ?_, fun h => ?_⟩
    · exact congrArg F64.fin (of_decide_eq_true h)
    · rw [h]
      rfl
  | inf s => exact ⟨fun h => (by cases h), fun h => (by cases h)⟩
  | nan => exact ⟨fun h => (by cases h), fun h => (by cases h)⟩

/-- Malformed limits give no bounds. -/
theorem numberBounds_malformed {doc : EntityState} (h : doc.Malformed) :
    numberBounds doc = none := by
  unfold numberBounds
  cases h with
  | min hsome hnone =>
    rw [if_pos (by simp [hsome, hnone])]
  | max hsome hnone =>
    rw [if_pos (by simp [hsome, hnone])]
  | reversed hlo hhi hle =>
    rename_i lo hi
    rw [hlo, hhi]
    dsimp only [Option.getD_some]
    have hzero : ¬(lo.eq 0 && hi.eq 0) = true := by
      intro hand
      obtain ⟨h₁, h₂⟩ := Bool.and_eq_true_iff.mp hand
      rw [eq_zero_iff.mp h₁, eq_zero_iff.mp h₂] at hle
      exact absurd hle (by decide)
    simp only [if_neg hzero, hle, Bool.false_eq_true, if_false, ite_self]

/-- A maximum of zero is taken for a missing one. -/
theorem numberBounds_zeroTop {doc : EntityState} (h : doc.ZeroTop) :
    numberBounds doc = some (0, 100) := by
  obtain ⟨hmax, hmin | hmin⟩ := h
  · unfold numberBounds
    rw [doc.attrFloat_of_entry hmin, hmax, hmin]
    simp only [Option.isSome_none, Option.isNone_some, Option.getD_none, Option.getD_some,
      Bool.false_and, Bool.and_false, Bool.or_false, Bool.false_eq_true, if_false]
    rfl
  · unfold numberBounds
    rw [hmin, hmax]
    simp only [Option.isNone_some, Option.getD_some, Bool.and_false, Bool.or_false,
      Bool.false_eq_true, if_false]
    rfl

/-- **Values between the bounds** respect the limits of the document, unless its maximum is zero and
taken for a missing one. -/
theorem numberBounds_within {doc : EntityState} {lo hi x : F64}
    (h : numberBounds doc = some (lo, hi)) (htop : ¬ doc.ZeroTop) (hlo : lo.le x = true)
    (hhi : x.le hi = true) : doc.Within x := by
  unfold numberBounds at h
  dsimp only at h
  split_ifs at h with hbad hzero
  · obtain ⟨rfl, -⟩ := Prod.mk.inj (Option.some.inj h)
    refine ⟨fun m hm => ?_, fun m hm => absurd ?_ htop⟩
    · rwa [hm, Option.getD_some] at hlo
    · obtain ⟨h₁, h₂⟩ := Bool.and_eq_true_iff.mp hzero
      rw [hm, Option.getD_some, eq_zero_iff] at h₂
      refine ⟨h₂ ▸ hm, ?_⟩
      cases hmin : doc.attrFloat "min" with
      | none =>
        left
        by_contra hsome
        exact hbad (by simp [hmin, Option.isSome_iff_ne_none, hsome])
      | some m' =>
        right
        rw [hmin, Option.getD_some, eq_zero_iff] at h₁
        rw [h₁]
  · obtain ⟨rfl, rfl⟩ := Prod.mk.inj (Option.some.inj h)
    refine ⟨fun m hm => ?_, fun m hm => ?_⟩
    · rwa [hm, Option.getD_some] at hlo
    · rwa [hm, Option.getD_some] at hhi

/-! ## Polls -/

/-- The requests of `FetchStatesOnce`, for an order of each map and the answer to each request. -/
def Client.polled (c : Client) (booleans sensors appliances : List (String × String))
    (answers : ℕ → Option EntityState × ℕ) : Poll :=
  (c.slots booleans sensors appliances).zipIdx.foldl
    (fun p e => p.fetch e.1 (answers e.2).1 (answers e.2).2) {}

theorem fetchStatesOnce_eq (c : Client) (booleans sensors appliances : List (String × String))
    (answers : ℕ → Option EntityState × ℕ) :
    fetchStatesOnce c booleans sensors appliances answers =
      if c.isDirectMode then (c.polled booleans sensors appliances answers).overlay c
      else { booleans := some ∅ } :=
  rfl

/-- A service call that sets a number. -/
def ServiceCall.SetsNumber (call : ServiceCall) : Prop :=
  call.service = "set_value" ∧ (call.domain = "number" ∨ call.domain = "input_number")

namespace Poll

/-- **The recorded bounds** are those of the documents of the configured numbers. -/
theorem lookup_ranges (p : Poll) (c : Client) (id : String) :
    (p.ranges c).lookup id =
      if id ∈ (c.filteredEntities.map FilteredEntityConfig.numbers).getD [] then
        (p.docs.lookup id).bind numberBounds
      else none := by
  have hfold : ∀ (ids : List String) (m : StrMap (F64 × F64)),
      (ids.foldl (fun m id => (((p.docs.lookup id).bind numberBounds).elim m
        fun b => m.insert id b)) m).lookup id =
      if id ∈ ids then ((p.docs.lookup id).bind numberBounds).or (m.lookup id)
      else m.lookup id := by
    intro ids
    induction ids with
    | nil => exact fun m => rfl
    | cons i ids ih =>
      intro m
      rw [List.foldl_cons, ih]
      by_cases heq : id = i
      · subst heq
        cases hb : (p.docs.lookup id).bind numberBounds with
        | none => simp
        | some b => simp [AList.lookup_insert]
      · have hother : ((((p.docs.lookup i).bind numberBounds).elim m
            fun b => m.insert i b)).lookup id = m.lookup id := by
          cases (p.docs.lookup i).bind numberBounds with
          | none => rfl
          | some b => exact AList.lookup_insert_ne heq
        rw [hother]
        simp [heq]
  unfold ranges
  rw [hfold, AList.lookup_empty]
  simp

/-- Documents are kept of observed entities only. -/
def Seen (p : Poll) : Prop :=
  ∀ id doc, p.docs.lookup id = some doc → ∃ t, p.observed.lookup id = some t

theorem seen_fetch {p : Poll} (h : p.Seen) (slot : FetchSlot) (answer : Option EntityState)
    (now : ℕ) : (p.fetch slot answer now).Seen := by
  unfold fetch
  cases answer.filter fun _ => validSegment slot.entity with
  | none => cases slot <;> exact h
  | some doc =>
    have hs : (p.fetchDoc slot.entity doc now).Seen := by
      intro id d hd
      obtain ⟨t, ht⟩ := h id d hd
      simp only [fetchDoc]
      split_ifs
      · by_cases heq : id = slot.entity
        · exact ⟨now, heq ▸ AList.lookup_insert _⟩
        · exact ⟨t, (AList.lookup_insert_ne heq).trans ht⟩
      · exact ⟨t, ht⟩
    cases slot with
    | boolean key entity =>
      simp only [keep]
      split <;> exact hs
    | switch key entity | sensor key entity | appliance key entity => exact hs
    | display id =>
      simp only [keep]
      split_ifs with hobs
      · intro id' d hd
        by_cases heq : id' = id
        · subst heq
          exact Option.isSome_iff_exists.mp hobs
        · exact hs id' d ((AList.lookup_insert_ne heq).symm.trans hd)
      · exact hs

/-- Every poll has seen what it keeps. -/
theorem seen_polled (c : Client) (booleans sensors appliances : List (String × String))
    (answers : ℕ → Option EntityState × ℕ) :
    (c.polled booleans sensors appliances answers).Seen := by
  have hfold : ∀ (es : List (FetchSlot × ℕ)) (p : Poll), p.Seen →
      (es.foldl (fun p e => p.fetch e.1 (answers e.2).1 (answers e.2).2) p).Seen := by
    intro es
    induction es with
    | nil => exact fun _ hp => hp
    | cons e es ih => exact fun p hp => ih _ (seen_fetch hp e.1 _ _)
  exact hfold _ {} fun id doc h => by simp at h

/-- What a poll lets the dashboard show and authorise. Shown numbers have the recorded bounds, the
values that are authorised after its commit respect the limits of the document, and numbers with
malformed limits are neither shown nor authorised. -/
structure Honest (c : Client) (p : Poll) : Prop where
  shown : ∀ f ∈ c.filteredEntities, ∀ shown ∈ shownNumbers (buildFilteredDisplays p.docs.lookup f),
    ∃ id ∈ f.numbers, ∃ doc lo hi, p.docs.lookup id = some doc ∧ numberDisplay doc = some shown ∧
      numberMember shown "min" = some (.float64 lo) ∧
      numberMember shown "max" = some (.float64 hi) ∧ (p.ranges c).lookup id = some (lo, hi)
  within : ∀ (s : Home) (now : ℕ) (call : ServiceCall), call.SetsNumber →
    Home.validateServiceObservation c { Home.commit c s p with now := now } call = true →
    ∃ doc x, p.docs.lookup call.entity = some doc ∧
      (entry call.fields "value").bind actionNumber = some x ∧ doc.Within x
  malformed : ∀ id doc, p.docs.lookup id = some doc → doc.Malformed → numberDisplay doc = none ∧
    ∀ (s : Home) (now : ℕ) (call : ServiceCall), call.SetsNumber → call.entity = id →
      Home.validateServiceObservation c { Home.commit c s p with now := now } call = false

end Poll

/-! ## Authorised values -/

/-- **The check of a value.** An authorised value is between the bounds of the document of a
configured number. -/
theorem Home.bounds_of_validate {c : Client} {s : Home} {p : Poll}
    (hr : s.numberRanges = p.ranges c)
    {call : ServiceCall} (hcall : call.SetsNumber)
    (hv : validateServiceObservation c s call = true) :
    ∃ f ∈ c.filteredEntities, call.entity ∈ f.numbers ∧ ∃ doc x lo hi,
      p.docs.lookup call.entity = some doc ∧ numberBounds doc = some (lo, hi) ∧
      (entry call.fields "value").bind actionNumber = some x ∧ lo.le x = true ∧ x.le hi = true := by
  unfold validateServiceObservation at hv
  have hrange := (Bool.and_eq_true_iff.mp (Bool.and_eq_true_iff.mp hv).1).1
  have hcond : (call.service == "set_value" &&
      (call.domain == "number" || call.domain == "input_number")) = true := by
    simp [hcall.1, hcall.2]
  rw [if_pos hcond] at hrange
  split at hrange
  · next x lo hi hx hlook =>
    simp only [Bool.and_eq_true, Bool.not_eq_true'] at hrange
    obtain ⟨v, -, hnumber⟩ := Option.bind_eq_some_iff.mp hx
    have hfin := isFinite_of_actionNumber hnumber
    rw [hr, Poll.lookup_ranges] at hlook
    split_ifs at hlook with hmem
    obtain ⟨doc, hdoc, hbounds⟩ := Option.bind_eq_some_iff.mp hlook
    obtain ⟨hlo, hhi⟩ :=
      between_of_not_outside hfin (numberBounds_ordered hbounds) hrange.1 hrange.2
    cases hf : c.filteredEntities with
    | none => simp [hf] at hmem
    | some f =>
      rw [hf] at hmem
      exact ⟨f, rfl, hmem, doc, x, lo, hi, hdoc, hbounds, hx, hlo, hhi⟩
  · cases hrange

/-- **The limits of number entities.** What a poll shows and authorises respects the limits if no
configured number has a maximum of zero that is taken for a missing one, and only then.

**Proof sketch.** With such a maximum the bounds are 0 and 100, and 1 is authorised at the time at
which the poll has seen the entity. -/
theorem Poll.honest_polled_iff (c : Client) (booleans sensors appliances : List (String × String))
    (answers : ℕ → Option EntityState × ℕ) :
    (c.polled booleans sensors appliances answers).Honest c ↔
      (c.isDirectMode = true → ∀ f ∈ c.filteredEntities, ∀ id ∈ f.numbers, ∀ doc,
        (c.polled booleans sensors appliances answers).docs.lookup id = some doc →
          ¬ doc.ZeroTop) := by
  have hseen := seen_polled c booleans sensors appliances answers
  generalize c.polled booleans sensors appliances answers = p at hseen ⊢
  constructor
  · intro h hdirect f hf id hid doc hdoc htop
    obtain ⟨t, ht⟩ := hseen id doc hdoc
    have hlook : (p.ranges c).lookup id = some (0, 100) := by
      have hmem : id ∈ (c.filteredEntities.map FilteredEntityConfig.numbers).getD [] := by
        rw [Option.mem_def.mp hf]
        exact hid
      rw [lookup_ranges, if_pos hmem, hdoc]
      exact numberBounds_zeroTop htop
    have hv : Home.validateServiceObservation c { Home.commit c {} p with now := t }
        ⟨"number", "set_value", id, [("value", .float64 1)]⟩ = true := by
      unfold Home.validateServiceObservation Home.commit
      simp only [hlook, ht, hdirect]
      simp [entry, actionNumber, freshness]
      decide
    obtain ⟨doc', x, hdoc', hx, hwithin⟩ := h.within {} t _ ⟨rfl, Or.inl rfl⟩ hv
    obtain rfl := Option.some.inj (hdoc.symm.trans hdoc')
    have hone : some (1 : F64) = some x := hx
    obtain rfl := Option.some.inj hone
    exact absurd (hwithin.max 0 htop.1) (by decide)
  · intro h
    refine ⟨fun f hf shown hshown => ?_, fun s now call hcall hv => ?_, fun id doc hdoc hbad => ?_⟩
    · rw [shownNumbers_buildFilteredDisplays] at hshown
      obtain ⟨doc, hdoc, hdisplay⟩ := List.mem_filterMap.mp hshown
      obtain ⟨id, hid, hget⟩ := List.mem_filterMap.mp hdoc
      split_ifs at hget
      obtain ⟨lo, hi, hbounds, hmin, hmax⟩ := bounds_of_numberDisplay hdisplay
      refine ⟨id, hid, doc, lo, hi, hget, hdisplay, hmin, hmax, ?_⟩
      have hmem : id ∈ (c.filteredEntities.map FilteredEntityConfig.numbers).getD [] := by
        rw [Option.mem_def.mp hf]
        exact hid
      rw [lookup_ranges, if_pos hmem, hget]
      exact hbounds
    · have hdirect : c.isDirectMode = true :=
        (Bool.and_eq_true_iff.mp (Bool.and_eq_true_iff.mp hv).1).2
      obtain ⟨f, hf, hid, doc, x, lo, hi, hdoc, hbounds, hx, hlo, hhi⟩ :=
        Home.bounds_of_validate (p := p) (by rfl) hcall hv
      exact ⟨doc, x, hdoc, hx,
        numberBounds_within hbounds (h hdirect f hf _ hid doc hdoc) hlo hhi⟩
    · refine ⟨?_, fun s now call hcall hid => ?_⟩
      · cases hdisplay : numberDisplay doc with
        | none => rfl
        | some shown =>
          obtain ⟨lo, hi, hbounds, -⟩ := bounds_of_numberDisplay hdisplay
          rw [numberBounds_malformed hbad] at hbounds
          cases hbounds
      · by_contra hv
        rw [Bool.not_eq_false] at hv
        obtain ⟨f, -, -, doc', x, lo, hi, hdoc', hbounds, -⟩ :=
          Home.bounds_of_validate (p := p) (by rfl) hcall hv
        rw [hid, hdoc] at hdoc'
        obtain rfl := Option.some.inj hdoc'
        rw [numberBounds_malformed hbad] at hbounds
        cases hbounds

/-- **Authorised values.** In every run, a value that is authorised respects the limits of the
document that the last committed poll has of the entity, unless its maximum is zero and taken for a
missing one. -/
theorem Home.within_of_reachable {c : Client} {s : Home}
    (h : Transition.Reachable (step c) (fun _ _ => True) Init s) {call : ServiceCall}
    (hcall : call.SetsNumber) (hv : validateServiceObservation c s call = true) :
    ∃ poll doc x, lastCommitted s.log = some poll ∧ poll.docs.lookup call.entity = some doc ∧
      (entry call.fields "value").bind actionNumber = some x ∧ (¬ doc.ZeroTop → doc.Within x) := by
  have hinv := inv_of_reachable h
  cases hlast : lastCommitted s.log with
  | none =>
    unfold validateServiceObservation at hv
    rw [hinv.blank hlast, AList.lookup_empty, Option.any_none, Bool.and_false] at hv
    cases hv
  | some poll =>
    obtain ⟨f, -, -, doc, x, lo, hi, hdoc, hbounds, hx, hlo, hhi⟩ :=
      bounds_of_validate (hinv.last poll hlast).2.1 hcall hv
    exact ⟨poll, doc, x, rfl, hdoc, hx, fun htop => numberBounds_within hbounds htop hlo hhi⟩

/-! ## A maximum of zero -/

/-- A client with one number. -/
def numberClient : Client :=
  newClient { filteredEntities := some { numbers := ["number.discharge"] } } true

/-- The number may not be above zero. -/
def zeroTopped : EntityState where
  entityID := "number.discharge"
  state := "0"
  attributes := [("min", .float64 0), ("max", .float64 0)]

/-- A value of 1 is authorised. -/
theorem Poll.not_honest_zeroTopped :
    ¬ ∀ (c : Client) (booleans sensors appliances : List (String × String))
      (answers : ℕ → Option EntityState × ℕ), c.Ordered booleans sensors appliances →
        (c.polled booleans sensors appliances answers).Honest c := by
  intro h
  have hhonest := h numberClient [] [] [] (fun _ => (some zeroTopped, 0)) (by decide)
  obtain ⟨doc, x, hdoc, hx, hwithin⟩ := hhonest.within {} 0
    ⟨"number", "set_value", "number.discharge", [("value", .float64 1)]⟩ ⟨rfl, Or.inl rfl⟩
    (by decide)
  have hsame : (numberClient.polled [] [] [] fun _ => (some zeroTopped, 0)).docs.lookup
      "number.discharge" = some zeroTopped := rfl
  obtain rfl := Option.some.inj (hsame.symm.trans hdoc)
  have hone : some (1 : F64) = some x := hx
  obtain rfl := Option.some.inj hone
  exact absurd (hwithin.max 0 rfl) (by decide)

end HomeAssistant

end Dashboard
