import InverterDashboard.HomeAssistant.Poll
import InverterDashboard.Lib.Threads
import InverterDashboard.Lib.Trace
import InverterDashboard.Lib.Transition

set_option relaxedAutoImplicit false
set_option autoImplicit false

/-!
# Home Assistant actions

What a WebSocket message may make Home Assistant do: `handleMessage` of
`internal/websocket/handler.go` and the service calls of `internal/homeassistant`. Any number of
polls and messages are under way. A poll commits what it has observed in one step under `overlayMu`.
A service call reads the committed observations in one step under the lock, leaves the lock, and
then makes its request; the poll that follows an action is one of the polls.

## Main definitions

* `Dashboard.HomeAssistant.Message`, `handleMessage` — what a message is answered with.
* `Dashboard.HomeAssistant.ServiceCall`, `ActionKind` — a request to Home Assistant.
* `Dashboard.HomeAssistant.Home`, `Home.step` — polls and messages side by side.
* `Dashboard.HomeAssistant.Authorised` — what allows a request.

## Main results

* `Dashboard.HomeAssistant.permitted_of_handleMessage` — which requests a message can lead to.
* `Dashboard.HomeAssistant.Home.inv_step` — what every step keeps.
* `Dashboard.HomeAssistant.Home.posts_authorised` — every request was authorised by the poll that
  was the last committed one when it was checked.
-/

namespace Dashboard

open Go

namespace HomeAssistant

/-! ## Requests -/

/-- A service request: `POST /api/services/<domain>/<service>`, the entity and the fields. -/
structure ServiceCall where
  domain : String
  service : String
  entity : String
  fields : List (String × Any) := []

/-- The kinds of actions. -/
inductive ActionKind where
  | toggle
  | press
  | number
  | cover
  | mediaPlayer
  | scene
  deriving DecidableEq

/-- The kind of action a service stands for. -/
def ServiceCall.kind? (call : ServiceCall) : Option ActionKind :=
  match call.service with
  | "toggle" => some .toggle
  | "press" => some .press
  | "set_value" => some .number
  | "set_cover_position" => some .cover
  | "media_play" | "media_pause" | "media_stop" => some .mediaPlayer
  | "turn_on" => some .scene
  | _ => none

/-- `actionNumber`: a finite number. -/
def actionNumber : Any → Option F64
  | .float64 x => if x.isFinite then some x else none
  | .int n => if (F64.ofInt n).isFinite then some (F64.ofInt n) else none
  | _ => none

/-- A number of an action is finite. -/
theorem isFinite_of_actionNumber {v : Any} {x : F64} (h : actionNumber v = some x) :
    x.isFinite = true := by
  unfold actionNumber at h
  split at h
  · split_ifs at h with hfin
    exact Option.some.inj h ▸ hfin
  · split_ifs at h with hfin
    exact Option.some.inj h ▸ hfin
  · cases h

/-! ## Messages -/

/-- The members of a WebSocket message that reach Home Assistant. -/
structure Message where
  action : String
  entity : String := ""
  value : Any := .nil
  position : Any := .nil
  mpAction : String := ""

/-- What a message leads to: an error, a command to the controller, a command over MQTT, a service
request, or an action that has nothing to do with Home Assistant. -/
inductive Reply where
  | error (text : String)
  | controllerToggle (entity : String)
  | publish (command entity : String)
  | service (call : ServiceCall)
  | elsewhere

/-- The service of a media player action. -/
def mediaService : String → Option String
  | "play" => some "media_play"
  | "pause" => some "media_pause"
  | "stop" => some "media_stop"
  | _ => none

/-- The end of `PerformAction`. -/
def allow (allowed : Bool) (call : ServiceCall) : Reply :=
  if allowed then .service call
  else .error "home assistant action is not allowed for this entity"

/-- `PerformAction`. -/
def performAction (c : Client) (msg : Message) : Reply :=
  match c.filteredEntities with
  | none => .error "direct Home Assistant controls are not configured"
  | some f =>
    if !c.isDirectMode then .error "direct Home Assistant controls are not configured"
    else if msg.entity == "" || isControlFlag msg.entity then
      .error "home assistant entity required"
    else
      let domain := domainOf msg.entity
      match msg.action with
      | "number_set" =>
        match actionNumber msg.value with
        | none => .error "number value must be finite"
        | some x =>
          allow ((domain == "number" || domain == "input_number") && f.numbers.contains msg.entity)
            { domain := domain, service := "set_value", entity := msg.entity
              fields := [("value", .float64 x)] }
      | "set_cover_position" =>
        match actionNumber msg.position with
        | none => .error "cover position must be an integer from 0 to 100"
        | some x =>
          if x.lt 0 || F64.lt 100 x || !(x.trunc.eq x) then
            .error "cover position must be an integer from 0 to 100"
          else
            allow (domain == "cover" && f.covers.contains msg.entity)
              { domain := domain, service := "set_cover_position", entity := msg.entity
                fields := [("position", .int x.toInt)] }
      | "media_player" =>
        match mediaService msg.mpAction with
        | none => .error "home assistant action is not allowed for this entity"
        | some service =>
          allow (domain == "media_player" && f.mediaPlayers.contains msg.entity)
            { domain := domain, service := service, entity := msg.entity }
      | "scene_activate" =>
        allow (domain == "scene" && f.scenes.contains msg.entity)
          { domain := domain, service := "turn_on", entity := msg.entity }
      | _ => .error "home assistant action is not allowed for this entity"

/-- `ToggleEntity`. -/
def toggleEntity (c : Client) (entity : String) : Reply :=
  let domain := domainOf entity
  if !c.configured then .error "failed to toggle entity: HA not configured"
  else if domain == "input_boolean" || domain == "switch" || domain == "light" then
    .service { domain := domain, service := "toggle", entity := entity }
  else .error ("failed to toggle entity: unsupported domain for toggle: " ++ domain)

/-- `PressButton`. -/
def pressButton (c : Client) (entity : String) : Reply :=
  if !c.configured then .error "HA not configured"
  else if !hasPrefix entity "button." then .error ("not a button entity: " ++ entity)
  else .service { domain := "button", service := "press", entity := entity }

/-- The text of a refused home entity. -/
def notConfigured : String := "home entity is not configured for direct Home Assistant control"

/-- `handlePress`. -/
def handlePress (ha : Option Client) (entity : String) : Reply :=
  if entity == "" then .error "entity ID required for press"
  else
    match ha.filter Client.isDirectMode with
    | none => if containsText entity "." then .error notConfigured else .publish "press" entity
    | some c =>
      if !c.isToggleAllowed entity || !hasPrefix entity "button." then
        .error "button is not configured for direct Home Assistant control"
      else pressButton c entity

/-- `handleToggle`. -/
def handleToggle (ha : Option Client) (entity : String) : Reply :=
  let allowed := ha.filter fun c => c.isDirectMode && c.isToggleAllowed entity
  if entity == "" then .error "entity ID required for toggle"
  else if isControlFlag entity then .controllerToggle entity
  else if containsText entity "." && allowed.isNone then .error notConfigured
  else if hasPrefix entity "button." then handlePress ha entity
  else
    match allowed with
    | some c => toggleEntity c entity
    | none => .publish "toggle" entity

/-- `handleMessage`, for the actions that may reach Home Assistant. -/
def handleMessage (ha : Option Client) (msg : Message) : Reply :=
  match msg.action with
  | "number_set" | "set_cover_position" | "media_player" | "scene_activate" =>
    match ha.filter Client.isDirectMode with
    | none => .error "direct Home Assistant controls are not enabled"
    | some c => performAction c msg
  | "toggle" =>
    if isControlFlag msg.entity then .controllerToggle msg.entity else handleToggle ha msg.entity
  | "press" => handlePress ha msg.entity
  | _ => .elsewhere

/-! ## What a message may ask for -/

/-- An entity is configured for a kind of action. -/
def Client.ConfiguredFor (c : Client) (entity : String) : ActionKind → Prop
  | .toggle | .press => ∃ e ∈ c.toggles, e.2 = entity ∧ haOwnsField e.1 e.2 = true
  | .number => ∃ f ∈ c.filteredEntities, entity ∈ f.numbers
  | .cover => ∃ f ∈ c.filteredEntities, entity ∈ f.covers
  | .mediaPlayer => ∃ f ∈ c.filteredEntities, entity ∈ f.mediaPlayers
  | .scene => ∃ f ∈ c.filteredEntities, entity ∈ f.scenes

/-- A request that the configuration permits: for an entity of its kind, not for a control flag, and
with the fields of its kind. -/
structure Permitted (c : Client) (call : ServiceCall) : Prop where
  configured : ∃ kind, call.kind? = some kind ∧ c.ConfiguredFor call.entity kind
  flag : isControlFlag call.entity = false
  number : call.kind? = some .number → (call.domain = "number" ∨ call.domain = "input_number") ∧
    ∃ x : F64, x.isFinite = true ∧ call.fields = [("value", .float64 x)]
  cover : call.kind? = some .cover → ∃ n : ℤ, 0 ≤ n ∧ n ≤ 100 ∧ call.fields = [("position", .int n)]

/-- An allowed toggle is configured and no control flag. -/
theorem configured_of_isToggleAllowed {c : Client} {entity : String}
    (h : c.isToggleAllowed entity = true) :
    (∃ e ∈ c.toggles, e.2 = entity ∧ haOwnsField e.1 e.2 = true) ∧
      isControlFlag entity = false := by
  simp only [Client.isToggleAllowed, Bool.and_eq_true, List.any_eq_true, beq_iff_eq] at h
  obtain ⟨-, e, he, rfl, howns⟩ := h
  refine ⟨⟨e, he, rfl, howns⟩, ?_⟩
  simp only [haOwnsField, Bool.and_eq_true, Bool.not_eq_true'] at howns
  exact howns.2

/-- A request without fields of its own. -/
theorem permitted_of_plain {c : Client} {call : ServiceCall} {kind : ActionKind}
    (hkind : call.kind? = some kind) (hconf : c.ConfiguredFor call.entity kind)
    (hflag : isControlFlag call.entity = false) (hnumber : kind ≠ .number)
    (hcover : kind ≠ .cover) : Permitted c call where
  configured := ⟨kind, hkind, hconf⟩
  flag := hflag
  number h := absurd (Option.some.inj (hkind.symm.trans h)) hnumber
  cover h := absurd (Option.some.inj (hkind.symm.trans h)) hcover

/-- A whole number from 0 to 100. -/
theorem toInt_of_position {x : F64} (hlo : x.lt 0 = false) (hhi : F64.lt 100 x = false)
    (htrunc : x.trunc.eq x = true) : 0 ≤ x.toInt ∧ x.toInt ≤ 100 := by
  cases x with
  | nan => cases htrunc
  | inf s =>
    cases s with
    | true => cases hlo
    | false => cases hhi
  | fin q =>
    have hq : 0 ≤ q := not_lt.mp (of_decide_eq_false hlo)
    have hq' : q ≤ 100 := not_lt.mp (of_decide_eq_false hhi)
    have htr : F64.truncRat q = ⌊q⌋ := if_neg (not_lt.mpr hq)
    have h0 : (0 : ℤ) ≤ ⌊q⌋ := Int.floor_nonneg.mpr hq
    have h100 : ⌊q⌋ ≤ (100 : ℤ) := by
      have hle : ((⌊q⌋ : ℤ) : ℚ) ≤ 100 := (Int.floor_le q).trans hq'
      exact_mod_cast hle
    simp only [F64.toInt, htr]
    rw [if_pos (by omega)]
    exact ⟨h0, h100⟩

theorem service_of_allow {allowed : Bool} {call call' : ServiceCall}
    (h : allow allowed call = .service call') : allowed = true ∧ call' = call := by
  unfold allow at h
  split_ifs at h with hallowed
  exact ⟨hallowed, (Reply.service.inj h).symm⟩

theorem permitted_of_performAction {c : Client} {msg : Message} {call : ServiceCall}
    (h : performAction c msg = .service call) : c.isDirectMode = true ∧ Permitted c call := by
  unfold performAction at h
  cases hf : c.filteredEntities with
  | none => simp [hf] at h
  | some f =>
    simp only [hf] at h
    split_ifs at h with hdirect hentity
    simp only [Bool.not_eq_true', Bool.not_eq_false] at hdirect
    simp only [Bool.or_eq_true, not_or, Bool.not_eq_true] at hentity
    refine ⟨hdirect, ?_⟩
    split at h
    · split at h
      · cases h
      · next x hx =>
        obtain ⟨hallowed, rfl⟩ := service_of_allow h
        simp only [Bool.and_eq_true, Bool.or_eq_true, beq_iff_eq, List.contains_iff_mem]
          at hallowed
        exact ⟨⟨.number, rfl, f, hf, hallowed.2⟩, hentity.2,
          fun _ => ⟨hallowed.1, x, isFinite_of_actionNumber hx, rfl⟩, fun h => (by cases h)⟩
    · split at h
      · cases h
      · next x hx =>
        split_ifs at h with hpos
        simp only [Bool.or_eq_true, not_or, Bool.not_eq_true, Bool.not_eq_true',
          Bool.not_eq_false] at hpos
        obtain ⟨hallowed, rfl⟩ := service_of_allow h
        simp only [Bool.and_eq_true, List.contains_iff_mem] at hallowed
        obtain ⟨h0, h100⟩ := toInt_of_position hpos.1.1 hpos.1.2 hpos.2
        exact ⟨⟨.cover, rfl, f, hf, hallowed.2⟩, hentity.2, fun h => (by cases h),
          fun _ => ⟨x.toInt, h0, h100, rfl⟩⟩
    · split at h
      · cases h
      · next service hservice =>
        obtain ⟨hallowed, rfl⟩ := service_of_allow h
        simp only [Bool.and_eq_true, List.contains_iff_mem] at hallowed
        have hkind : ServiceCall.kind? ⟨domainOf msg.entity, service, msg.entity, []⟩ =
            some .mediaPlayer := by
          unfold mediaService at hservice
          split at hservice <;> cases hservice <;> rfl
        exact permitted_of_plain hkind ⟨f, hf, hallowed.2⟩ hentity.2 (by simp) (by simp)
    · obtain ⟨hallowed, rfl⟩ := service_of_allow h
      simp only [Bool.and_eq_true, List.contains_iff_mem] at hallowed
      exact permitted_of_plain rfl ⟨f, hf, hallowed.2⟩ hentity.2 (by simp) (by simp)
    · cases h

theorem permitted_of_handlePress {ha : Option Client} {entity : String} {call : ServiceCall}
    (h : handlePress ha entity = .service call) :
    ∃ c, ha = some c ∧ c.isDirectMode = true ∧ Permitted c call := by
  unfold handlePress at h
  cases hc : ha.filter Client.isDirectMode with
  | none =>
    rw [hc] at h
    split_ifs at h
  | some c =>
    obtain ⟨hha, hdirect⟩ := Option.filter_eq_some_iff.mp hc
    rw [hc] at h
    simp only at h
    split_ifs at h with hempty hallowed
    simp only [Bool.or_eq_true, Bool.not_eq_true', not_or, Bool.not_eq_false] at hallowed
    unfold pressButton at h
    split_ifs at h
    obtain rfl := Reply.service.inj h
    obtain ⟨hconf, hflag⟩ := configured_of_isToggleAllowed hallowed.1
    exact ⟨c, hha, hdirect, permitted_of_plain (show _ = some ActionKind.press from rfl) hconf hflag
      (by simp) (by simp)⟩

theorem permitted_of_handleToggle {ha : Option Client} {entity : String} {call : ServiceCall}
    (h : handleToggle ha entity = .service call) :
    ∃ c, ha = some c ∧ c.isDirectMode = true ∧ Permitted c call := by
  unfold handleToggle at h
  simp only at h
  split_ifs at h
  · exact permitted_of_handlePress h
  · split at h
    · next c hc =>
      obtain ⟨hha, hc⟩ := Option.filter_eq_some_iff.mp hc
      obtain ⟨hdirect, hallowed⟩ := Bool.and_eq_true_iff.mp hc
      obtain ⟨hconf, hflag⟩ := configured_of_isToggleAllowed hallowed
      unfold toggleEntity at h
      simp only at h
      split_ifs at h
      obtain rfl := Reply.service.inj h
      exact ⟨c, hha, hdirect,
        permitted_of_plain (show _ = some ActionKind.toggle from rfl) hconf hflag (by simp)
          (by simp)⟩
    · cases h

/-- **Messages.** A service request that a message leads to is permitted by the configuration of a
client in direct mode.

**Proof sketch.** One case for each of the six routes, and each route looks at its own list. -/
theorem permitted_of_handleMessage {ha : Option Client} {msg : Message} {call : ServiceCall}
    (h : handleMessage ha msg = .service call) :
    ∃ c, ha = some c ∧ c.isDirectMode = true ∧ Permitted c call := by
  have hrich : (match ha.filter Client.isDirectMode with
      | none => Reply.error "direct Home Assistant controls are not enabled"
      | some c => performAction c msg) = .service call →
      ∃ c, ha = some c ∧ c.isDirectMode = true ∧ Permitted c call := by
    intro h
    split at h
    · cases h
    · next c hc =>
      exact ⟨c, (Option.filter_eq_some_iff.mp hc).1, permitted_of_performAction h⟩
  unfold handleMessage at h
  split at h
  · exact hrich h
  · exact hrich h
  · exact hrich h
  · exact hrich h
  · split_ifs at h
    exact permitted_of_handleToggle h
  · exact permitted_of_handlePress h
  · cases h

/-! ## The system -/

/-- Thirty seconds. -/
def freshness : ℕ := 30000000000

/-- A poll under way: the requests it still has to make. -/
structure Polling where
  slots : List FetchSlot
  poll : Poll := {}

/-- Where a service call stands. -/
inductive CallPC where
  /-- The request was built, before the observations are looked at. -/
  | validating (call : ServiceCall)
  /-- The observations were looked at, before the request is made. -/
  | admitted (call : ServiceCall)

/-- What has happened. -/
inductive HomeEntry where
  /-- A poll committed its observations. -/
  | committed (poll : Poll)
  /-- `validateServiceObservation` let a call pass. -/
  | admitted (i : ℕ) (call : ServiceCall) (now : ℕ)
  /-- The request of a call was made. -/
  | posted (i : ℕ) (call : ServiceCall)

/-- The service call that an entry is about. -/
def HomeEntry.call? : HomeEntry → Option ℕ
  | .committed _ => none
  | .admitted i _ _ | .posted i _ => some i

/-- The monotonic clock, the runtime state of the client, the polls and the service calls, and what
has happened, the latest first. -/
structure Home where
  now : ℕ := 0
  overlay : Overlay := { booleans := some ∅, haDirectConnected := true }
  observedAt : Option ℕ := none
  entityObserved : StrMap ℕ := ∅
  numberRanges : StrMap (F64 × F64) := ∅
  polls : ℕ → Option Polling := fun _ => none
  calls : ℕ → Option CallPC := fun _ => none
  log : List HomeEntry := []

/-- What can happen. -/
inductive HomeEvent where
  /-- Time passes. -/
  | advance (d : ℕ)
  /-- `FetchStatesOnce` is called, with an order of each map. -/
  | startPoll (i : ℕ) (booleans sensors appliances : List (String × String))
  /-- A poll gets the outcome of its next request. -/
  | answer (i : ℕ) (answer : Option EntityState)
  /-- A poll commits. -/
  | commit (i : ℕ)
  /-- A caller installs the overlay of a poll. -/
  | replaceOverlay (overlay : Overlay)
  /-- A message arrives. -/
  | message (i : ℕ) (msg : Message)
  /-- A service call looks at the observations. -/
  | validate (i : ℕ)
  /-- A service call makes its request. -/
  | post (i : ℕ)

namespace Home

/-- `validateServiceObservation`. -/
def validateServiceObservation (c : Client) (s : Home) (call : ServiceCall) : Bool :=
  let inRange :=
    if call.service == "set_value" &&
        (call.domain == "number" || call.domain == "input_number") then
      match (entry call.fields "value").bind actionNumber, s.numberRanges.lookup call.entity with
      | some x, some (lo, hi) => !x.lt lo && !F64.lt hi x
      | _, _ => false
    else true
  inRange && c.isDirectMode && (s.entityObserved.lookup call.entity).any fun t =>
    decide (t ≤ s.now) && decide (s.now ≤ t + freshness)

/-- The end of `FetchStatesOnce`: everything is committed at once. -/
def commit (c : Client) (s : Home) (p : Poll) : Home :=
  { s with
    entityObserved := p.observed
    numberRanges := p.ranges c
    observedAt := if p.hadResponse then some s.now else none
    overlay := if p.hadResponse then s.overlay else { s.overlay with haDirectConnected := false }
    log := .committed p :: s.log }

/-- `newAPIRequest` for a service call. -/
def requestOK (c : Client) (call : ServiceCall) : Bool :=
  c.configured && validSegment call.domain && validSegment call.service

/-- One step. -/
def step (c : Client) (s : Home) : HomeEvent → Option Home
  | .advance d => some { s with now := s.now + d }
  | .startPoll i bs ss as =>
    if c.isDirectMode = true ∧ c.Ordered bs ss as ∧ (s.polls i).isNone = true then
      some { s with polls := Function.update s.polls i (some { slots := c.slots bs ss as }) }
    else none
  | .answer i answer =>
    match s.polls i with
    | some ⟨slot :: slots, p⟩ =>
      some { s with
        polls := Function.update s.polls i (some ⟨slots, p.fetch slot answer s.now⟩) }
    | _ => none
  | .commit i =>
    match s.polls i with
    | some ⟨[], p⟩ => some (commit c { s with polls := Function.update s.polls i none } p)
    | _ => none
  | .replaceOverlay overlay => some { s with overlay := overlay }
  | .message i msg =>
    match handleMessage (some c) msg with
    | .service call =>
      if (s.calls i).isSome then none
      else if requestOK c call then
        some { s with calls := Function.update s.calls i (some (.validating call)) }
      else some s
    | _ => some s
  | .validate i =>
    match s.calls i with
    | some (.validating call) =>
      if validateServiceObservation c s call then
        some { s with
          calls := Function.update s.calls i (some (.admitted call))
          log := .admitted i call s.now :: s.log }
      else some { s with calls := Function.update s.calls i none }
    | _ => none
  | .post i =>
    match s.calls i with
    | some (.admitted call) =>
      some { s with
        calls := Function.update s.calls i none
        log := .posted i call :: s.log }
    | _ => none

/-- `NewClient`, before the first poll. -/
def Init (s : Home) : Prop := s = { now := s.now, overlay := s.overlay }

end Home

/-! ## What a request relies on -/

/-- The most recently committed poll. -/
def lastCommitted : List HomeEntry → Option Poll
  | [] => none
  | .committed poll :: _ => some poll
  | _ :: log => lastCommitted log

/-- What allows a request at a time: the configuration permits it, and a poll has seen the entity in
a usable state in the thirty seconds before and recorded bounds for the number. -/
structure Authorised (c : Client) (call : ServiceCall) (poll : Poll) (time : ℕ) : Prop where
  permitted : Permitted c call
  observed : ∃ r ∈ poll.responses, r.entity = call.entity ∧
    usable call.entity r.doc.state = true ∧ r.time ≤ time ∧ time ≤ r.time + freshness
  number : call.kind? = some .number → ∃ x lo hi, call.fields = [("value", .float64 x)] ∧
    x.isFinite = true ∧ (poll.ranges c).lookup call.entity = some (lo, hi) ∧
    (∃ r ∈ poll.responses, r.entity = call.entity ∧ numberBounds r.doc = some (lo, hi)) ∧
    lo.le x = true ∧ x.le hi = true

/-- The call was let pass at a time by the poll that was the last committed one, and has done
nothing since. -/
def Checked (c : Client) (i : ℕ) (call : ServiceCall) (time : ℕ) : List HomeEntry → Prop :=
  Trace.AddedSince (fun e => e.call? ≠ some i) (.admitted i call time) fun log =>
    ∃ poll, lastCommitted log = some poll ∧ Authorised c call poll time

/-- What an entry of the log relies on. -/
def Justified (c : Client) (log : List HomeEntry) : HomeEntry → Prop
  | .posted i call => ∃ time, Checked c i call time log
  | _ => True

/-- What a call relies on where it stands. -/
def CallOk (c : Client) (log : List HomeEntry) (i : ℕ) : CallPC → Prop
  | .validating call => Permitted c call
  | .admitted call => ∃ time, Checked c i call time log

/-- What a call relies on is not lost by what is not its own. -/
theorem CallOk.cons {c : Client} {log : List HomeEntry} {i : ℕ} {pc : CallPC}
    (h : CallOk c log i pc) {e : HomeEntry} (he : e.call? ≠ some i) : CallOk c (e :: log) i pc := by
  cases pc with
  | validating call => exact h
  | admitted call =>
    obtain ⟨time, hchecked⟩ := h
    exact ⟨time, hchecked.cons he⟩

/-- The entries of another call. -/
theorem call?_ne {i k : ℕ} (h : k ≠ i) : some i ≠ some k := fun heq => h (Option.some.inj heq).symm

/-- A value that is not outside ordered bounds is between them. -/
theorem between_of_not_outside {x lo hi : F64} (hfin : x.isFinite = true) (hle : lo.le hi = true)
    (hlo : x.lt lo = false) (hhi : F64.lt hi x = false) : lo.le x = true ∧ x.le hi = true := by
  have hnan : ∀ y : F64, F64.nan.le y = false ∧ y.le .nan = false := by
    intro y
    cases y <;> exact ⟨rfl, rfl⟩
  obtain ⟨q, rfl⟩ : ∃ q, x = .fin q := by
    cases x with
    | fin q => exact ⟨q, rfl⟩
    | inf s | nan => cases hfin
  constructor
  · cases lo with
    | fin a =>
      have haq : a ≤ q := not_lt.mp (of_decide_eq_false hlo)
      rcases haq.lt_or_eq with hlt | rfl <;> simp [F64.le, F64.lt, F64.eq, *]
    | inf s =>
      cases s with
      | true => rfl
      | false => cases hlo
    | nan => exact absurd (hle.symm.trans (hnan hi).1) (by decide)
  · cases hi with
    | fin a =>
      have hqa : q ≤ a := not_lt.mp (of_decide_eq_false hhi)
      rcases hqa.lt_or_eq with hlt | rfl <;> simp [F64.le, F64.lt, F64.eq, *]
    | inf s =>
      cases s with
      | true => cases hhi
      | false => rfl
    | nan => exact absurd (hle.symm.trans (hnan lo).2) (by decide)

namespace Home

variable {c : Client} {s s' : Home}

/-! ## The invariant -/

/-- The polls under way are sound, the client holds what the last poll committed, and the calls have
what they rely on. -/
structure Inv (c : Client) (s : Home) : Prop where
  polls : ∀ i p, s.polls i = some p → p.poll.Sound
  blank : lastCommitted s.log = none → s.entityObserved = ∅
  last : ∀ poll, lastCommitted s.log = some poll →
    s.entityObserved = poll.observed ∧ s.numberRanges = poll.ranges c ∧ poll.Sound
  calls : ∀ i pc, s.calls i = some pc → CallOk c s.log i pc
  founded : Trace.Founded (fun e log => Justified c log e) s.log

/-- **The check.** A permitted call that `validateServiceObservation` lets pass is authorised by the
last committed poll. -/
theorem authorised_of_validate (h : Inv c s) {call : ServiceCall} (hp : Permitted c call)
    (hv : validateServiceObservation c s call = true) :
    ∃ poll, lastCommitted s.log = some poll ∧ Authorised c call poll s.now := by
  unfold validateServiceObservation at hv
  obtain ⟨hv, hfresh⟩ := Bool.and_eq_true_iff.mp hv
  have hrange := (Bool.and_eq_true_iff.mp hv).1
  obtain ⟨t, ht, hage⟩ := (Option.any_eq_true _ _).mp hfresh
  simp only [Bool.and_eq_true, decide_eq_true_eq] at hage
  cases hlast : lastCommitted s.log with
  | none =>
    rw [h.blank hlast, AList.lookup_empty] at ht
    cases ht
  | some poll =>
    obtain ⟨hobs, hranges, hsound⟩ := h.last poll hlast
    rw [hobs] at ht
    obtain ⟨r, hr, hentity, husable, rfl⟩ := hsound.observed _ _ ht
    refine ⟨poll, rfl, hp, ⟨r, hr, hentity, husable, hage.1, hage.2⟩, fun hkind => ?_⟩
    obtain ⟨hdomain, x, hfin, hfields⟩ := hp.number hkind
    have hservice : call.service = "set_value" := by
      unfold ServiceCall.kind? at hkind
      split at hkind <;> first
        | assumption
        | cases hkind
    have hcond : (call.service == "set_value" &&
        (call.domain == "number" || call.domain == "input_number")) = true := by
      simp [hservice, hdomain]
    have hvalue : (entry call.fields "value").bind actionNumber = some x := by
      rw [hfields]
      simp [entry, actionNumber, hfin]
    rw [if_pos hcond, hvalue] at hrange
    split at hrange
    · next x' lo hi hx' hlook =>
      obtain rfl := Option.some.inj hx'
      simp only [Bool.and_eq_true, Bool.not_eq_true'] at hrange
      rw [hranges] at hlook
      obtain ⟨doc, hdoc, hbounds⟩ := Poll.docs_of_ranges hlook
      obtain ⟨r', hr', hentity', rfl⟩ := hsound.docs _ _ hdoc
      obtain ⟨hlo, hhi⟩ :=
        between_of_not_outside hfin (numberBounds_ordered hbounds) hrange.1 hrange.2
      exact ⟨x, lo, hi, hfields, hfin, hlook, ⟨r', hr', hentity', hbounds⟩, hlo, hhi⟩
    · cases hrange

theorem inv_init (h : Init s) : Inv c s := by
  rw [h]
  exact ⟨fun _ _ hp => (by cases hp), fun _ => rfl, fun _ hp => (by cases hp),
    fun _ _ hp => (by cases hp), Trace.founded_nil⟩

/-- An entry that is no commit leaves the last commit. -/
theorem Inv.note (h : Inv c s) {e : HomeEntry} {calls : ℕ → Option CallPC}
    (he : lastCommitted (e :: s.log) = lastCommitted s.log) (hj : Justified c s.log e)
    (hcalls : ∀ i pc, calls i = some pc → CallOk c (e :: s.log) i pc) :
    Inv c { s with calls := calls, log := e :: s.log } :=
  ⟨h.polls, fun hnone => h.blank (he.symm.trans hnone), fun p hp => h.last p (he.symm.trans hp),
    hcalls, hj, h.founded⟩

/-- A call moves on without a trace. -/
theorem Inv.setCalls (h : Inv c s) {calls : ℕ → Option CallPC}
    (hcalls : ∀ i pc, calls i = some pc → CallOk c s.log i pc) :
    Inv c { s with calls := calls } :=
  ⟨h.polls, h.blank, h.last, hcalls, h.founded⟩

/-- A poll moves on. -/
theorem Inv.setPolls (h : Inv c s) {polls : ℕ → Option Polling}
    (hpolls : ∀ i p, polls i = some p → p.poll.Sound) : Inv c { s with polls := polls } :=
  ⟨hpolls, h.blank, h.last, h.calls, h.founded⟩

/-- **The step.**

**Proof sketch.** A commit replaces what the client holds and the last poll alike; a call is
admitted by what the client holds. -/
theorem inv_step (h : Inv c s) {e : HomeEvent} (hs : step c s e = some s') : Inv c s' := by
  cases e with
  | advance d =>
    obtain rfl := Option.some.inj hs
    exact ⟨h.polls, h.blank, h.last, h.calls, h.founded⟩
  | replaceOverlay overlay =>
    obtain rfl := Option.some.inj hs
    exact ⟨h.polls, h.blank, h.last, h.calls, h.founded⟩
  | startPoll i bs ss as =>
    simp only [step] at hs
    split_ifs at hs
    obtain rfl := Option.some.inj hs
    exact h.setPolls (Threads.all_update Poll.sound_empty fun k p _ hk => h.polls k p hk)
  | answer i answer =>
    simp only [step] at hs
    split at hs
    · next slot slots p hpoll =>
      obtain rfl := Option.some.inj hs
      have hsound : p.Sound := h.polls i _ hpoll
      exact h.setPolls (Threads.all_update (Poll.sound_fetch hsound slot answer s.now)
        fun k p' _ hk => h.polls k p' hk)
    · cases hs
  | commit i =>
    simp only [step] at hs
    split at hs
    · next p hpoll =>
      obtain rfl := Option.some.inj hs
      have hsound : p.Sound := h.polls i _ hpoll
      refine ⟨fun k p' hk => h.polls k p' (Threads.removed_eq_some hk).2, fun hnone => ?_,
        fun poll hlast => ?_, fun k pc hk => (h.calls k pc hk).cons nofun, trivial, h.founded⟩
      · cases hnone
      · obtain rfl := Option.some.inj hlast
        exact ⟨rfl, rfl, hsound⟩
    · cases hs
  | message i msg =>
    simp only [step] at hs
    split at hs
    · next call hreply =>
      split_ifs at hs <;> obtain rfl := Option.some.inj hs
      · obtain ⟨c', hc', -, hp⟩ := permitted_of_handleMessage hreply
        obtain rfl := Option.some.inj hc'
        exact h.setCalls (Threads.all_update hp fun k pc _ hk => h.calls k pc hk)
      · exact h
    · obtain rfl := Option.some.inj hs
      exact h
  | validate i =>
    simp only [step] at hs
    split at hs
    · next call hcall =>
      have hp : Permitted c call := h.calls i _ hcall
      split_ifs at hs with hv <;> obtain rfl := Option.some.inj hs
      · refine h.note rfl trivial (Threads.all_update ?_ fun k pc hne hk =>
          (h.calls k pc hk).cons (call?_ne hne))
        exact ⟨s.now, Trace.AddedSince.now _ _ (authorised_of_validate h hp hv)⟩
      · exact h.setCalls fun k pc hk => h.calls k pc (Threads.removed_eq_some hk).2
    · cases hs
  | post i =>
    simp only [step] at hs
    split at hs
    · next call hcall =>
      obtain rfl := Option.some.inj hs
      refine h.note rfl (h.calls i _ hcall) fun k pc hk => ?_
      obtain ⟨hne, hold⟩ := Threads.removed_eq_some hk
      exact (h.calls k pc hold).cons (call?_ne hne)
    · cases hs

/-- The invariant holds in every run. -/
theorem inv_of_reachable (h : Transition.Reachable (step c) (fun _ _ => True) Init s) : Inv c s :=
  h.invariant (fun _ => inv_init) fun _ _ _ hinv _ hs => inv_step hinv hs

/-! ## Authorisation -/

/-- **Authorisation.** Every request to Home Assistant is one that the configuration permits. The
call passed the check before it and did nothing in between, and the poll that was the last committed
one at the check has seen the entity in a usable state at most thirty seconds before and recorded
bounds around the number. -/
theorem posts_authorised (c : Client) {s : Home}
    (h : Transition.Reachable (step c) (fun _ _ => True) Init s) :
    ∀ later i call earlier, s.log = later ++ .posted i call :: earlier →
      ∃ time later' earlier' poll, earlier = later' ++ .admitted i call time :: earlier' ∧
        (∀ e ∈ later', e.call? ≠ some i) ∧ lastCommitted earlier' = some poll ∧
          Authorised c call poll time := by
  intro later i call earlier heq
  obtain ⟨time, later', earlier', hlog, hquiet, poll, hlast, hauth⟩ :=
    Trace.founded_iff.mp (inv_of_reachable h).founded later _ earlier heq
  exact ⟨time, later', earlier', poll, hlog, hquiet, hlast, hauth⟩

/-- A client with one light. -/
def lightClient : Client :=
  newClient { switchEntities := [{ key := "home_light", entity := "light.kitchen" }] } true

/-- A poll with one answer. -/
def pollRun (i : ℕ) (answer : Option EntityState) : List HomeEvent :=
  [.startPoll i [] [] [], .answer i answer, .commit i]

/-- The light is seen and toggled. -/
def toggledRun : List HomeEvent :=
  pollRun 0 (some { entityID := "light.kitchen", state := "on" }) ++
    [.message 0 { action := "toggle", entity := "light.kitchen" }, .validate 0, .post 0]

/-- A poll that does not see the light commits between the check and the request. -/
def overtakenRun : List HomeEvent :=
  pollRun 0 (some { entityID := "light.kitchen", state := "on" }) ++
    [.message 0 { action := "toggle", entity := "light.kitchen" }, .validate 0] ++
    pollRun 1 none ++ [.post 0]

/-- The latest entry is a request. -/
def posted (s : Home) : Bool :=
  match s.log with
  | .posted _ _ :: _ => true
  | _ => false

/-- The latest entry is a request, and the poll that was the last committed one before it has had no
answer at all. -/
def postedUnseen (s : Home) : Bool :=
  match s.log with
  | .posted _ _ :: earlier => (lastCommitted earlier).any fun poll => poll.responses.isEmpty
  | _ => false

/-- A request is made and authorised. -/
theorem posts_authorised_toggled : ∃ s : Home,
    Transition.Reachable (step lightClient) (fun _ _ => True) Init s ∧ posted s = true ∧
      ∀ later i call earlier, s.log = later ++ .posted i call :: earlier →
        ∃ time later' earlier' poll, earlier = later' ++ .admitted i call time :: earlier' ∧
          (∀ e ∈ later', e.call? ≠ some i) ∧ lastCommitted earlier' = some poll ∧
            Authorised lightClient call poll time := by
  obtain ⟨s, hs, hp⟩ := Transition.Reachable.exists_of_run (step lightClient) (fun _ _ => True)
    toggledRun posted (show Init {} from rfl)
    (Transition.Allowed.of_forall (fun _ _ => trivial) _) (by decide)
  exact ⟨s, hs, hp, posts_authorised lightClient hs⟩

/-- The lock is left before the request is made, so another poll may commit in between: the last
committed poll at the request need not have seen the entity. -/
theorem not_observed_by_lastCommitted : ¬ ∀ (c : Client) (s : Home),
    Transition.Reachable (step c) (fun _ _ => True) Init s →
    ∀ later i call earlier, s.log = later ++ .posted i call :: earlier →
      ∃ poll, lastCommitted earlier = some poll ∧
        ∃ r ∈ poll.responses, r.entity = call.entity ∧ usable call.entity r.doc.state = true := by
  intro hall
  obtain ⟨s, hs, hp⟩ := Transition.Reachable.exists_of_run (step lightClient) (fun _ _ => True)
    overtakenRun postedUnseen (show Init {} from rfl)
    (Transition.Allowed.of_forall (fun _ _ => trivial) _) (by decide)
  unfold postedUnseen at hp
  split at hp
  · next i call earlier hlog =>
    obtain ⟨poll, hlast, r, hr, -⟩ := hall lightClient s hs [] i call earlier hlog
    rw [hlast, Option.any_some, List.isEmpty_iff] at hp
    rw [hp] at hr
    cases hr
  · cases hp

end Home

end HomeAssistant

end Dashboard
