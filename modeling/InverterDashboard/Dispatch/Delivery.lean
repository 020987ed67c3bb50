import InverterDashboard.Dispatch.Transports
import InverterDashboard.State.Nesting

set_option relaxedAutoImplicit false
set_option autoImplicit false

/-!
# Delivery of the orders

What leaves the program for a message of a browser is the order that the message asks for, at the
address of the order, and its body is read as the payload of the order. On LAN and over the gateway
these are the same payloads, and the gateway takes every order it has a command for.

## Main definitions

* `Dashboard.WebSocket.Order.onLan`, `Dashboard.WebSocket.Order.onGateway` — where an order goes,
  and with which payload.
* `Dashboard.WebSocket.Carries` — a body that is read as a payload.
* `Dashboard.WebSocket.Sent` — an effect delivers an order.

## Main results

* `Dashboard.WebSocket.sent_of_unmarshal` — what leaves for the bytes of a browser.
* `Dashboard.WebSocket.agree_of_unmarshal` — the two transports agree.
-/

namespace Dashboard

open Go

namespace WebSocket

/-! ## Addresses and payloads -/

/-- The topic of an order on LAN and what is published there. -/
def Order.onLan (c : Client) : Order → String × Any
  | .flag f on => ("inverter/cmd/toggle", flagPayload f.name on)
  | .dryRun on => ("inverter/cmd/dry_run", .object [("value", .bool on)])
  | .toggleESS => ("inverter/cmd/ess_mode", .object [])
  | .selectESS choice id => ("inverter/cmd/set_ess_mode", essPayload (.string choice.name) id.text)
  | .override value id => ("inverter/cmd/setpoint_override", overridePayload value.value id.text)
  | .tariff plan revision id =>
    ("inverter/cmd/electricity_tariff", tariffPayload plan.value revision.text id.text)
  | .water d mode =>
    ("W/" ++ c.portalID ++ "/pump/" ++ itoa (c.waterInstance d) ++ "/Mode",
      .object [("value", .int mode.value)])
  | .acknowledge .. =>
    ("W/" ++ c.portalID ++ "/platform/0/Notifications/AcknowledgeAll", .object [("value", .int 1)])
  | .silence _ =>
    ("W/" ++ c.portalID ++ "/vebus/0/Alarm", .object [("SilenceAlarm", .string "1")])
  | .setpoint value => ("inverter/cmd/setpoint", .object [("value", value)])
  | .limits min max =>
    ("inverter/cmd/limits", .object [("min", .float64 min), ("max", .float64 max)])
  | .loopInterval seconds =>
    ("inverter/cmd/loop_interval", .object [("interval", .float64 seconds)])
  | .toggle entity => ("inverter/cmd/toggle", entityPayload entity.name)
  | .press entity => ("inverter/cmd/press", entityPayload entity.name)

/-- The path of an order on the gateway and what is posted there. -/
def Order.onGateway (instances : WaterDevice → ℤ) : Order → Option (String × Any)
  | .flag f on => some ("/v1/commands/toggle", flagPayload f.name on)
  | .dryRun on => some ("/v1/commands/dry_run", .object [("value", .bool on)])
  | .toggleESS => some ("/v1/commands/ess_mode", .object [])
  | .selectESS choice id =>
    some ("/v1/commands/set_ess_mode", essPayload (.string choice.name) id.text)
  | .override value id =>
    some ("/v1/commands/setpoint_override", overridePayload value.value id.text)
  | .tariff plan revision id =>
    some ("/v1/commands/electricity_tariff", tariffPayload plan.value revision.text id.text)
  | .water d mode =>
    some ("/v1/commands/water_mode",
      .object [("instance", .int (instances d)), ("mode", .int mode.value)])
  | .acknowledge _ id => some ("/v1/commands/acknowledge_all_notifications", bannerPayload id)
  | .silence id => some ("/v1/commands/silence_alarm", bannerPayload id)
  | .setpoint _ | .limits .. | .loopInterval _ | .toggle _ | .press _ => none

/-- The body is read as the tree of the payload. -/
def Carries (format : ℚ → Number) (body : List UInt8) (payload : Any) : Prop :=
  ∃ t, payload.tree format = some t ∧ parseJson body = some t

/-- An effect delivers an order: on LAN, or over the gateway. -/
def Sent (format : ℚ → Number) (c : Client) (o : Order) : Effect → Prop
  | .publish topic body => topic = (o.onLan c).1 ∧ Carries format body (o.onLan c).2
  | .post path body => ∃ p, o.onGateway c.waterInstance = some p ∧ path = p.1 ∧
    Carries format body p.2

/-! ## What is decoded can be written -/

/-- A member of a struct is decoded such that a property is kept. -/
theorem unmarshalFields_invariant {σ : Type} {tags : List (Tag σ)} {P : σ → Prop}
    {fs : List (String × Json)}
    (h : ∀ e ∈ fs, ∀ t ∈ tags, ∀ s s', P s → t.decode e.2 s = some s' → P s') {s s' : σ}
    (hs : unmarshalFields tags fs s = some s') (hP : P s) : P s' := by
  induction fs generalizing s with
  | nil =>
    obtain rfl := Option.some.inj hs
    exact hP
  | cons e fs ih =>
    obtain ⟨k, j⟩ := e
    have hrest := fun {s} => @ih (fun e he => h e (List.mem_cons_of_mem _ he)) s
    unfold unmarshalFields at hs
    cases hk : lookupTag tags k with
    | none =>
      rw [hk] at hs
      exact hrest hs hP
    | some t =>
      rw [hk] at hs
      obtain ⟨s₁, hs₁, hs⟩ := Option.bind_eq_some_iff.mp hs
      exact hrest hs (h (k, j) List.mem_cons_self t (lookupTag_mem hk).1 s s₁ hP hs₁)

variable {format : ℚ → Number}

/-- The members of a message that become part of a command can be written. -/
structure Message.Writable (format : ℚ → Number) (d : ℕ) (m : Message) : Prop where
  value : m.value.Written format d
  plan : m.plan.Written format d
  min : (Any.float64 m.min).Written format d
  max : (Any.float64 m.max).Written format d
  interval : (Any.float64 m.interval).Written format d

theorem written_of_float64 {j : Json} {x y : F64} {d : ℕ} (h : Unmarshal.float64 j x = some y)
    (hx : (Any.float64 x).Written format d) : (Any.float64 y).Written format d := by
  unfold Unmarshal.float64 at h
  split at h
  · exact Option.some.inj h ▸ hx
  · split at h
    · obtain rfl := Option.some.inj h
      exact Any.written_float64 d _
    · cases h
  · cases h

theorem written_of_any {j : Json} {a b : Any} {d : ℕ} (h : Unmarshal.any j a = some b)
    (hd : j.depth ≤ d) : b.Written format d := (written_of_toAny h).mono hd

/-- Decoding a member keeps what can be written. -/
theorem Message.Writable.decode {d : ℕ} {m m' : Message} (hm : m.Writable format d) {j : Json}
    (hd : j.depth ≤ d) {t : Tag Message} (ht : t ∈ Message.tags) (h : t.decode j m = some m') :
    m'.Writable format d := by
  simp only [Message.tags, List.mem_cons, List.not_mem_nil, or_false] at ht
  rcases ht with rfl | rfl | rfl | rfl | rfl | rfl | rfl | rfl | rfl | rfl | rfl | rfl | rfl |
    rfl | rfl | rfl <;> obtain ⟨x, hx, rfl⟩ := Option.map_eq_some_iff.mp h <;>
    first
    | exact ⟨hm.value, hm.plan, hm.min, hm.max, hm.interval⟩
    | exact { hm with plan := written_of_any hx hd }
    | exact { hm with value := written_of_any hx hd }
    | exact { hm with min := written_of_float64 hx hm.min }
    | exact { hm with max := written_of_float64 hx hm.max }
    | exact { hm with interval := written_of_float64 hx hm.interval }

/-- The members of a decoded struct can be written. -/
theorem writable_of_unmarshalStruct {j : Json} {m : Message} (hj : j.depth ≤ maxNestingDepth)
    (h : unmarshalStruct Message.tags j {} = some m) :
    m.Writable format (maxNestingDepth - 1) := by
  have hempty : Message.Writable format (maxNestingDepth - 1) {} :=
    ⟨Any.written_nil _, Any.written_nil _, Any.written_float64 _ 0, Any.written_float64 _ 0,
      Any.written_float64 _ 0⟩
  cases j with
  | null =>
    obtain rfl := Option.some.inj h
    exact hempty
  | obj fs =>
    rw [Json.depth] at hj
    have hfs : ∀ e ∈ fs, e.2.depth ≤ maxNestingDepth - 1 :=
      Json.fieldsDepth_le_iff.mp (Nat.le_sub_of_add_le hj)
    exact unmarshalFields_invariant
      (fun e he t ht m m' hm hdecode => hm.decode (hfs e he) ht hdecode) h hempty
  | bool | num | str | arr => cases h

/-- Of the actions with an envelope, only an override is decoded twice. -/
theorem unmarshalStruct_of_unmarshalTree {j : Json} {m : Message}
    (h : Message.unmarshalTree j = some m) (haction : m.action ≠ "set_setpoint_override") :
    unmarshalStruct Message.tags j {} = some m := by
  unfold Message.unmarshalTree at h
  obtain ⟨decoded, hdecoded, h⟩ := Option.bind_eq_some_iff.mp h
  rw [hdecoded]
  by_cases hid : decoded.requestID ≠ "" ∧ validRequestID decoded.requestID = false
  · rw [if_pos hid] at h
    cases h
  rw [if_neg hid] at h
  by_cases hoverride : decoded.action = "set_setpoint_override"
  · simp only [hoverride, true_or, or_true, if_true] at h
    obtain ⟨fields, -, h⟩ := Option.bind_eq_some_iff.mp h
    rw [if_neg fun hboth => absurd hboth.1 (by decide)] at h
    split_ifs at h
    obtain rfl := Option.some.inj h
    exact absurd rfl haction
  · by_cases hexplicit : decoded.action = "set_ess_mode" ∨
        decoded.action = "set_setpoint_override" ∨ decoded.action = "electricity_tariff"
    · rw [if_pos hexplicit] at h
      obtain ⟨fields, -, h⟩ := Option.bind_eq_some_iff.mp h
      rw [if_neg hoverride, if_neg hoverride] at h
      dsimp only at h
      split_ifs at h
      all_goals exact h
    · rw [if_neg hexplicit] at h
      exact h

/-- What is received can be written, unless it is an override. -/
theorem writable_of_unmarshal {data : List UInt8} {m : Message}
    (h : Message.unmarshal data = some m) (haction : m.action ≠ "set_setpoint_override") :
    m.Writable format (maxNestingDepth - 1) := by
  obtain ⟨j, hparse, htree⟩ := Option.bind_eq_some_iff.mp h
  exact writable_of_unmarshalStruct (depth_of_parseJson hparse)
    (unmarshalStruct_of_unmarshalTree htree haction)

/-! ## Orders that can be written -/

/-- The payloads of an order can be written and read. -/
def Order.Writable (format : ℚ → Number) : Order → Prop
  | .tariff plan _ _ => plan.value.Written format (maxNestingDepth - 1)
  | .setpoint value => value.Written format (maxNestingDepth - 1)
  | .limits min max => (Any.float64 min).Written format (maxNestingDepth - 1) ∧
    (Any.float64 max).Written format (maxNestingDepth - 1)
  | .loopInterval seconds => (Any.float64 seconds).Written format (maxNestingDepth - 1)
  | _ => True

/-- A third of a second can be written. -/
theorem written_loopSeconds {m : Message} {d : ℕ}
    (h : (Any.float64 m.interval).Written format d) :
    (Any.float64 m.loopSeconds).Written format d := by
  unfold Message.loopSeconds
  split_ifs
  · have hthird : F64.ofRat (33 / 100) = .fin (33 / 100) := by decide +kernel
    rw [hthird]
    exact Any.written_float64 d _
  · exact h

/-- The order that a received message asks for can be written. -/
theorem Asks.writable {v : View} {data : List UInt8} {m : Message} {o : Order} (h : Asks v m o)
    (hm : Message.unmarshal data = some m) : o.Writable format := by
  cases h with
  | tariff haction hplan hrevision hid =>
    rw [Order.Writable, ← hplan]
    exact (writable_of_unmarshal hm (by rw [haction]; decide)).plan
  | setpoint haction => exact (writable_of_unmarshal hm (by rw [haction]; decide)).value
  | limits haction =>
    have hw := @writable_of_unmarshal format _ _ hm (by rw [haction]; decide)
    exact ⟨hw.min, hw.max⟩
  | loopInterval haction =>
    exact written_loopSeconds (writable_of_unmarshal hm (by rw [haction]; decide)).interval
  | _ => trivial

/-- An override is a number or nil. -/
theorem OverrideValue.written (v : OverrideValue) (d : ℕ) : v.value.Written format d := by
  obtain ⟨value, hint⟩ := v
  cases value with
  | nil => exact Any.written_nil d
  | number n => exact Any.written_number d n
  | int n => exact Any.written_int d n
  | float64 x =>
    cases x with
    | fin q => exact Any.written_float64 d q
    | nan => cases hint
    | inf s => cases hint
  | bool | string | list | object => cases hint

theorem one_le_maxNestingDepth : maxNestingDepth - 1 + 1 = maxNestingDepth := by decide

/-- A payload whose values can be written. -/
theorem written_payload {fs : List (String × Any)}
    (h : ∀ f ∈ fs, f.2.Written format (maxNestingDepth - 1)) :
    (Any.object fs).Written format maxNestingDepth :=
  one_le_maxNestingDepth ▸ Any.written_object h

/-- The payload of an order on LAN can be written. -/
theorem Order.Writable.onLan {o : Order} (h : o.Writable format) (c : Client) :
    (o.onLan c).2.Written format maxNestingDepth := by
  cases o with
  | flag f on => exact written_payload (by simp)
  | dryRun on => exact written_payload (by simp)
  | toggleESS => exact written_payload (by simp)
  | selectESS choice id => exact written_payload (by simp)
  | override value id => exact written_payload (by simp [value.written])
  | tariff plan revision id => exact written_payload (by simpa [Order.Writable] using h)
  | water d mode => exact written_payload (by simp)
  | acknowledge name id => exact written_payload (by simp)
  | silence id => exact written_payload (by simp)
  | setpoint value => exact written_payload (by simpa [Order.Writable] using h)
  | limits min max => exact written_payload (by simpa [Order.Writable] using h)
  | loopInterval seconds => exact written_payload (by simpa [Order.Writable] using h)
  | toggle entity => exact written_payload (by simp)
  | press entity => exact written_payload (by simp)

/-- The payload of an order on the gateway can be written. -/
theorem Order.Writable.onGateway {o : Order} (h : o.Writable format) {instances : WaterDevice → ℤ}
    {p : String × Any} (hp : o.onGateway instances = some p) :
    p.2.Written format maxNestingDepth := by
  cases o <;> simp only [Order.onGateway, Option.some.injEq, reduceCtorEq] at hp <;> subst hp
  case override value id => exact written_payload (by simp [value.written])
  case tariff plan revision id => exact written_payload (by simpa [Order.Writable] using h)
  case acknowledge name id => exact written_payload (by simp)
  all_goals exact written_payload (by simp)

/-! ## Bodies -/

/-- What `EncodeControllerCommand` writes carries the payload. -/
theorem carries_encode {payload : Any} (h : payload.Written format maxNestingDepth) :
    ∃ body, encodeControllerCommand format payload = some body ∧ Carries format body payload := by
  obtain ⟨t, ht, hdepth⟩ := h
  refine ⟨utf8Bytes t.text, ?_, t, ht, parseJson_text hdepth⟩
  rw [encodeControllerCommand, ht]
  rfl

/-- What `json.Marshal` writes carries the payload. -/
theorem carries_marshal {payload : Any} (h : payload.Written format maxNestingDepth) :
    ∃ t, payload.tree format = some t ∧
      Carries format (utf8Bytes (Push.marshalText t)) payload := by
  obtain ⟨t, ht, hdepth⟩ := h
  exact ⟨t, ht, t, ht, Push.parseJson_marshalText hdepth⟩

/-- A text that spells a tree carries the payload of the tree. -/
theorem carries_text {payload : Any} {t : Json} {text : String}
    (htree : payload.tree format = some t) (htext : text.toList = t.text)
    (hdepth : t.depth ≤ maxNestingDepth) : Carries format (textBytes text) payload :=
  ⟨t, htree, by rw [textBytes, htext]; exact parseJson_text hdepth⟩

theorem carries_value (n : ℤ) : Carries format (textBytes ("\x7b\"value\":" ++ itoa n ++ "\x7d"))
    (.object [("value", .int n)]) := by
  refine carries_text (t := .obj [("value", .num (Number.ofInt n))]) rfl ?_ (by
    simp [Json.depth, Json.fieldsDepth, maxNestingDepth])
  have hopen : "\x7b\"value\":".toList = '\x7b' :: (quoteString "value" ++ [':']) := by decide
  have hnumber : (Json.num (Number.ofInt n)).text = (itoa n).toList := Push.text_ofInt n
  rw [String.toList_append, String.toList_append, hopen, Json.text, hnumber, Json.fieldsText]
  simp

theorem carries_acknowledge :
    Carries format (textBytes "\x7b\"value\":1\x7d") (.object [("value", .int 1)]) :=
  carries_value 1

theorem carries_silence : Carries format (textBytes "\x7b\"SilenceAlarm\":\"1\"\x7d")
    (.object [("SilenceAlarm", .string "1")]) :=
  carries_text (t := .obj [("SilenceAlarm", .str "1")]) rfl (by decide +kernel) (by
    simp [Json.depth, Json.fieldsDepth, maxNestingDepth])

/-- The body of a map is neither empty nor null. -/
theorem Carries.ne_null {body : List UInt8} {fs : List (String × Any)}
    (h : Carries format body (.object fs)) :
    (body.isEmpty || body == textBytes "null") = false := by
  obtain ⟨t, htree, hparse⟩ := h
  obtain ⟨ts, -, rfl⟩ := Option.map_eq_some_iff.mp htree
  have hempty : parseJson [] = none := by decide +kernel
  have hnull : (parseJson (textBytes "null")).any (fun j => j.depth == 0) = true := by
    decide +kernel
  rw [Bool.or_eq_false_iff]
  refine ⟨?_, ?_⟩
  · cases body with
    | nil => rw [hempty] at hparse; cases hparse
    | cons b body => rfl
  · rw [beq_eq_false_iff_ne]
    rintro rfl
    rw [hparse] at hnull
    simp [Json.depth] at hnull

/-! ## Over the gateway -/

/-- The action and the payload that a gateway publisher gets. -/
def Instruction.handed (instances : WaterDevice → ℤ) : Instruction → String × Any
  | .command action payload => (action, payload)
  | .water d mode =>
    ("water_mode", .object [("instance", .int (instances d)), ("mode", .int mode)])

/-- The order passes the test of the whole tariff; the tests of the other payloads are parts of
the orders. -/
def Order.Valid (format : ℚ → Number) : Order → Prop
  | .tariff plan revision id =>
    tariffValid format (tariffPayload plan.value revision.text id.text) = true
  | _ => True

/-- The orders of the Cerbo that need no snapshot. -/
def Order.isAlarm : Order → Bool
  | .acknowledge .. | .silence _ => true
  | _ => false

/-- The instance of a water device is one that the gateway takes. -/
def Order.addressed (instances : WaterDevice → ℤ) : Order → Bool
  | .water d _ => decide (0 ≤ instances d)
  | _ => true

/-- The flags are their own names. -/
theorem flagName_controlFlag (f : ControlFlag) :
    isControlFlag f.name = true ∧ flagName f.name = f.name := by
  have hall : ∀ name ∈ controlFlags, isControlFlag name = true ∧ flagName name = name := by
    decide +kernel
  exact hall f.name f.known

theorem normalizeToggle_flag (f : ControlFlag) (on : Bool) :
    Gateway.normalizeToggleCommand [("entity", .string f.name), ("state", .string (onOff on))] =
      .ok (flagPayload f.name on) := by
  obtain ⟨hflag, hname⟩ := flagName_controlFlag f
  have hentity : entry [("entity", Any.string f.name), ("state", .string (onOff on))] "entity" =
      some (.string f.name) := rfl
  have hstate : entry [("entity", Any.string f.name), ("state", .string (onOff on))] "state" =
      some (.string (onOff on)) := rfl
  have hbool : controlBool (.string (onOff on)) = some on := by cases on <;> decide +kernel
  unfold Gateway.normalizeToggleCommand
  simp only [hentity, hstate, Option.bind_some, Any.string?, hflag, Option.getD_some, hbool, hname]
  rfl

theorem normalizeToggle_entity (entity : String) : Gateway.normalizeToggleCommand
    [("entity", .string entity)] = .error Gateway.invalidControllerPayload := by
  have hentity : entry [("entity", Any.string entity)] "entity" = some (.string entity) := rfl
  unfold Gateway.normalizeToggleCommand
  simp [hentity, Any.string?]

theorem normalizeWater (n mode : ℤ) :
    Gateway.normalizeWaterCommand [("instance", .int n), ("mode", .int mode)] =
      if 0 ≤ n ∧ 0 ≤ mode ∧ mode ≤ 2 then
        .ok (.object [("instance", .int n), ("mode", .int mode)])
      else .error Gateway.invalidControllerPayload := by
  have hinstance : entry [("instance", Any.int n), ("mode", .int mode)] "instance" =
      some (.int n) := rfl
  have hmode : entry [("instance", Any.int n), ("mode", .int mode)] "mode" =
      some (.int mode) := rfl
  unfold Gateway.normalizeWaterCommand
  simp [hinstance, hmode, Gateway.commandInteger, and_assoc]

theorem validateESSSelection_choice (choice : ESSChoice) (id : RequestID) :
    validateESSSelection (essPayload (.string choice.name) id.text) = true := by
  have hmode : entry [("mode", Any.string choice.name), ("request_id", .string id.text)] "mode" =
      some (.string choice.name) := rfl
  have hid : entry [("mode", Any.string choice.name), ("request_id", .string id.text)]
      "request_id" = some (.string id.text) := rfl
  have hchoice := List.contains_iff_mem.mpr choice.known
  rw [essChoices] at hchoice
  simp only [validateESSSelection, essPayload, Any.object?, hmode, hid, Option.bind_some,
    Any.string?, Option.any_some, id.valid, hchoice]
  rfl

theorem validateOverride_order (value : OverrideValue) (id : RequestID) :
    validateOverride (overridePayload value.value id.text) = true := by
  have h := (validateOverride_payload
    (m := { value := value.value, requestID := id.text })).mpr ⟨value.int32, id.valid⟩
  exact h

/-- How the gateway takes a command. -/
structure Route (format : ℚ → Number) (c : String × Any) (p : String × Any) (alarm : Bool)
    (name : String) : Prop where
  mapped : Gateway.mapDashboardAction c.1 = some name
  allowed : Gateway.isWhitelistedCommand name = true
  path : p.1 = "/v1/commands/" ++ name
  body : Gateway.normalizeControllerCommand format name c.2 = .ok p.2
  snapshot : Gateway.needsSnapshot name = !alarm
  given : c.2.isNil = false
  object : p.2.object?.isSome = true

/-- An order for which the gateway has a command is taken. -/
theorem exists_route {o : Order} (hvalid : o.Valid format) {instances : WaterDevice → ℤ}
    {p : String × Any} (hp : o.onGateway instances = some p)
    (haddressed : o.addressed instances = true) :
    ∃ name, Route format (o.instruction.handed instances) p o.isAlarm name := by
  cases o with
  | flag f on =>
    obtain rfl := Option.some.inj hp
    exact ⟨"toggle", rfl, by decide, rfl, normalizeToggle_flag f on, rfl, rfl, rfl⟩
  | dryRun on =>
    obtain rfl := Option.some.inj hp
    exact ⟨"dry_run", rfl, by decide, rfl, rfl, rfl, rfl, rfl⟩
  | toggleESS =>
    obtain rfl := Option.some.inj hp
    exact ⟨"ess_mode", rfl, by decide, rfl, rfl, rfl, rfl, rfl⟩
  | selectESS choice id =>
    obtain rfl := Option.some.inj hp
    exact ⟨"set_ess_mode", rfl, by decide, rfl, if_pos (validateESSSelection_choice choice id),
      rfl, rfl, rfl⟩
  | override value id =>
    obtain rfl := Option.some.inj hp
    exact ⟨"setpoint_override", rfl, by decide, rfl, if_pos (validateOverride_order value id),
      rfl, rfl, rfl⟩
  | tariff plan revision id =>
    obtain rfl := Option.some.inj hp
    exact ⟨"electricity_tariff", rfl, by decide, rfl, if_pos hvalid, rfl, rfl, rfl⟩
  | water d mode =>
    obtain rfl := Option.some.inj hp
    have hwater := normalizeWater (instances d) mode.value
    rw [if_pos ⟨of_decide_eq_true haddressed, mode.range⟩] at hwater
    exact ⟨"water_mode", rfl, by decide, rfl, hwater, rfl, rfl, rfl⟩
  | acknowledge name id =>
    obtain rfl := Option.some.inj hp
    exact ⟨"acknowledge_all_notifications", by cases name <;> rfl, by decide, rfl, rfl, rfl,
      rfl, rfl⟩
  | silence id =>
    obtain rfl := Option.some.inj hp
    exact ⟨"silence_alarm", rfl, by decide, rfl, rfl, rfl, rfl, rfl⟩
  | setpoint | limits | loopInterval | toggle | press => cases hp

variable {s : Dispatch}

/-- An order that is taken is posted as soon as the snapshot allows it. -/
theorem Route.publish {c p : String × Any} {alarm : Bool} {name : String}
    (h : Route format c p alarm name) (hw : p.2.Written format maxNestingDepth) :
    ∃ body, Carries format body p.2 ∧ s.gatewayPublish format c.1 c.2 =
      if alarm || s.snapshotReady then .ok (.post p.1 body)
      else .error "wait for live supported ESS telemetry with dry run disabled" := by
  obtain ⟨body, hbody, hcarries⟩ := carries_encode hw
  refine ⟨body, hcarries, ?_⟩
  have hnull : (body.isEmpty || body == textBytes "null") = false := by
    obtain ⟨fs, hfs⟩ := Option.isSome_iff_exists.mp h.object
    refine Carries.ne_null (?_ : Carries format body (.object fs))
    cases hp : p.2 <;> rw [hp] at hfs hcarries <;> cases hfs
    exact hcarries
  unfold Dispatch.gatewayPublish
  simp only [h.mapped, h.given, Bool.false_eq_true, if_false]
  simp only [postCommand, h.allowed, h.body, h.snapshot, hbody, hnull, h.path, Bool.not_true,
    Bool.false_eq_true, if_false]
  cases alarm <;> cases s.snapshotReady <;> rfl

/-- The gateway has no command for an order, or it refuses the instance. -/
theorem gatewayPublish_error {o : Order}
    (h : o.onGateway s.client.waterInstance = none ∨ o.addressed s.client.waterInstance = false) :
    ∃ text, s.gatewayPublish format (o.instruction.handed s.client.waterInstance).1
      (o.instruction.handed s.client.waterInstance).2 = .error text := by
  cases o with
  | toggle entity =>
    refine ⟨Gateway.invalidControllerPayload, ?_⟩
    have hnormal : Gateway.normalizeControllerCommand format "toggle"
        (entityPayload entity.name) = .error Gateway.invalidControllerPayload :=
      normalizeToggle_entity entity.name
    show postCommand format s.snapshotReady "toggle" (entityPayload entity.name) = _
    rw [postCommand, if_neg (by decide), hnormal]
  | water d mode =>
    refine ⟨Gateway.invalidControllerPayload, ?_⟩
    have hnegative : ¬ 0 ≤ s.client.waterInstance d := by
      simpa [Order.onGateway, Order.addressed] using h
    have hnormal : Gateway.normalizeControllerCommand format "water_mode"
        (.object [("instance", .int (s.client.waterInstance d)), ("mode", .int mode.value)]) =
        .error Gateway.invalidControllerPayload :=
      (normalizeWater _ _).trans (if_neg fun hall => hnegative hall.1)
    show postCommand format s.snapshotReady "water_mode" (.object _) = _
    rw [postCommand, if_neg (by decide), hnormal]
  | setpoint | limits | loopInterval | press => exact ⟨_, rfl⟩
  | _ => simp [Order.onGateway, Order.addressed] at h

/-! ## On LAN -/

theorem publishGeneric_eq {action : String} {payload : Any} (hnil : payload.isNil = false)
    (hw : payload.Written format maxNestingDepth) :
    ∃ body, Carries format body payload ∧ s.publishGeneric format action payload =
      if !s.current then .error "mqtt source unavailable"
      else if !s.ready action payload then .error "wait for current controller telemetry"
      else .ok (.publish ("inverter/cmd/" ++ action) body) := by
  obtain ⟨t, htree, hcarries⟩ := carries_marshal hw
  refine ⟨_, hcarries, ?_⟩
  simp [Dispatch.publishGeneric, hnil, htree]

theorem publishController_eq {name : String} {payload : Any}
    (hw : payload.Written format maxNestingDepth) :
    ∃ body, Carries format body payload ∧ s.publishControllerCommand format name payload =
      if !s.sameSource then .error "controller source changed"
      else if s.client.gatewayPublish then s.gatewayPublish format name payload
      else if !s.current || !s.ready name payload then .error "controller unavailable"
      else .ok (.publish ("inverter/cmd/" ++ name) body) := by
  obtain ⟨body, hbody, hcarries⟩ := carries_encode hw
  refine ⟨body, hcarries, ?_⟩
  simp [Dispatch.publishControllerCommand, hbody]

/-! ## What the state has to be -/

namespace Dispatch

variable (s : Dispatch)

/-- The broker is connected, and what the order needs to know is fresh. -/
def fresh (o : Order) : Bool :=
  s.current && s.ready (o.instruction.handed s.client.waterInstance).1
    (o.instruction.handed s.client.waterInstance).2

/-- The gateway takes the order. -/
def takes (o : Order) : Bool :=
  (o.onGateway s.client.waterInstance).isSome && o.addressed s.client.waterInstance &&
    (o.isAlarm || s.snapshotReady)

/-- The state in which an order leaves. -/
def accepts (o : Order) : Bool :=
  match o with
  | .override .. | .tariff .. =>
    s.sameSource && bif s.client.gatewayPublish then s.takes o else s.fresh o
  | .water d _ =>
    s.sameSource && bif s.client.gatewayMode then
      s.client.gatewayConnected && s.client.gatewayPublish && s.takes o
    else s.client.waterControlReady d s.now && s.client.connectionOpen
  | .acknowledge .. | .silence _ =>
    bif s.publisher then s.takes o else s.current && validPortal s.client.portalID
  | _ => bif s.publisher then s.takes o else s.fresh o

end Dispatch

/-- A result delivers the order if the state accepts it, and is an error otherwise. -/
structure Verdict (format : ℚ → Number) (s : Dispatch) (o : Order) (accepted : Bool)
    (r : Except String Effect) : Prop where
  sent : ∀ e, r = .ok e → Sent format s.client o e
  accepted : r.toBool = accepted

namespace Verdict

variable {o : Order} {r : Except String Effect} {accepted : Bool}

theorem error (text : String) : Verdict format s o false (.error text) :=
  ⟨by simp, rfl⟩

theorem ok {e : Effect} (h : Sent format s.client o e) : Verdict format s o true (.ok e) :=
  ⟨fun _ he => Except.ok.inj he ▸ h, rfl⟩

/-- A test of the state. -/
theorem guard {c : Bool} {text : String} (h : Verdict format s o accepted r) :
    Verdict format s o (c && accepted) (if !c then .error text else r) := by
  cases c
  · exact error text
  · exact h

/-- A choice between two ways. -/
theorem choose {c : Bool} {other : Except String Effect} {otherwise : Bool}
    (h : c = true → Verdict format s o accepted r)
    (h' : c = false → Verdict format s o otherwise other) :
    Verdict format s o (bif c then accepted else otherwise) (if c then r else other) := by
  cases c
  · exact h' rfl
  · exact h rfl

end Verdict

/-- What the gateway does with an order. -/
theorem verdict_gateway {o : Order} (hvalid : o.Valid format) (hw : o.Writable format) :
    Verdict format s o (s.takes o)
      (s.gatewayPublish format (o.instruction.handed s.client.waterInstance).1
        (o.instruction.handed s.client.waterInstance).2) := by
  unfold Dispatch.takes
  cases hp : o.onGateway s.client.waterInstance with
  | none =>
    obtain ⟨text, htext⟩ := @gatewayPublish_error format _ _ (Or.inl hp)
    rw [htext]
    exact Verdict.error text
  | some p =>
    cases haddressed : o.addressed s.client.waterInstance with
    | false =>
      obtain ⟨text, htext⟩ := @gatewayPublish_error format _ _ (Or.inr haddressed)
      rw [htext]
      exact Verdict.error text
    | true =>
      obtain ⟨name, hroute⟩ := exists_route hvalid hp haddressed
      obtain ⟨body, hcarries, hpublish⟩ := hroute.publish (s := s) (hw.onGateway hp)
      rw [hpublish]
      cases o.isAlarm || s.snapshotReady with
      | false => exact Verdict.error _
      | true => exact Verdict.ok ⟨p, hp, rfl, hcarries⟩

/-- What becomes of the orders that `PublishCommand` sends itself. -/
theorem verdict_generic {o : Order} (hvalid : o.Valid format) (hw : o.Writable format)
    {action : String} {payload : Any} (hi : o.instruction = .command action payload)
    (hcontroller : ¬ (action = "setpoint_override" ∨ action = "electricity_tariff"))
    (halarm : isAlarmAction action = false)
    (hlan : o.onLan s.client = ("inverter/cmd/" ++ action, payload))
    (hnil : payload.isNil = false) :
    Verdict format s o (bif s.publisher then s.takes o else s.fresh o)
      (s.publishCommand format action payload) := by
  have hhanded : o.instruction.handed s.client.waterInstance = (action, payload) := by rw [hi]; rfl
  have hgateway := verdict_gateway (s := s) hvalid hw
  have hpayload := hw.onLan s.client
  rw [hhanded] at hgateway
  rw [hlan] at hpayload
  obtain ⟨body, hcarries, hbody⟩ := @publishGeneric_eq format s action payload hnil hpayload
  rw [Dispatch.publishCommand, if_neg hcontroller, halarm, if_neg Bool.false_ne_true, hbody]
  refine Verdict.choose (fun _ => hgateway) fun _ => ?_
  rw [Dispatch.fresh, hhanded]
  refine Verdict.guard ?_
  have hsent : Sent format s.client o (.publish ("inverter/cmd/" ++ action) body) :=
    ⟨by rw [hlan], by rw [hlan]; exact hcarries⟩
  simpa using Verdict.guard (c := s.ready action payload) (Verdict.ok hsent)

/-- What becomes of the commands of the controller with a result. -/
theorem verdict_controller {o : Order} (hvalid : o.Valid format) (hw : o.Writable format)
    {action : String} {payload : Any} (hi : o.instruction = .command action payload)
    (hcontroller : action = "setpoint_override" ∨ action = "electricity_tariff")
    (hlan : o.onLan s.client = ("inverter/cmd/" ++ action, payload)) :
    Verdict format s o
      (s.sameSource && bif s.client.gatewayPublish then s.takes o else s.fresh o)
      (s.publishCommand format action payload) := by
  have hhanded : o.instruction.handed s.client.waterInstance = (action, payload) := by rw [hi]; rfl
  have hgateway := verdict_gateway (s := s) hvalid hw
  have hpayload := hw.onLan s.client
  rw [hhanded] at hgateway
  rw [hlan] at hpayload
  obtain ⟨body, hcarries, hbody⟩ := @publishController_eq format s action payload hpayload
  rw [Dispatch.publishCommand, if_pos hcontroller, hbody]
  refine Verdict.guard (Verdict.choose (fun _ => hgateway) fun _ => ?_)
  rw [Dispatch.fresh, hhanded, ← Bool.not_and]
  have hsent : Sent format s.client o (.publish ("inverter/cmd/" ++ action) body) :=
    ⟨by rw [hlan], by rw [hlan]; exact hcarries⟩
  simpa using Verdict.guard (c := s.current && s.ready action payload) (Verdict.ok hsent)

/-- What becomes of the orders about alarms on LAN. -/
theorem verdict_cerbo {o : Order} {action : String}
    (h : (action = "silence_alarm" ∧ ∃ id, o = .silence id) ∨
      (action ≠ "silence_alarm" ∧ ∃ name id, o = .acknowledge name id)) :
    Verdict format s o (s.current && validPortal s.client.portalID)
      (s.publishCerboAlarmCommand action) := by
  have hsplit : (s.current && validPortal s.client.portalID) =
      (!(s.client.gatewayMode || !s.sameSource) && (validPortal s.client.portalID &&
        (s.client.connectionOpen && true))) := by
    rw [Dispatch.current]
    cases s.sameSource <;> cases s.client.gatewayMode <;> cases s.client.connectionOpen <;> simp
  rw [hsplit, Dispatch.publishCerboAlarmCommand, ← Bool.not_not (s.client.gatewayMode || _),
    Bool.not_not]
  refine Verdict.guard (Verdict.guard (Verdict.guard ?_))
  rcases h with ⟨haction, id, rfl⟩ | ⟨haction, name, id, rfl⟩
  · rw [if_pos haction]
    exact Verdict.ok ⟨rfl, carries_silence⟩
  · rw [if_neg haction]
    exact Verdict.ok ⟨rfl, carries_acknowledge⟩

/-- What becomes of the orders about alarms. -/
theorem verdict_alarm {o : Order} (hvalid : o.Valid format) (hw : o.Writable format)
    {action : String} {payload : Any} (hi : o.instruction = .command action payload)
    (halarm : isAlarmAction action = true)
    (h : (action = "silence_alarm" ∧ ∃ id, o = .silence id) ∨
      (action ≠ "silence_alarm" ∧ ∃ name id, o = .acknowledge name id)) :
    Verdict format s o
      (bif s.publisher then s.takes o else s.current && validPortal s.client.portalID)
      (s.publishCommand format action payload) := by
  have hhanded : o.instruction.handed s.client.waterInstance = (action, payload) := by rw [hi]; rfl
  have hgateway := verdict_gateway (s := s) hvalid hw
  rw [hhanded] at hgateway
  have hcontroller : ¬ (action = "setpoint_override" ∨ action = "electricity_tariff") := by
    rintro (rfl | rfl) <;> exact absurd halarm (by decide)
  rw [Dispatch.publishCommand, if_neg hcontroller, if_pos halarm]
  exact Verdict.choose (fun _ => hgateway) fun _ => verdict_cerbo h

/-- What becomes of the mode of a water device. -/
theorem verdict_water {d : WaterDevice} {mode : WaterMode} :
    Verdict format s (.water d mode) (s.accepts (.water d mode))
      (s.setWaterMode format d mode.value) := by
  have hgateway := @verdict_gateway format s (.water d mode) trivial trivial
  unfold Dispatch.setWaterMode
  refine Verdict.guard (Verdict.choose (fun _ => ?_) fun _ => ?_)
  · rw [← Bool.not_and]
    exact Verdict.guard hgateway
  · have hsent : Sent format s.client (.water d mode) (.publish
        ("W/" ++ s.client.portalID ++ "/pump/" ++ itoa (s.client.waterInstance d) ++ "/Mode")
        (textBytes ("\x7b\"value\":" ++ itoa mode.value ++ "\x7d"))) :=
      ⟨rfl, carries_value mode.value⟩
    simpa using Verdict.guard (c := s.client.waterControlReady d s.now)
      (Verdict.guard (c := s.client.connectionOpen) (Verdict.ok hsent))

/-- **What becomes of an order**: it leaves if the state accepts it, and then it arrives as it is.

**Proof sketch.** One case for each order. Its payload can be written, so that the body is read as
the payload, and the gateway normalizes the payload to itself. -/
theorem verdict_send {o : Order} (hvalid : o.Valid format) (hw : o.Writable format) :
    Verdict format s o (s.accepts o) (o.instruction.send format s) := by
  cases o with
  | flag f on => exact verdict_generic hvalid hw rfl (by decide) rfl rfl rfl
  | dryRun on => exact verdict_generic hvalid hw rfl (by decide) rfl rfl rfl
  | toggleESS => exact verdict_generic hvalid hw rfl (by decide) rfl rfl rfl
  | selectESS choice id =>
    have hnone : commandError format "set_ess_mode" (essPayload (.string choice.name) id.text) =
        none := if_pos (validateESSSelection_choice choice id)
    simp only [Order.instruction, Instruction.send, hnone]
    exact verdict_generic hvalid hw rfl (by decide) rfl rfl rfl
  | override value id =>
    have hnone : commandError format "setpoint_override" (overridePayload value.value id.text) =
        none := if_pos (validateOverride_order value id)
    simp only [Order.instruction, Instruction.send, hnone]
    exact verdict_controller hvalid hw rfl (by decide) rfl
  | tariff plan revision id =>
    have hnone : commandError format "electricity_tariff"
        (tariffPayload plan.value revision.text id.text) = none := if_pos hvalid
    simp only [Order.instruction, Instruction.send, hnone]
    exact verdict_controller hvalid hw rfl (by decide) rfl
  | water d mode =>
    have hrange : ¬ (mode.value < 0 ∨ mode.value > 2) := by
      have := mode.range
      omega
    simp only [Order.instruction, Instruction.send, if_neg hrange]
    exact verdict_water
  | acknowledge name id =>
    cases name <;>
      exact verdict_alarm hvalid hw rfl (by decide) (Or.inr ⟨by decide, _, _, rfl⟩)
  | silence id => exact verdict_alarm hvalid hw rfl (by decide) (Or.inl ⟨rfl, _, rfl⟩)
  | setpoint value => exact verdict_generic hvalid hw rfl (by decide) rfl rfl rfl
  | limits min max => exact verdict_generic hvalid hw rfl (by decide) rfl rfl rfl
  | loopInterval seconds => exact verdict_generic hvalid hw rfl (by decide) rfl rfl rfl
  | toggle entity => exact verdict_generic hvalid hw rfl (by decide) rfl rfl rfl
  | press entity => exact verdict_generic hvalid hw rfl (by decide) rfl rfl rfl

/-! ## From the bytes of a browser to what leaves -/

variable {v : View} {data : List UInt8} {m : Message} {i : Instruction}

/-- The order of an instruction passes the tests of its payload. -/
theorem valid_of_handleMessage {o : Order} (hasks : Asks v m o)
    (h : handleMessage format v m = .ok (.send i)) : o.Valid format := by
  cases hasks with
  | tariff haction hplan hrevision hid =>
    simp only [handleMessage, haction] at h
    split_ifs at h with hvalid
    rw [Bool.not_eq_true', Bool.not_eq_false, Message.tariffPayload, hplan, hrevision,
      hid] at hvalid
    exact hvalid
  | _ => trivial

/-- The order of a received message, and what becomes of it. -/
theorem verdict_of_unmarshal (hm : Message.unmarshal data = some m)
    (h : handleMessage format v m = .ok (.send i)) :
    ∃ o, Asks v m o ∧ ∀ s, Verdict format s o (s.accepts o) (i.send format s) := by
  obtain ⟨o, hasks, rfl⟩ := granted_of_handleMessage h
  exact ⟨o, hasks, fun s => verdict_send (valid_of_handleMessage hasks h) (hasks.writable hm)⟩

/-- **Delivery**: whatever leaves for the bytes of a browser, in whatever state and over whatever
transport, goes to the address of the order that the bytes ask for, and its body is read as the
payload of that order. -/
theorem sent_of_unmarshal (hm : Message.unmarshal data = some m)
    (h : handleMessage format v m = .ok (.send i)) :
    ∃ o, Asks v m o ∧ ∀ s e, i.send format s = .ok e → Sent format s.client o e := by
  obtain ⟨o, hasks, hverdict⟩ := verdict_of_unmarshal hm h
  exact ⟨o, hasks, fun s => (hverdict s).sent⟩

/-- The orders of the Cerbo, which have other payloads on its own topics. -/
def Order.isCerbo : Order → Bool
  | .water .. | .acknowledge .. | .silence _ => true
  | _ => false

/-- The two transports have the same payloads. -/
theorem Order.payload_eq {o : Order} (h : o.isCerbo = false) {c : Client}
    {instances : WaterDevice → ℤ} {p : String × Any} (hp : o.onGateway instances = some p) :
    p.2 = (o.onLan c).2 := by
  cases o with
  | water | acknowledge | silence => cases h
  | setpoint | limits | loopInterval | toggle | press => cases hp
  | _ => exact Option.some.inj hp ▸ rfl

/-- Bodies of one payload are read as one tree. -/
theorem Carries.parseJson_eq {body body' : List UInt8} {payload : Any}
    (h : Carries format body payload) (h' : Carries format body' payload) :
    parseJson body = parseJson body' := by
  obtain ⟨t, htree, hparse⟩ := h
  obtain ⟨t', htree', hparse'⟩ := h'
  rw [hparse, hparse', ← htree, ← htree']

/-- The bytes of a browser that ends the dry run. -/
def dryRunText : List UInt8 :=
  utf8Bytes (Json.obj [("action", .str "dry_run"), ("value", .bool false)]).text

theorem unmarshal_dryRunText :
    Message.unmarshal dryRunText = some { action := "dry_run", value := .bool false } := by
  unfold Message.unmarshal dryRunText
  rw [parseJson_text (by decide)]
  rfl

/-- The end of the dry run. -/
theorem sent_of_unmarshal_dryRun :
    ∃ o, Asks { canControlInverter := true } { action := "dry_run", value := .bool false } o ∧
      ∀ s e, Instruction.send (fun _ => Number.ofInt 0) s
        (.command "dry_run" (.object [("value", .bool false)])) = .ok e →
          Sent (fun _ => Number.ofInt 0) s.client o e :=
  sent_of_unmarshal unmarshal_dryRunText rfl

end WebSocket

end Dashboard
