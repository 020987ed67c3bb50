import InverterDashboard.Go.Decoder
import InverterDashboard.State.Wire

set_option relaxedAutoImplicit false
set_option autoImplicit false

/-!
# Messages of the browsers

`Message.UnmarshalJSON` of `internal/websocket/ess_selection.go`, and what becomes of an override:
the text is decoded into the message, a second time as a map of its members for the envelope and the
exact value, and the payload made of both is encoded for the controller.

A struct member is decoded whenever its key comes, and null leaves a string alone, whereas of the
members in a map the last one counts. The two readings of one text differ for a request identifier
that is followed by null.

## Main definitions

* `Go.Unmarshal`, `Go.Tag`, `Go.unmarshalFields` — `json.Unmarshal` of a text into a struct.
* `Dashboard.WebSocket.Message`, `Dashboard.WebSocket.Message.unmarshal`.
* `Dashboard.WebSocket.Message.overridePayload` — the payload of `set_setpoint_override`.
* `Dashboard.WebSocket.Envelope` — the keys of an accepted text.
* `Dashboard.WebSocket.Carried` — what an accepted text and the bytes that are sent have in common.

## Main results

* `Dashboard.WebSocket.requestID_of_unmarshalFields` — the identifier is the last string.
* `Dashboard.WebSocket.carried_of_unmarshal` — accepted overrides are carried exactly.
* `Dashboard.WebSocket.override_exact` — this, and which statuses are accepted.
-/

namespace Go

/-! ## Texts into structs -/

/-- `json.Unmarshal` of a text into an existing value; none is an error. -/
abbrev Unmarshal (σ : Type) := Json → σ → Option σ

namespace Unmarshal

/-- Into a `string`. -/
def string : Unmarshal String
  | .null, v => some v
  | .str s, _ => some s
  | _, _ => none

/-- Into a `float64`. -/
def float64 : Unmarshal F64
  | .null, v => some v
  | .num n, _ =>
    match F64.ofRat n.value with
    | .fin q => some (.fin q)
    | _ => none
  | _, _ => none

/-- Into an `interface{}`. -/
def any : Unmarshal Any := fun j _ => j.toAny

/-- Into a `map[string]interface{}`: an object is merged into it. -/
def anyMap : Unmarshal (Option (List (String × Any)))
  | .null, _ => some none
  | .obj fs, m => (Json.toAnyFields fs).map fun es => some (lastWins (m.getD [] ++ es))
  | _, _ => none

/-- Into a `map[string]json.RawMessage` that is nil. -/
def rawFields : Json → Option (List (String × Json))
  | .null => some []
  | .obj fs => some (lastWins fs)
  | _ => none

end Unmarshal

/-- A member of a struct: its JSON name and decoding into it. -/
structure Tag (σ : Type) where
  name : String
  decode : Unmarshal σ

variable {σ : Type}

/-- The member that holds an `α`, read and written by `get` and `set`. -/
def Tag.of {α : Type} (name : String) (d : Unmarshal α) (get : σ → α) (set : σ → α → σ) :
    Tag σ where
  name := name
  decode j s := (d j (get s)).map (set s)

/-- The member a key selects: by its exact name, else by folding. -/
def lookupTag (tags : List (Tag σ)) (key : String) : Option (Tag σ) :=
  (tags.find? fun t => t.name == key).or (tags.find? fun t => foldName t.name == foldName key)

/-- The members of an object, in the order of the text; unknown keys are skipped. -/
def unmarshalFields (tags : List (Tag σ)) : List (String × Json) → σ → Option σ
  | [], s => some s
  | (k, j) :: fs, s =>
    match lookupTag tags k with
    | none => unmarshalFields tags fs s
    | some t => (t.decode j s).bind (unmarshalFields tags fs)

/-- Into a struct: null leaves it alone. -/
def unmarshalStruct (tags : List (Tag σ)) : Unmarshal σ
  | .null, s => some s
  | .obj fs, s => unmarshalFields tags fs s
  | _, _ => none

theorem lookupTag_mem {tags : List (Tag σ)} {key : String} {t : Tag σ}
    (h : lookupTag tags key = some t) : t ∈ tags ∧ foldName t.name = foldName key := by
  unfold lookupTag at h
  rcases Option.or_eq_some_iff.mp h with h | ⟨-, h⟩
  · have hname := List.find?_some h
    exact ⟨List.mem_of_find?_eq_some h, congrArg foldName (beq_iff_eq.mp hname)⟩
  · have hname := List.find?_some h
    exact ⟨List.mem_of_find?_eq_some h, beq_iff_eq.mp hname⟩

/-- A part of the struct that none of the members' decoders writes stays. -/
theorem unmarshalFields_frame {τ : Type} {tags : List (Tag σ)} (get : σ → τ)
    {fs : List (String × Json)}
    (h : ∀ e ∈ fs, ∀ t, lookupTag tags e.1 = some t → ∀ j s s', t.decode j s = some s' →
      get s' = get s) {s s' : σ} (hs : unmarshalFields tags fs s = some s') : get s' = get s := by
  induction fs generalizing s with
  | nil =>
    obtain rfl := Option.some.inj hs
    rfl
  | cons e fs ih =>
    obtain ⟨k, j⟩ := e
    have hrest := fun {s} => ih (fun e he => h e (List.mem_cons_of_mem _ he)) (s := s)
    unfold unmarshalFields at hs
    cases hk : lookupTag tags k with
    | none =>
      rw [hk] at hs
      exact hrest hs
    | some t =>
      rw [hk] at hs
      obtain ⟨s₁, hs₁, hs⟩ := Option.bind_eq_some_iff.mp hs
      rw [hrest hs, h (k, j) List.mem_cons_self t hk j s s₁ hs₁]

end Go

namespace Dashboard

open Go

namespace WebSocket

/-! ## Messages -/

/-- `Message`. -/
structure Message where
  state : Any := .nil
  action : String := ""
  requestID : String := ""
  revision : String := ""
  plan : Any := .nil
  entity : String := ""
  id : String := ""
  value : Any := .nil
  position : Any := .nil
  mpAction : String := ""
  which : String := ""
  mode : Any := .nil
  min : F64 := 0
  max : F64 := 0
  interval : F64 := 0
  settings : Option (List (String × Any)) := none

namespace Message

/-- The JSON members of `Message`. -/
def tags : List (Tag Message) :=
  [.of "state" .any state fun m v => { m with state := v },
    .of "action" .string action fun m v => { m with action := v },
    .of "request_id" .string requestID fun m v => { m with requestID := v },
    .of "revision" .string revision fun m v => { m with revision := v },
    .of "plan" .any plan fun m v => { m with plan := v },
    .of "entity" .string entity fun m v => { m with entity := v },
    .of "id" .string id fun m v => { m with id := v },
    .of "value" .any value fun m v => { m with value := v },
    .of "position" .any position fun m v => { m with position := v },
    .of "mp_action" .string mpAction fun m v => { m with mpAction := v },
    .of "which" .string which fun m v => { m with which := v },
    .of "mode" .any mode fun m v => { m with mode := v },
    .of "min" .float64 min fun m v => { m with min := v },
    .of "max" .float64 max fun m v => { m with max := v },
    .of "interval" .float64 interval fun m v => { m with interval := v },
    .of "settings" .anyMap settings fun m v => { m with settings := v }]

/-- `UnmarshalJSON` on the tree of a text. -/
def unmarshalTree (j : Json) : Option Message := do
  let decoded ← unmarshalStruct tags j {}
  if decoded.requestID ≠ "" ∧ validRequestID decoded.requestID = false then none
  else if decoded.action = "set_ess_mode" ∨ decoded.action = "set_setpoint_override" ∨
      decoded.action = "electricity_tariff" then do
    let fields ← Unmarshal.rawFields j
    let (key, count) : String × ℕ :=
      if decoded.action = "set_setpoint_override" then ("value", 3)
      else if decoded.action = "electricity_tariff" then ("plan", 4)
      else ("mode", 3)
    let decoded : Message :=
      if decoded.action = "set_setpoint_override" then
        { decoded with value := ((entry fields "value").map Json.useNumber).getD decoded.value }
      else decoded
    if decoded.action = "electricity_tariff" ∧ entry fields "revision" = none then none
    else if fields.length ≠ count ∨ entry fields key = none ∨ entry fields "request_id" = none then
      none
    else return decoded
  else return decoded

/-- `UnmarshalJSON`. -/
def unmarshal (data : List UInt8) : Option Message := (parseJson data).bind unmarshalTree

/-- The payload of `set_setpoint_override`. -/
def overridePayload (m : Message) : Any :=
  .object [("value", m.value), ("request_id", .string m.requestID)]

end Message

/-! ## The envelope -/

/-- The string of a text that is one. -/
def stringText : Json → Option String
  | .str s => some s
  | _ => none

/-- The strings among the members with a key. -/
def stringMembers (fs : List (String × Json)) (key : String) : List String :=
  fs.filterMap fun e => if e.1 = key then stringText e.2 else none

/-- The keys of an accepted text: besides the value and the identifier there is only the action, in
any case. -/
def Envelope (fs : List (String × Json)) : Prop :=
  ∃ action, foldName action = foldName "action" ∧
    ∀ k, k ∈ fs.map Prod.fst ↔ k = "value" ∨ k = "request_id" ∨ k = action

/-- What a member's decoder writes. -/
theorem Tag.decode_of {σ α : Type} {name : String} {d : Unmarshal α} {get : σ → α} {set : σ → α → σ}
    {j : Json} {s s' : σ} (h : (Tag.of name d get set).decode j s = some s') :
    ∃ v, s' = set s v := by
  obtain ⟨v, -, hv⟩ := Option.map_eq_some_iff.mp h
  exact ⟨v, hv.symm⟩

/-- Only the member `action` writes the action, and only `request_id` the identifier. -/
theorem frame_of_decode {t : Tag Message} (ht : t ∈ Message.tags) {j : Json} {m m' : Message}
    (h : t.decode j m = some m') :
    (t.name ≠ "action" → m'.action = m.action) ∧
      (t.name ≠ "request_id" → m'.requestID = m.requestID) := by
  unfold Message.tags at ht
  simp only [List.mem_cons, List.not_mem_nil, or_false] at ht
  rcases ht with rfl | rfl | rfl | rfl | rfl | rfl | rfl | rfl | rfl | rfl | rfl | rfl | rfl | rfl |
    rfl | rfl
  all_goals
    obtain ⟨v, rfl⟩ := Tag.decode_of h
    first
    | exact ⟨fun _ => rfl, fun _ => rfl⟩
    | exact ⟨fun hname => absurd rfl hname, fun _ => rfl⟩
    | exact ⟨fun _ => rfl, fun hname => absurd rfl hname⟩

/-- The member that `request_id` selects. -/
theorem lookupTag_requestID : lookupTag Message.tags "request_id" =
    some (.of "request_id" Unmarshal.string Message.requestID fun m v =>
    { m with requestID := v }) :=
  rfl

/-- **The identifier** is the last string that is written for it: null leaves it alone.

**Proof sketch.** By induction on the members: a string replaces what was read before, and a member
with another key does not touch it. -/
theorem requestID_of_unmarshalFields {fs : List (String × Json)}
    (hkeys : ∀ e ∈ fs, ∀ t, lookupTag Message.tags e.1 = some t → t.name = "request_id" →
      e.1 = "request_id") {m m' : Message} (h : unmarshalFields Message.tags fs m = some m') :
    m'.requestID = (stringMembers fs "request_id").getLastD m.requestID := by
  induction fs generalizing m with
  | nil =>
    obtain rfl := Option.some.inj h
    rfl
  | cons e fs ih =>
    obtain ⟨k, j⟩ := e
    have hrest := fun {m} => ih (fun e he => hkeys e (List.mem_cons_of_mem _ he)) (m := m)
    have hother : k ≠ "request_id" → stringMembers ((k, j) :: fs) "request_id" =
        stringMembers fs "request_id" := by
      intro hk
      unfold stringMembers
      rw [List.filterMap_cons, if_neg hk]
    unfold unmarshalFields at h
    by_cases hk : k = "request_id"
    · subst hk
      rw [lookupTag_requestID] at h
      obtain ⟨m₁, hm₁, h⟩ := Option.bind_eq_some_iff.mp h
      rw [hrest h]
      unfold stringMembers
      rw [List.filterMap_cons, if_pos rfl]
      cases j with
      | null =>
        obtain rfl := Option.some.inj hm₁
        rfl
      | str s =>
        obtain rfl := Option.some.inj hm₁
        exact (List.getLastD_cons ..).symm
      | bool | num | arr | obj => cases hm₁
    · rw [hother hk]
      cases hlookup : lookupTag Message.tags k with
      | none =>
        rw [hlookup] at h
        exact hrest h
      | some t =>
        rw [hlookup] at h
        obtain ⟨m₁, hm₁, h⟩ := Option.bind_eq_some_iff.mp h
        have hname : t.name ≠ "request_id" := fun hname =>
          hk (hkeys (k, j) List.mem_cons_self t hlookup hname)
        rw [hrest h, (frame_of_decode (lookupTag_mem hlookup).1 hm₁).2 hname]

/-- A text with three keys, two of which are known, has one other key. -/
theorem exists_third {keys : List String} (hn : keys.Nodup) (hlen : keys.length = 3) {a b : String}
    (ha : a ∈ keys) (hb : b ∈ keys) (hab : a ≠ b) :
    ∃ c, ∀ k, k ∈ keys ↔ k = a ∨ k = b ∨ k = c := by
  have hb' : b ∈ keys.erase a := (List.Nodup.mem_erase_iff hn).mpr ⟨hab.symm, hb⟩
  have hperm : keys.Perm (a :: b :: (keys.erase a).erase b) :=
    (List.perm_cons_erase ha).trans ((List.perm_cons_erase hb').cons a)
  have hone : ((keys.erase a).erase b).length = 1 := by
    have hlength := hperm.length_eq
    simp only [List.length_cons] at hlength
    omega
  obtain ⟨c, hc⟩ := List.length_eq_one_iff.mp hone
  refine ⟨c, fun k => ?_⟩
  rw [hperm.mem_iff, hc]
  simp only [List.mem_cons, List.not_mem_nil, or_false]

/-! ## Overrides -/

/-- The text of an override and the bytes that are sent for it agree: in the identifier, and in the
literal of the value. -/
structure Carried (fs : List (String × Json)) (bytes : List UInt8) (id : String) (literal : Json)
    (value : Option ℤ) : Prop where
  envelope : Envelope fs
  id_valid : validRequestID id = true
  id_eq : (stringMembers fs "request_id").getLast? = some id
  literal_eq : entry fs.reverse "value" = some literal
  literal_value : OverrideLiteral literal value
  sent : parseJson bytes = some (.obj [("request_id", .str id), ("value", literal)])

/-- The parts of an accepted override. -/
theorem parts_of_unmarshalTree {j : Json} {m : Message} (h : Message.unmarshalTree j = some m)
    (haction : m.action = "set_setpoint_override") :
    ∃ fs decoded x, j = .obj fs ∧ unmarshalFields Message.tags fs {} = some decoded ∧
      decoded.action = m.action ∧ decoded.requestID = m.requestID ∧
      (lastWins fs).length = 3 ∧ entry fs.reverse "value" = some x ∧ m.value = x.useNumber ∧
      entry fs.reverse "request_id" ≠ none := by
  unfold Message.unmarshalTree at h
  obtain ⟨decoded, hdecoded, h⟩ := Option.bind_eq_some_iff.mp h
  by_cases hoverride : decoded.action = "set_setpoint_override"
  · simp only [hoverride, true_or, or_true, if_true] at h
    split_ifs at h with hid
    obtain ⟨fields, hfields, h⟩ := Option.bind_eq_some_iff.mp h
    rw [if_neg fun hboth => absurd hboth.1 (by decide)] at h
    split_ifs at h with hbad
    obtain rfl := Option.some.inj h
    obtain ⟨hlen, hvalue, hrequest⟩ : fields.length = 3 ∧ entry fields "value" ≠ none ∧
        entry fields "request_id" ≠ none := by
      simpa only [not_or, not_not, ne_eq] using hbad
    obtain ⟨x, hx⟩ := Option.ne_none_iff_exists'.mp hvalue
    cases j with
    | null =>
      obtain rfl := Option.some.inj hdecoded
      exact absurd hoverride (by decide)
    | obj fs =>
      obtain rfl := Option.some.inj hfields
      have hentry := entry_lastWins fs
      refine ⟨fs, decoded, x, rfl, hdecoded, hoverride, rfl, hlen, ?_, ?_, ?_⟩
      · rw [← hentry, hx]
      · rw [hx]
        rfl
      · rwa [← hentry]
    | bool | num | str | arr => cases hdecoded
  · -- another action is never turned into this one
    exfalso
    by_cases hid : decoded.requestID ≠ "" ∧ validRequestID decoded.requestID = false
    · rw [if_pos hid] at h
      cases h
    rw [if_neg hid] at h
    by_cases hexplicit : decoded.action = "set_ess_mode" ∨
        decoded.action = "set_setpoint_override" ∨ decoded.action = "electricity_tariff"
    · rw [if_pos hexplicit] at h
      obtain ⟨fields, -, h⟩ := Option.bind_eq_some_iff.mp h
      rw [if_neg hoverride, if_neg hoverride] at h
      dsimp only at h
      split_ifs at h
      all_goals
        obtain rfl := Option.some.inj h
        exact hoverride haction
    · rw [if_neg hexplicit] at h
      obtain rfl := Option.some.inj h
      exact hoverride haction

/-- The envelope of what is accepted.

**Proof sketch.** Besides the two known keys there is one other. The action is set, so this one is
read as the action; therefore it is neither another value nor another identifier. -/
theorem envelope_of_unmarshal {fs : List (String × Json)} {decoded : Message}
    (hlen : (lastWins fs).length = 3) (hvalue : "value" ∈ fs.map Prod.fst)
    (hrequest : "request_id" ∈ fs.map Prod.fst)
    (hdecoded : unmarshalFields Message.tags fs {} = some decoded) (haction : decoded.action ≠ "") :
    Envelope fs ∧ ∀ e ∈ fs, ∀ t, lookupTag Message.tags e.1 = some t → t.name = "request_id" →
      e.1 = "request_id" := by
  have hlength : ((lastWins fs).map Prod.fst).length = 3 := by rw [List.length_map, hlen]
  obtain ⟨third, hthird⟩ := exists_third (lastWins_nodup fs) hlength
    (mem_keys_lastWins.mpr hvalue) (mem_keys_lastWins.mpr hrequest) (by decide)
  have hkeys : ∀ k, k ∈ fs.map Prod.fst ↔ k = "value" ∨ k = "request_id" ∨ k = third := fun k =>
    mem_keys_lastWins.symm.trans (hthird k)
  have hfold : foldName third = foldName "action" := by
    by_contra hne
    refine haction (unmarshalFields_frame Message.action (fun e he t ht j m m' hdecode => ?_)
      hdecoded)
    obtain ⟨htags, hname⟩ := lookupTag_mem ht
    refine (frame_of_decode htags hdecode).1 fun htaction => ?_
    rw [htaction] at hname
    rcases (hkeys e.1).mp (List.mem_map_of_mem he) with h | h | h
    · rw [h] at hname
      exact absurd hname (by decide)
    · rw [h] at hname
      exact absurd hname (by decide)
    · rw [h] at hname
      exact hne hname.symm
  refine ⟨⟨third, hfold, hkeys⟩, fun e he t ht hname => ?_⟩
  have hfolded := (lookupTag_mem ht).2
  rw [hname] at hfolded
  rcases (hkeys e.1).mp (List.mem_map_of_mem he) with h | h | h
  · rw [h] at hfolded
    exact absurd hfolded (by decide)
  · exact h
  · rw [h, hfold] at hfolded
    exact absurd hfolded (by decide)

/-- A valid payload: the value is a 32-bit integer or nil, and the identifier is valid. -/
theorem validateOverride_payload (m : Message) :
    validateOverride m.overridePayload = true ↔
      (int32Value m.value).isSome = true ∧ validRequestID m.requestID = true := by
  have hvalue : entry [("value", m.value), ("request_id", .string m.requestID)] "value" =
      some m.value := rfl
  have hrequest : entry [("value", m.value), ("request_id", .string m.requestID)] "request_id" =
      some (.string m.requestID) := rfl
  have hdef : validateOverride m.overridePayload =
      (decide (2 = 2) && (int32Value m.value).isSome && validRequestID m.requestID) := by
    show (decide (2 = 2) && ((entry [("value", m.value), ("request_id", .string m.requestID)]
      "value").bind int32Value).isSome && ((entry [("value", m.value),
      ("request_id", .string m.requestID)] "request_id").bind Any.string?).any validRequestID) = _
    rw [hvalue, hrequest]
    rfl
  rw [hdef]
  simp

/-- The tree that is written for an override. -/
theorem tree_overridePayload (format : ℚ → Number) {m : Message} {literal : Json} {value : Option ℤ}
    (hvalue : m.value = literal.useNumber) (h : OverrideLiteral literal value) :
    m.overridePayload.tree format =
      some (.obj [("request_id", .str m.requestID), ("value", literal)]) := by
  have htree : m.value.tree format = some literal := by
    rw [hvalue]
    cases h with
    | null => rfl
    | int => rfl
  have hsorted : ∀ v r : Json, sortedEntries [("value", v), ("request_id", r)] =
      [("request_id", r), ("value", v)] := by
    intro v r
    have hle : ¬ "value" ≤ "request_id" := by decide
    unfold sortedEntries
    rw [List.insertionSort_cons, List.insertionSort_cons, List.insertionSort_nil]
    simp [hle]
  unfold Message.overridePayload
  rw [Any.tree, Any.treeFields, htree]
  simp only [Any.treeFields, Any.tree, Option.bind_eq_bind, Option.bind_some, Option.pure_def,
    Option.map_some, hsorted]

/-- **Overrides** are carried exactly: an accepted text has no other members, and the bytes that are
sent decode to its identifier and to the literal of its value, which is null or a 32-bit integer. -/
theorem carried_of_unmarshal (format : ℚ → Number) {data : List UInt8} {m : Message}
    (h : Message.unmarshal data = some m) (haction : m.action = "set_setpoint_override")
    (hvalid : validateOverride m.overridePayload = true) :
    ∃ fs bytes literal value, parseJson data = some (.obj fs) ∧
      encodeControllerCommand format m.overridePayload = some bytes ∧
      Carried fs bytes m.requestID literal value := by
  obtain ⟨j, hparse, htree⟩ := Option.bind_eq_some_iff.mp h
  obtain ⟨fs, decoded, literal, rfl, hdecoded, hsame, hid, hlen, hliteral, hvalue, hrequest⟩ :=
    parts_of_unmarshalTree htree haction
  have hkey : ∀ k, entry fs.reverse k ≠ none → k ∈ fs.map Prod.fst := by
    intro k hk
    rw [← List.mem_reverse, ← List.map_reverse, ← entry_isSome_iff, Option.isSome_iff_ne_none]
    exact hk
  obtain ⟨henvelope, hkeys⟩ := envelope_of_unmarshal hlen (hkey _ (by rw [hliteral]; simp))
    (hkey _ hrequest) hdecoded (by rw [hsame, haction]; decide)
  obtain ⟨hint, hidvalid⟩ := (validateOverride_payload m).mp hvalid
  obtain ⟨value, hint⟩ := Option.isSome_iff_exists.mp hint
  rw [hvalue, int32Value_useNumber] at hint
  have hstrings := requestID_of_unmarshalFields hkeys hdecoded
  have htree := tree_overridePayload format hvalue hint
  have hdepth : literal.depth = 0 := by cases hint <;> rfl
  refine ⟨fs, utf8Bytes (Json.obj [("request_id", .str m.requestID), ("value", literal)]).text,
    literal, value, hparse, ?_, henvelope, hidvalid, ?_, hliteral, hint, ?_⟩
  · unfold encodeControllerCommand
    rw [htree]
    rfl
  · rw [List.getLastD_eq_getLast?] at hstrings
    cases hlast : (stringMembers fs "request_id").getLast? with
    | none =>
      rw [hlast] at hstrings
      rw [← hid, hstrings] at hidvalid
      exact absurd hidvalid (by decide)
    | some s =>
      rw [hlast] at hstrings
      rw [← hid, hstrings]
      rfl
  · refine parseJson_text ?_
    have hid : (Json.str m.requestID).depth = 0 := rfl
    rw [Json.depth, Json.fieldsDepth, Json.fieldsDepth, Json.fieldsDepth, hdepth, hid]
    decide

/-- **Overrides both ways.** An accepted text is carried to the controller exactly. A frame of the
controller is accepted, with the status that the last `setpoint_override` makes, if none of its
numbers is out of range, and only then. -/
theorem override_exact (format : ℚ → Number) :
    (∀ (data : List UInt8) (m : Message), Message.unmarshal data = some m →
      m.action = "set_setpoint_override" → validateOverride m.overridePayload = true →
      ∃ fs bytes literal value, parseJson data = some (.obj fs) ∧
        encodeControllerCommand format m.overridePayload = some bytes ∧
        Carried fs bytes m.requestID literal value) ∧
    ∀ (data : List UInt8) (status : SetpointOverrideStatus), receivedOverride data = some status ↔
      ∃ fs os, parseJson data = some (.obj fs) ∧ (Json.obj fs).InRange ∧
        entry fs.reverse "setpoint_override" = some (.obj os) ∧ IsOverrideStatus os status :=
  ⟨fun _ _ h haction hvalid => carried_of_unmarshal format h haction hvalid,
    fun data status => receivedOverride_iff data status⟩

/-! ## Texts with two readings -/

/-- An override with the given identifiers, one after the other. -/
def overrideText (value : Json) (ids : List Json) : Json :=
  .obj ([("action", .str "set_setpoint_override"), ("value", value)] ++
    ids.map fun id => ("request_id", id))

/-- An override of −7 watts. -/
theorem override_exact_seven :
    ∃ m : Message, m.requestID = "a-1" ∧ ∃ fs bytes literal value,
      parseJson (utf8Bytes (overrideText (.num (Number.ofInt (-7))) [.str "a-1"]).text) =
        some (.obj fs) ∧
      encodeControllerCommand (fun _ => Number.ofInt 0) m.overridePayload = some bytes ∧
      Carried fs bytes m.requestID literal value := by
  have hparse := parseJson_text (j := overrideText (.num (Number.ofInt (-7))) [.str "a-1"])
    (by decide)
  have hfacts : ((Message.unmarshalTree (overrideText (.num (Number.ofInt (-7))) [.str "a-1"])).any
      fun m => m.action == "set_setpoint_override" && m.requestID == "a-1" &&
        validateOverride m.overridePayload) = true := by decide +kernel
  obtain ⟨m, hm, hfacts⟩ := (Option.any_eq_true ..).mp hfacts
  simp only [Bool.and_eq_true, beq_iff_eq] at hfacts
  have hunmarshal : Message.unmarshal
      (utf8Bytes (overrideText (.num (Number.ofInt (-7))) [.str "a-1"]).text) = some m := by
    unfold Message.unmarshal
    rw [hparse, Option.bind_some, hm]
  exact ⟨m, hfacts.1.2,
    (override_exact fun _ => Number.ofInt 0).1 _ m hunmarshal hfacts.1.1 hfacts.2⟩

/-- Null behind an identifier is the last of its members but not the identifier that is sent; and a
number out of range anywhere in a frame hides a status whose members are all there. -/
theorem not_override_exact :
    (¬ ∀ (data : List UInt8) (m : Message), Message.unmarshal data = some m →
      m.action = "set_setpoint_override" → validateOverride m.overridePayload = true →
      ∃ fs, parseJson data = some (.obj fs) ∧
        entry fs.reverse "request_id" = some (.str m.requestID)) ∧
    ¬ ∀ (data : List UInt8) (status : SetpointOverrideStatus), receivedOverride data = some status ↔
      ∃ fs os, parseJson data = some (.obj fs) ∧
        entry fs.reverse "setpoint_override" = some (.obj os) ∧ IsOverrideStatus os status := by
  constructor
  · intro h
    have hparse := parseJson_text (j := overrideText .null [.str "a-1", .null]) (by decide)
    have hunmarshal : Message.unmarshal (utf8Bytes (overrideText .null [.str "a-1", .null]).text) =
        some { action := "set_setpoint_override", requestID := "a-1" } := by
      unfold Message.unmarshal
      rw [hparse]
      rfl
    obtain ⟨fs, hfs, hentry⟩ := h _ _ hunmarshal rfl (by decide)
    rw [hparse] at hfs
    obtain rfl := Json.obj.inj (Option.some.inj hfs)
    cases hentry
  · intro h
    have hstatus : IsOverrideStatus [("value", .null), ("last_error", .null), ("request_id", .null)]
        ⟨none, none, none⟩ :=
      ⟨⟨.null, rfl, .null⟩, ⟨.null, rfl, .null⟩, ⟨.null, rfl, .null⟩⟩
    have hdepth : (Json.obj [("setpoint_override",
        .obj [("value", .null), ("last_error", .null), ("request_id", .null)]),
        ("x", .num ⟨false, 1, [], some 400⟩)]).depth ≤ maxNestingDepth := by decide
    have hparse := parseJson_text hdepth
    have haccepted := (h _ _).mpr ⟨_, _, hparse, rfl, hstatus⟩
    obtain ⟨fs, os, hfs, hrange, -⟩ := (receivedOverride_iff _ _).mp haccepted
    rw [hparse] at hfs
    obtain rfl := Json.obj.inj (Option.some.inj hfs)
    obtain ⟨-, ⟨-, hlarge⟩, -⟩ := hrange
    exact absurd hlarge (by decide +kernel)

end WebSocket

end Dashboard
