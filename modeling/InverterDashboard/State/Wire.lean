import InverterDashboard.Go.JsonText
import InverterDashboard.State.Commands

set_option relaxedAutoImplicit false
set_option autoImplicit false

/-!
# Controller commands and statuses as bytes

`EncodeControllerCommand` and `DecodeControllerState` of `internal/state/controller_commands.go` on
the bytes of their messages. A frame is decoded twice, once as a whole with its numbers as `float64`
and once with the literals of `setpoint_override` kept; the first decoding fails on a number out of
range, wherever it is.

## Main definitions

* `Go.Any.tree` — what `json.Encoder` makes of a value; the texts of floating-point numbers are a
  parameter.
* `Dashboard.encodeControllerCommand`, `Dashboard.Payload.ofBytes`, `Dashboard.receivedOverride`.
* `Dashboard.OverrideLiteral`, `Dashboard.NullOrString`, `Dashboard.IsOverrideStatus` — the
  statuses.
* `Go.Json.InRange` — no number of a text is out of range.

## Main results

* `Go.Json.toAny_isSome_iff` — when a text is decoded.
* `Dashboard.receivedOverride_iff` — which frames are accepted, and with which status.
-/

namespace Go

/-! ## Members -/

section Entries

variable {α β : Type}

/-- A key is there if an entry has it. -/
theorem entry_isSome_iff {m : List (String × α)} {k : String} :
    (entry m k).isSome = true ↔ k ∈ m.map Prod.fst := by
  constructor
  · intro h
    obtain ⟨v, hv⟩ := Option.isSome_iff_exists.mp h
    exact List.mem_map_of_mem (mem_of_entry hv)
  · intro h
    obtain ⟨⟨k', v⟩, hmem, rfl⟩ := List.mem_map.mp h
    by_contra hnone
    exact entry_eq_none_iff.mp (Option.not_isSome_iff_eq_none.mp hnone) v hmem

theorem entry_map (f : String → α → β) (m : List (String × α)) (k : String) :
    entry (m.map fun e => (e.1, f e.1 e.2)) k = (entry m k).map (f k) := by
  induction m with
  | nil => rfl
  | cons e m ih =>
    unfold entry at ih ⊢
    rw [List.map_cons, List.lookup_cons, List.lookup_cons]
    by_cases hk : k = e.1
    · subst hk
      simp
    · rw [beq_false_of_ne hk]
      exact ih

/-- Of several members with a key the last one is kept. -/
theorem entry_lastWins (m : List (String × α)) (k : String) :
    entry (lastWins m) k = entry m.reverse k := by
  induction m with
  | nil => rfl
  | cons e m ih =>
    have hreverse : entry (e :: m).reverse k = (entry m.reverse k).or (entry [e] k) := by
      unfold entry
      rw [List.reverse_cons, List.lookup_append]
    have hthere : m.any (·.1 == e.1) = (entry m.reverse e.1).isSome := by
      rw [Bool.eq_iff_iff, entry_isSome_iff, List.any_eq_true, List.mem_map]
      simp only [List.mem_reverse, beq_iff_eq]
    have hlast : lastWins (e :: m) = if m.any (·.1 == e.1) then lastWins m else e :: lastWins m :=
        rfl
    rw [hreverse, ← ih, hlast]
    split_ifs with hany
    · by_cases hk : k = e.1
      · subst hk
        rw [hthere, ← ih] at hany
        obtain ⟨v, hv⟩ := Option.isSome_iff_exists.mp hany
        rw [hv]
        rfl
      · have hnone : entry [e] k = none := by
          unfold entry
          rw [List.lookup_cons, beq_false_of_ne hk]
          rfl
        rw [hnone, Option.or_none]
    · by_cases hk : k = e.1
      · subst hk
        have hnone : entry (lastWins m) e.1 = none := by
          rw [hthere, ← ih] at hany
          exact Option.not_isSome_iff_eq_none.mp hany
        rw [hnone, Option.none_or]
        unfold entry
        rw [List.lookup_cons, List.lookup_cons, beq_self_eq_true]
      · unfold entry
        rw [List.lookup_cons, beq_false_of_ne hk, List.lookup_cons, beq_false_of_ne hk,
          List.lookup_nil, Option.or_none]

/-- The members that are left are those that were there. -/
theorem mem_keys_lastWins {m : List (String × α)} {k : String} :
    k ∈ (lastWins m).map Prod.fst ↔ k ∈ m.map Prod.fst := by
  rw [← entry_isSome_iff, entry_lastWins, entry_isSome_iff, List.map_reverse, List.mem_reverse]

end Entries

namespace Json

theorem useNumberFields_eq (fs : List (String × Json)) :
    useNumberFields fs = fs.map fun e => (e.1, e.2.useNumber) := by
  induction fs with
  | nil => rfl
  | cons e fs ih => rw [useNumberFields, ih, List.map_cons]

/-- A member of an object whose literals are kept. -/
theorem entry_useNumber (fs : List (String × Json)) (k : String) :
    entry (lastWins (useNumberFields fs)) k = (entry fs.reverse k).map useNumber := by
  rw [entry_lastWins, useNumberFields_eq, ← List.map_reverse]
  exact entry_map (fun _ => useNumber) fs.reverse k

/-! ## Numbers out of range -/

mutual

/-- No number is out of the range of `float64`. -/
def InRange : Json → Prop
  | .num n => -F64.overflowBound < n.value ∧ n.value < F64.overflowBound
  | .arr es => ElemsInRange es
  | .obj fs => FieldsInRange fs
  | _ => True

/-- The same of all elements. -/
def ElemsInRange : List Json → Prop
  | [] => True
  | e :: es => InRange e ∧ ElemsInRange es

/-- The same of all members, those that are overwritten included. -/
def FieldsInRange : List (String × Json) → Prop
  | [] => True
  | (_, v) :: fs => InRange v ∧ FieldsInRange fs

end

mutual

theorem toAny_isSome_iff : ∀ j : Json, (toAny j).isSome = true ↔ InRange j
  | .null => iff_of_true rfl trivial
  | .bool b => iff_of_true rfl trivial
  | .str s => iff_of_true rfl trivial
  | .num n => by
    rw [toAny, InRange]
    unfold F64.ofRat
    split_ifs with hlarge hsmall
    · exact iff_of_false (by simp) fun h => not_lt.mpr hlarge h.2
    · exact iff_of_false (by simp) fun h => not_lt.mpr hsmall h.1
    · exact iff_of_true rfl ⟨not_le.mp hsmall, not_le.mp hlarge⟩
  | .arr es => by
    rw [toAny, InRange, Option.isSome_map]
    exact toAnyList_isSome_iff es
  | .obj fs => by
    rw [toAny, InRange, Option.isSome_map]
    exact toAnyFields_isSome_iff fs

theorem toAnyList_isSome_iff : ∀ es : List Json, (toAnyList es).isSome = true ↔ ElemsInRange es
  | [] => iff_of_true rfl trivial
  | e :: es => by
    rw [ElemsInRange, ← toAny_isSome_iff e, ← toAnyList_isSome_iff es, toAnyList]
    cases toAny e <;> cases toAnyList es <;> simp

theorem toAnyFields_isSome_iff : ∀ fs : List (String × Json),
    (toAnyFields fs).isSome = true ↔ FieldsInRange fs
  | [] => iff_of_true rfl trivial
  | (k, v) :: fs => by
    rw [FieldsInRange, ← toAny_isSome_iff v, ← toAnyFields_isSome_iff fs, toAnyFields]
    cases toAny v <;> cases toAnyFields fs <;> simp

end

/-- The keys of a decoded object. -/
theorem keys_toAnyFields {fs : List (String × Json)} {es : List (String × Any)}
    (h : toAnyFields fs = some es) : es.map Prod.fst = fs.map Prod.fst := by
  induction fs generalizing es with
  | nil =>
    obtain rfl := Option.some.inj h
    rfl
  | cons f fs ih =>
    obtain ⟨k, v⟩ := f
    rw [toAnyFields] at h
    obtain ⟨a, -, h⟩ := Option.bind_eq_some_iff.mp h
    obtain ⟨as, has, h⟩ := Option.bind_eq_some_iff.mp h
    obtain rfl := Option.some.inj h
    rw [List.map_cons, List.map_cons, ih has]

end Json

/-- The integer that a literal without a fraction and an exponent spells. -/
def Number.toInt (n : Number) : ℤ := if n.neg then -(n.int : ℤ) else n.int

/-! ## Encoding -/

namespace Any

mutual

/-- The tree that is written for a value: a map with its keys in order. Infinities and NaN cannot be
written. -/
def tree (format : ℚ → Number) : Any → Option Json
  | .nil => some .null
  | .bool b => some (.bool b)
  | .float64 (.fin q) => some (.num (format q))
  | .float64 _ => none
  | .int i => some (.num (Number.ofInt i))
  | .number n => some (.num n)
  | .string s => some (.str s)
  | .list es => (treeList format es).map .arr
  | .object fs => (treeFields format fs).map fun fs => .obj (sortedEntries fs)

/-- The elements of a slice. -/
def treeList (format : ℚ → Number) : List Any → Option (List Json)
  | [] => some []
  | e :: es => do
    let v ← tree format e
    let vs ← treeList format es
    return v :: vs

/-- The entries of a map. -/
def treeFields (format : ℚ → Number) : List (String × Any) → Option (List (String × Json))
  | [] => some []
  | (k, e) :: fs => do
    let v ← tree format e
    let vs ← treeFields format fs
    return (k, v) :: vs

end

end Any

end Go

namespace Dashboard

open Go

/-- `EncodeControllerCommand`. The encoder does not escape HTML, and its newline is cut off. -/
def encodeControllerCommand (format : ℚ → Number) (payload : Any) : Option (List UInt8) :=
  (payload.tree format).map fun j => utf8Bytes j.text

/-- A message as `encoding/json` sees it. -/
def Payload.ofBytes (data : List UInt8) : Payload :=
  if data.isEmpty then .empty
  else
    match parseJson data with
    | none => .invalid
    | some j => .json j

/-- `ParseOverrideStatus(decoded["setpoint_override"])` behind `DecodeControllerState(data)`. -/
def receivedOverride (data : List UInt8) : Option SetpointOverrideStatus :=
  (decodeControllerState (Payload.ofBytes data)).bind fun decoded =>
    parseOverrideStatus ((entry decoded "setpoint_override").getD .nil)

/-! ## Statuses -/

/-- The values of an override: null, and the literals of 32-bit integers. -/
inductive OverrideLiteral : Json → Option ℤ → Prop
  | null : OverrideLiteral .null none
  | int {n : Number} : n.frac = [] → n.exp = none → -(2 : ℤ) ^ 31 ≤ n.toInt →
      n.toInt < (2 : ℤ) ^ 31 → OverrideLiteral (.num n) (some n.toInt)

/-- A member that is null or a string. -/
inductive NullOrString : Json → Option String → Prop
  | null : NullOrString .null none
  | string (s : String) : NullOrString (.str s) (some s)

/-- The members of an object make a status. -/
structure IsOverrideStatus (fs : List (String × Json)) (status : SetpointOverrideStatus) :
    Prop where
  value : ∃ j, entry fs.reverse "value" = some j ∧ OverrideLiteral j status.value
  lastError : ∃ j, entry fs.reverse "last_error" = some j ∧ NullOrString j status.lastError
  requestID : ∃ j, entry fs.reverse "request_id" = some j ∧ NullOrString j status.requestID

theorem int32Value_useNumber {j : Json} {v : Option ℤ} :
    int32Value j.useNumber = some v ↔ OverrideLiteral j v := by
  cases j with
  | null =>
    refine ⟨fun h => ?_, fun h => ?_⟩
    · obtain rfl := Option.some.inj h
      exact .null
    · cases h
      rfl
  | num n =>
    have hdef : int32Value (Json.num n).useNumber =
        (if n.frac = [] ∧ n.exp = none ∧ -(2 : ℤ) ^ 31 ≤ n.toInt ∧ n.toInt < (2 : ℤ) ^ 31 then
          some n.toInt else none).map some := rfl
    rw [hdef]
    constructor
    · intro h
      split_ifs at h with hint
      · obtain rfl := Option.some.inj h
        exact .int hint.1 hint.2.1 hint.2.2.1 hint.2.2.2
      · cases h
    · intro h
      cases h with
      | int hfrac hexp hlow hhigh => rw [if_pos ⟨hfrac, hexp, hlow, hhigh⟩, Option.map_some]
  | bool b => exact iff_of_false nofun nofun
  | str s => exact iff_of_false nofun nofun
  | arr es => exact iff_of_false nofun nofun
  | obj fs => exact iff_of_false nofun nofun

theorem nullableString_useNumber {j : Json} {v : Option String} :
    nullableString j.useNumber = some v ↔ NullOrString j v := by
  cases j with
  | null =>
    refine ⟨fun h => ?_, fun h => ?_⟩
    · obtain rfl := Option.some.inj h
      exact .null
    · cases h
      rfl
  | str s =>
    refine ⟨fun h => ?_, fun h => ?_⟩
    · obtain rfl := Option.some.inj h
      exact .string s
    · cases h
      rfl
  | bool b => exact iff_of_false nofun nofun
  | num n => exact iff_of_false nofun nofun
  | arr es => exact iff_of_false nofun nofun
  | obj fs => exact iff_of_false nofun nofun

/-- **The status of an object.** -/
theorem parseOverrideStatus_useNumber {j : Json} {status : SetpointOverrideStatus} :
    parseOverrideStatus j.useNumber = some status ↔
    ∃ fs, j = .obj fs ∧ IsOverrideStatus fs status := by
  have hnone : j.useNumber.object? = none → parseOverrideStatus j.useNumber = none := by
    intro h
    unfold parseOverrideStatus
    rw [h]
    rfl
  cases j with
  | obj fs =>
    have hmember := Json.entry_useNumber fs
    have hdef : parseOverrideStatus (Json.obj fs).useNumber = do
        let value ← int32Value (← (entry fs.reverse "value").map Json.useNumber)
        let lastError ← nullableString (← (entry fs.reverse "last_error").map Json.useNumber)
        let requestID ← nullableString (← (entry fs.reverse "request_id").map Json.useNumber)
        return { value, lastError, requestID } := by
      rw [← hmember, ← hmember, ← hmember]
      rfl
    rw [hdef]
    simp only [Option.bind_eq_bind, Option.bind_eq_some_iff, Option.map_eq_some_iff,
      Option.pure_def,
      Option.some.injEq, Json.obj.injEq, exists_eq_left']
    constructor
    · rintro ⟨-, ⟨v, hv, rfl⟩, value, hvalue, -, ⟨e, he, rfl⟩, lastError, herror, -, ⟨r, hr, rfl⟩,
        requestID, hrequest, rfl⟩
      exact ⟨⟨v, hv, int32Value_useNumber.mp hvalue⟩, ⟨e, he, nullableString_useNumber.mp herror⟩,
        ⟨r, hr, nullableString_useNumber.mp hrequest⟩⟩
    · rintro ⟨⟨v, hv, hvalue⟩, ⟨e, he, herror⟩, ⟨r, hr, hrequest⟩⟩
      exact ⟨_, ⟨v, hv, rfl⟩, _, int32Value_useNumber.mpr hvalue, _, ⟨e, he, rfl⟩, _,
        nullableString_useNumber.mpr herror, _, ⟨r, hr, rfl⟩, _,
        nullableString_useNumber.mpr hrequest, rfl⟩
  | null | bool | num | str | arr =>
    rw [hnone rfl]
    exact iff_of_false nofun fun ⟨fs, hfs, _⟩ => by cases hfs

/-- A decoded frame, with the literals of the override. -/
theorem decodeControllerState_obj (fs : List (String × Json)) :
    decodeControllerState (.json (.obj fs)) = (Json.toAnyFields fs).map fun values =>
      (lastWins values).map fun e => (e.1, if e.1 = "setpoint_override" then
        ((entry fs.reverse e.1).map Json.useNumber).getD .nil else e.2) := by
  have hpair : ∀ e : String × Any, (if e.1 = "setpoint_override" then
      (e.1, ((entry fs.reverse e.1).map Json.useNumber).getD .nil) else e) =
      (e.1, if e.1 = "setpoint_override" then
        ((entry fs.reverse e.1).map Json.useNumber).getD .nil else e.2) := by
    intro e
    split_ifs <;> rfl
  simp only [← hpair]
  show (Json.toAnyFields fs).bind _ = _
  rw [Option.map_eq_bind]
  rfl

/-- The override of a decoded frame. -/
theorem entry_decodeControllerState {fs : List (String × Json)} {values : List (String × Any)}
    (h : Json.toAnyFields fs = some values) :
    (decodeControllerState (.json (.obj fs))).map
    (fun decoded => entry decoded "setpoint_override") =
      some ((entry fs.reverse "setpoint_override").map Json.useNumber) := by
  have hthere : (entry (lastWins values) "setpoint_override").isSome =
      (entry fs.reverse "setpoint_override").isSome := by
    rw [Bool.eq_iff_iff, entry_isSome_iff, entry_isSome_iff, mem_keys_lastWins,
      Json.keys_toAnyFields h, List.map_reverse, List.mem_reverse]
  rw [decodeControllerState_obj, h, Option.map_some, Option.map_some, Option.some.injEq]
  refine (entry_map (fun k v => if k = "setpoint_override" then
    ((entry fs.reverse k).map Json.useNumber).getD .nil else v) (lastWins values)
    "setpoint_override").trans ?_
  simp only [if_true]
  cases hentry : entry fs.reverse "setpoint_override" with
  | none =>
    rw [hentry] at hthere
    have hnone : entry (lastWins values) "setpoint_override" = none := by
      rw [← Option.isNone_iff_eq_none, ← Option.not_isSome, hthere]
      rfl
    rw [hnone]
    rfl
  | some j =>
    rw [hentry] at hthere
    obtain ⟨v, hv⟩ := Option.isSome_iff_exists.mp hthere
    rw [hv]
    rfl

/-- **Accepted statuses.** A frame is accepted if none of its numbers is out of range and the last
`setpoint_override` is an object that makes a status, and only then. -/
theorem receivedOverride_iff (data : List UInt8) (status : SetpointOverrideStatus) :
    receivedOverride data = some status ↔
      ∃ fs os, parseJson data = some (.obj fs) ∧ (Json.obj fs).InRange ∧
        entry fs.reverse "setpoint_override" = some (.obj os) ∧ IsOverrideStatus os status := by
  unfold receivedOverride Payload.ofBytes
  cases hparse : parseJson data with
  | none =>
    refine iff_of_false (fun h => ?_) fun ⟨fs, os, hfs, _⟩ => by cases hfs
    split_ifs at h <;> cases h
  | some j =>
    have hdata : data.isEmpty = false := by
      cases data with
      | nil =>
        have hnil : parseJson [] = none := rfl
        rw [hnil] at hparse
        cases hparse
      | cons b bs => rfl
    rw [hdata, if_neg (by decide)]
    cases j with
    | obj fs =>
      simp only [Option.some.injEq, Json.obj.injEq, exists_and_left, exists_eq_left']
      rw [Json.InRange, ← Json.toAnyFields_isSome_iff]
      cases hvalues : Json.toAnyFields fs with
      | none =>
        refine iff_of_false (fun h => ?_) fun h => by simp at h
        have hdecode : decodeControllerState (.json (.obj fs)) = none := by
          rw [decodeControllerState_obj, hvalues]
          rfl
        rw [hdecode] at h
        cases h
      | some values =>
        have hentry := entry_decodeControllerState hvalues
        obtain ⟨decoded, hdecoded, hmember⟩ := Option.map_eq_some_iff.mp hentry
        rw [hdecoded, Option.bind_some, hmember]
        simp only [Option.isSome_some, true_and]
        cases entry fs.reverse "setpoint_override" with
        | none => exact iff_of_false nofun fun ⟨os, hos, _⟩ => by cases hos
        | some raw =>
          simp only [Option.map_some, Option.getD_some, Option.some.injEq]
          exact parseOverrideStatus_useNumber
    | null | bool | num | str | arr =>
      exact iff_of_false nofun fun ⟨fs, os, hfs, _⟩ => by cases hfs

end Dashboard
