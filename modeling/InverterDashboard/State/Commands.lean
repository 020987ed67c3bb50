import InverterDashboard.State.State

set_option relaxedAutoImplicit false
set_option autoImplicit false

/-!
# Controller commands: payloads, acknowledgements and readiness

`internal/state/controller_commands.go`, `ess_mode.go` and `control.go`. Readiness is decided
from receipt times the process keeps itself, in seconds as `float64`; the clock of the model is
Unix milliseconds, the resolution of those receipts.

## Main definitions

* `Dashboard.decodeControllerState` — a frame as the map the reducers read, with the literals of
  `setpoint_override` kept.
* `Dashboard.parseOverrideStatus`, `overrideAcknowledged`, `validateOverride`.
* `Dashboard.observationFresh`, `essSelectionReady`, `controllerCommandReady` — readiness.

## Main results

* `Dashboard.observationFresh_receipt` — a fresh receipt was taken in the last 30 seconds.
-/

namespace Dashboard

open Go

/-- A clock reading in Unix milliseconds. -/
abbrev Time : Type := ℤ

/-- `float64(now.UnixMilli()) / 1000`: the form in which receipts are kept. -/
def receiptSeconds (now : Time) : F64 := (F64.ofInt now).div 1000

/-! ## Payload texts -/

/-- The bytes of an MQTT message as `encoding/json` sees them: none, no JSON text, or a text. -/
inductive Payload where
  | empty
  | invalid
  | json (j : Json)

/-- Whether a payload has no bytes can be decided. -/
instance (p : Payload) : Decidable (p = .empty) :=
  match p with
  | .empty => isTrue rfl
  | .invalid => isFalse (by simp)
  | .json _ => isFalse (by simp)

/-- A controller frame: the entries of the decoded top-level map. -/
abbrev Frame : Type := List (String × Any)

/-- `DecodeControllerState` on a text; `none` is a decoding error and the empty frame stands for
the nil map. The member `setpoint_override` is decoded again with its literals. -/
def decodeControllerState : Payload → Option Frame
  | .empty => some []
  | .invalid => none
  | .json .null => some []
  | .json (.obj fs) => do
    let values ← Json.toAnyFields fs
    return (lastWins values).map fun e =>
      if e.1 = "setpoint_override" then
        (e.1, ((entry fs.reverse e.1).map Json.useNumber).getD .nil)
      else e
  | .json _ => none

/-! ## The override -/

/-- `int32Value`: `none` when the value is no 32-bit integer, and nil is a value. -/
def int32Value : Any → Option (Option ℤ)
  | .nil => some none
  | .number n => (n.parseInt 32).map some
  | .float64 (.fin q) =>
    if q.den = 1 ∧ -(2 : ℤ) ^ 31 ≤ q.num ∧ q.num < (2 : ℤ) ^ 31 then some (some q.num) else none
  | .int i => if -(2 : ℤ) ^ 31 ≤ i ∧ i < (2 : ℤ) ^ 31 then some (some i) else none
  | _ => none

/-- A member that is null or a string. -/
def nullableString : Any → Option (Option String)
  | .nil => some none
  | .string s => some (some s)
  | _ => none

/-- `ParseOverrideStatus`: every member of the acknowledgement has to be there. -/
def parseOverrideStatus (raw : Any) : Option SetpointOverrideStatus := do
  let m ← raw.object?
  let value ← int32Value (← entry m "value")
  let lastError ← nullableString (← entry m "last_error")
  let requestID ← nullableString (← entry m "request_id")
  return { value, lastError, requestID }

/-- The characters of a request identifier. -/
def isRequestIDChar (c : Char) : Bool :=
  c.isAlphanum || c == '.' || c == '_' || c == ':' || c == '-'

/-- `ValidRequestID`: one to 128 characters of the allowed set. -/
def validRequestID (id : String) : Bool :=
  id.toList.all isRequestIDChar && decide (1 ≤ id.toList.length) && decide (id.toList.length ≤ 128)

/-- `ValidateOverride`. -/
def validateOverride (payload : Any) : Bool :=
  match payload.object? with
  | none => false
  | some m =>
    decide (m.length = 2) && ((entry m "value").bind int32Value).isSome &&
      ((entry m "request_id").bind Any.string?).any validRequestID

/-- A revision: 64 lower-case hexadecimal digits. -/
def isTariffRevision (s : String) : Bool :=
  decide (s.toList.length = 64) && s.toList.all fun c =>
    ('a' ≤ c && c ≤ 'f') || ('0' ≤ c && c ≤ '9')

/-- `ValidateTariff`; `encodedLen` is the length of the encoded payload, `none` when it cannot
be encoded. -/
def validateTariff (payload : Any) (encodedLen : Option ℕ) : Bool :=
  match payload.object? with
  | none => false
  | some m =>
    decide (m.length = 3) && ((entry m "request_id").bind Any.string?).any validRequestID &&
      ((entry m "revision").bind Any.string?).any isTariffRevision &&
      (entry m "plan").any (fun p => p.isNil || p.object?.isSome) &&
      encodedLen.any fun n => decide (n ≤ 100000)

/-- The two string members of an ESS selection. -/
def validateESSSelection (payload : Any) : Bool :=
  match payload.object? with
  | none => false
  | some m =>
    decide (m.length = 2) &&
      ((entry m "mode").bind Any.string?).any (fun mode =>
        ["off", "on", "optimized_with_battery_life", "optimized_without_battery_life",
          "keep_batteries_charged", "external_control"].contains mode) &&
      ((entry m "request_id").bind Any.string?).any validRequestID

/-- The outcome of comparing the current status with a command. -/
inductive Acknowledgement where
  | pending
  | rejected
  | confirmed
  deriving DecidableEq

/-- `OverrideAcknowledged` on a status: `rejected` is the error result. -/
def overrideAcknowledged (status : Option SetpointOverrideStatus) (payload : Any) :
    Acknowledgement :=
  let m := payload.object?.getD []
  match status with
  | none => .pending
  | some s =>
    if s.requestID.isNone ∨ s.requestID ≠ (entry m "request_id").bind Any.string? then .pending
    else if s.lastError.isSome then .rejected
    else if ((entry m "value").bind int32Value).getD none = s.value then .confirmed
    else .pending

/-! ## Readiness -/

/-- `ObservationFresh`: a receipt at most 30 seconds old and not in the future. -/
def observationFresh (observed : Option F64) (now : Time) : Bool :=
  match observed with
  | none => false
  | some t =>
    let age := (receiptSeconds now).sub t
    t.isFinite && F64.le 0 age && F64.le age 30

/-- `ESSSelectionReady`. -/
def essSelectionReady (st : State) (now : Time) : Bool :=
  (st.field .essMode).selectionSupported && (st.field .dryRun == some false) &&
    (st.field .inverterAvailable == some true) && observationFresh (st.field .essModeObservedAt) now

/-- The commands `publishControllerCommand` sends. -/
inductive ControllerCommand where
  | setpointOverride
  | electricityTariff
  deriving DecidableEq

/-- The tariff status inside `ui_config`: its revision, when it is writable and well formed. -/
def writableRevision (uiConfig : GoMap Any) : Option String := do
  let status ← (uiConfig.find "electricity_tariff_status").bind Any.object?
  let writable ← (entry status "writable").bind Any.bool?
  let rev ← (entry status "revision").bind Any.string?
  if writable && isTariffRevision rev then some rev else none

/-- `ControllerCommandReady`; a nil payload matches every revision. -/
def controllerCommandReady (st : State) (name : ControllerCommand) (payload : Any)
    (now : Time) : Bool :=
  (st.field .inverterAvailable == some true) &&
    match name with
    | .setpointOverride =>
      (st.field .setpointOverride).isSome &&
        observationFresh (st.field .setpointOverrideObservedAt) now
    | .electricityTariff =>
      (writableRevision (st.field .uiConfig)).any (fun rev =>
        payload.isNil ||
          ((payload.object?.getD []).lookup "revision").bind Any.string? == some rev) &&
        observationFresh (st.field .electricityTariffObservedAt) now

/-- A receipt is the exact quotient, or infinite when the clock reading is out of range. -/
theorem receiptSeconds_cases (t : Time) :
    receiptSeconds t = .fin (t / 1000) ∨ ∃ s, receiptSeconds t = .inf s := by
  have hdiv : ∀ q : ℚ, (F64.fin q).div 1000 = F64.ofRat (q / 1000) := by
    intro q
    have h : ((1000 : ℕ) : ℚ) ≠ 0 := by norm_num
    exact_mod_cast F64.fin_div_fin h
  unfold receiptSeconds F64.ofInt
  rcases F64.ofRat_cases (t : ℚ) with h | ⟨s, h⟩ <;> rw [h]
  · rw [hdiv]
    exact F64.ofRat_cases _
  · exact Or.inr ⟨_, rfl⟩

/-- A receipt of this process that is fresh at `now` was taken in the 30 seconds before.

**Proof sketch.** The receipt is finite, so it is the exact quotient. If the current reading
overflowed, the age would be infinite and fail one of the bounds; so the age is the exact
difference brought into range, and the two bounds together exclude both infinities. -/
theorem observationFresh_receipt {t now : Time}
    (h : observationFresh (some (receiptSeconds t)) now = true) :
    t ≤ now ∧ now ≤ t + 30000 := by
  simp only [observationFresh, Bool.and_eq_true] at h
  obtain ⟨⟨hfin, hlo⟩, hhi⟩ := h
  rcases receiptSeconds_cases t with ht | ⟨s, ht⟩ <;> rw [ht] at hfin hlo hhi
  swap
  · cases hfin
  rcases receiptSeconds_cases now with hn | ⟨s, hn⟩ <;> rw [hn] at hlo hhi
  · have hsub : (F64.fin ((now : ℚ) / 1000)).sub (.fin ((t : ℚ) / 1000)) =
        F64.ofRat ((now : ℚ) / 1000 + -((t : ℚ) / 1000)) := rfl
    rw [hsub] at hlo hhi
    have hb := F64.natCast_lt_overflowBound (n := 30) (by norm_num)
    have lo := F64.fin_le_ofRat (b := ((0 : ℕ) : ℚ)) hlo
    have hi := F64.ofRat_le_fin (b := ((30 : ℕ) : ℚ)) hhi
    push_cast at lo hi hb
    have hlo' : (t : ℚ) ≤ now := by rcases lo with h | h <;> linarith
    have hhi' : (now : ℚ) ≤ t + 30000 := by rcases hi with h | h <;> linarith
    exact ⟨by exact_mod_cast hlo', by exact_mod_cast hhi'⟩
  · have hinf : (F64.inf s).sub (.fin ((t : ℚ) / 1000)) = .inf s := rfl
    rw [hinf] at hlo hhi
    cases s with
    | true => cases hlo
    | false => cases hhi

end Dashboard
