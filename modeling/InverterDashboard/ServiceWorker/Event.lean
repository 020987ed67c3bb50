import InverterDashboard.Go.Json
import InverterDashboard.Go.Round

set_option relaxedAutoImplicit false
set_option autoImplicit false

/-!
# The events of the service worker

`internal/html/vue-ui/notifications-sw.js`. The browser decrypts a push message and hands its JSON
value to the service worker of the dashboard, which shows a notification only for a value that has
the members, the bounds and the age it expects.

## Main definitions

* `ServiceWorker.safeInteger?` — `Number.isSafeInteger`, with the integer.
* `ServiceWorker.Event`, `ServiceWorker.normalizedEvent` — what is shown, and for which values.

## Main results

* `ServiceWorker.normalizedEvent_of_reads` — what a value with an event satisfies.
-/

namespace ServiceWorker

open Go (Json Number F64 lastWins entry)

/-! ## Values -/

/-- The greatest time value, in milliseconds. -/
def maxTime : ℤ := 8640000000000000

/-- `Number.MAX_SAFE_INTEGER`. -/
def maxSafeInteger : ℤ := 2 ^ 53 - 1

/-- `MAX_EVENTS`. -/
def maxEvents : ℤ := 4096

/-- `RETENTION_MS`. -/
def retentionMS : ℤ := 30 * 24 * 60 * 60 * 1000

/-- `MAX_EVENT_AGE_MS`. -/
def maxEventAgeMS : ℤ := 5 * 60 * 1000

/-- The value of a number of a JSON text: the nearest one of the format. -/
def numberValue (n : Number) : F64 := (F64.ofRat n.value).rounded

/-- `Number.isSafeInteger` of a number, with the integer. -/
def safeNumber? : F64 → Option ℤ
  | .fin q => if q.den = 1 ∧ |q.num| ≤ maxSafeInteger then some q.num else none
  | _ => none

/-- `Number.isSafeInteger(value)`, with the integer. -/
def safeInteger? : Json → Option ℤ
  | .num n => safeNumber? (numberValue n)
  | _ => none

/-- `typeof value === 'string'`, with the string. -/
def string? : Json → Option String
  | .str s => some s
  | _ => none

/-- A member of a value. Arrays and other values have none of those that are read here. -/
def member (value : Json) (name : String) : Option Json :=
  match value with
  | .obj fs => entry (lastWins fs) name
  | _ => none

/-- A string member of a value. -/
def stringMember (value : Json) (name : String) : Option String :=
  (member value name).bind string?

/-- A member of a value that is a safe integer. -/
def integerMember (value : Json) (name : String) : Option ℤ :=
  (member value name).bind safeInteger?

/-! ## Events -/

/-- What a notification is made of. -/
structure Event where
  key : String
  title : String
  body : String
  timestamp : ℤ
  deriving DecidableEq

/-- `/^[a-f0-9]{64}$/`. -/
def isEventKey (s : String) : Bool :=
  decide (s.toList.length = 64) &&
    s.toList.all fun c => ('a' ≤ c && c ≤ 'f') || ('0' ≤ c && c ≤ '9')

/-- The test of a timestamp: positive, not ahead of the clock by more than half a minute, and not
too old. -/
def recent (now : ℤ) (timestamp : ℤ) : Bool :=
  decide (0 < timestamp) && decide (timestamp ≤ now + 30000) &&
    decide (now - timestamp ≤ maxEventAgeMS)

/-- `normalizedEvent`. -/
def normalizedEvent (value : Json) (now : ℤ) : Option Event := do
  guard (integerMember value "schemaVersion" = some 1 ∧ stringMember value "url" = some "/")
  let kind ← stringMember value "kind"
  guard (kind ∈ ["native", "ev", "water", "lowBattery", "test"])
  let source ← stringMember value "source"
  guard (source ∈ ["victron", "ha", "system"])
  guard (¬(kind = "native" ∧ source ∉ ["victron", "system"]))
  let key ← stringMember value "eventKey"
  guard (isEventKey key = true)
  let title ← stringMember value "title"
  guard (title ≠ "" ∧ title.toList.length ≤ 120)
  let body ← stringMember value "body"
  guard (body.toList.length ≤ 1000)
  let timestamp ← integerMember value "sourceTimestampMs"
  guard (recent now timestamp = true)
  let observed ← integerMember value "observedAtMs"
  guard (recent now observed = true)
  return ⟨key, title, body, timestamp⟩

/-- The members of a value as the worker reads them. -/
structure Reads (value : Json) (kind source key title body : String)
    (timestamp observed : Option ℤ) : Prop where
  version : integerMember value "schemaVersion" = some 1
  url : stringMember value "url" = some "/"
  kind : stringMember value "kind" = some kind
  source : stringMember value "source" = some source
  key : stringMember value "eventKey" = some key
  title : stringMember value "title" = some title
  body : stringMember value "body" = some body
  timestamp : integerMember value "sourceTimestampMs" = timestamp
  observed : integerMember value "observedAtMs" = observed

/-- The texts and the origin of an event are in their bounds. -/
structure InBounds (kind source key title body : String) : Prop where
  ofKind : kind ∈ ["native", "ev", "water", "lowBattery", "test"]
  ofSource : source ∈ ["victron", "ha", "system"]
  ofPair : ¬(kind = "native" ∧ source ∉ ["victron", "system"])
  ofKey : isEventKey key = true
  ofTitle : title ≠ "" ∧ title.toList.length ≤ 120
  ofBody : body.toList.length ≤ 1000

/-- Within the bounds, the age decides. -/
theorem normalizedEvent_of_reads {value : Json} {kind source key title body : String}
    {timestamp observed : Option ℤ} (h : Reads value kind source key title body timestamp observed)
    (hbounds : InBounds kind source key title body) (now : ℤ) :
    normalizedEvent value now = (timestamp.filter (recent now)).bind fun t =>
      (observed.filter (recent now)).map fun _ => ⟨key, title, body, t⟩ := by
  unfold normalizedEvent
  rw [h.version, h.url, h.kind, h.source, h.key, h.title, h.body, h.timestamp, h.observed]
  simp only [Option.bind_eq_bind, Option.bind_some, guard, hbounds.ofKind, hbounds.ofSource,
    hbounds.ofPair, hbounds.ofKey, hbounds.ofTitle, hbounds.ofBody, and_self, not_false_eq_true,
    if_true, ne_eq, Option.pure_def]
  cases timestamp with
  | none => rfl
  | some t =>
    by_cases ht : recent now t = true
    · cases observed with
      | none => simp [ht, Option.filter]
      | some o => by_cases ho : recent now o = true <;> simp [ht, ho, Option.filter]
    · simp [ht, Option.filter]

/-- The value of a positive integer is read back up to the greatest safe one. -/
theorem safeInteger?_ofInt {n : ℤ} (h : 0 < n) :
    safeInteger? (.num (Number.ofInt n)) = if n ≤ maxSafeInteger then some n else none := by
  have hvalue : (Number.ofInt n).value = n := by
    obtain ⟨m, rfl⟩ := Int.eq_ofNat_of_zero_le h.le
    simp [Number.ofInt, Number.value, Number.fracValue, not_lt.mpr h.le]
  show safeNumber? (F64.ofRat (Number.ofInt n).value).rounded = _
  rw [hvalue]
  by_cases hmax : n ≤ maxSafeInteger
  · obtain ⟨m, rfl⟩ := Int.eq_ofNat_of_zero_le h.le
    have hm : m < 2 ^ 53 := by
      unfold maxSafeInteger at hmax
      omega
    have hover : (m : ℚ) < F64.overflowBound := F64.natCast_lt_overflowBound (by omega)
    have hfin : F64.ofRat (m : ℚ) = .fin m := by
      have hpos : (0 : ℚ) ≤ m := Nat.cast_nonneg m
      unfold F64.ofRat
      rw [if_neg (not_le.mpr hover), if_neg (by linarith)]
    rw [if_pos hmax, Int.cast_natCast, hfin]
    unfold F64.rounded safeNumber?
    simp [Go.Rounding.nearest_natCast hm, hmax]
  · rw [if_neg hmax]
    rcases F64.ofRat_cases (n : ℚ) with hfin | ⟨s, hinf⟩
    · rw [hfin]
      have hle : (2 : ℚ) ^ 53 ≤ n := by
        have : (2 : ℤ) ^ 53 ≤ n := by
          unfold maxSafeInteger at hmax
          omega
        exact_mod_cast this
      have hnearest := Go.Rounding.le_nearest_of_le hle
      unfold F64.rounded safeNumber?
      refine if_neg fun ⟨hden, hsafe⟩ => ?_
      have hnum : (Go.Rounding.nearest (n : ℚ)).num = Go.Rounding.nearest (n : ℚ) :=
        Rat.coe_int_num_of_den_eq_one hden
      have habs : (Go.Rounding.nearest (n : ℚ)).num ≤ maxSafeInteger := (le_abs_self _).trans hsafe
      unfold maxSafeInteger at habs
      have : ((Go.Rounding.nearest (n : ℚ)).num : ℚ) ≤ 2 ^ 53 - 1 := by exact_mod_cast habs
      linarith
    · rw [hinf]
      rfl

end ServiceWorker
