import InverterDashboard.Mqtt.Notifications

set_option relaxedAutoImplicit false
set_option autoImplicit false

/-!
# Native scalars

`internal/state/native_notification.go` and `notification.go`: the readers of notification levels,
flags and times, on numbers and booleans as the source has them. The forms that `strconv.ParseFloat`
and `big.Rat.SetString` accept in a text, and the layout of a time, are parameters.

## Main definitions

* `Dashboard.NativeTexts` — the readers of texts.
* `Dashboard.nativeLevel`, `nativeFlag`, `nativeTime` — the three readers.
* `Dashboard.NativeTexts.scalars` — the readers the reducers call.

## Main results

* `Dashboard.nativeLevel_eq_none_of_overflow`, `nativeTime_of_overflow` — a literal outside the
  range of `float64` is no level and no time.
-/

namespace Dashboard

open Go

/-- The readers of texts. A blank text is no number. -/
structure NativeTexts where
  /-- `NativeNotificationLevel` of a trimmed text. -/
  level : String → Option ℕ
  /-- `NotificationTime` of a text. -/
  time : String → String
  /-- `time.Unix(seconds, 0).UTC().Format(time.RFC3339)`. -/
  rfc3339 : ℕ → String
  level_le : ∀ s n, level s = some n → n ≤ 2
  level_empty : level "" = none
  time_blank : ∀ s, trimSpace s = "" → time s = ""

/-- The level of a number: exactly 0, 1 or 2. -/
def exactLevel : F64 → Option ℕ
  | .fin q => if q = 0 then some 0 else if q = 1 then some 1 else if q = 2 then some 2 else none
  | _ => none

/-- `NativeNotificationLevel`: a literal is read exactly, after it was in the range of
`float64`. -/
def nativeLevel (t : NativeTexts) : Any → Option ℕ
  | .float64 x => exactLevel x
  | .int i => exactLevel (F64.ofInt i)
  | .number n => exactLevel (F64.ofRat n.value)
  | .string s => t.level (trimSpace s)
  | _ => none

/-- `NativeNotificationBool`. -/
def nativeFlag (t : NativeTexts) (v : Any) : Option Bool :=
  match v with
  | .bool b => some b
  | v =>
    match (v.string?.map fun s => toLower (trimSpace s)) with
    | some "true" => some true
    | some "false" => some false
    | _ => ((nativeLevel t v).filter fun n => n ≤ 1).map fun n => n == 1

/-- `9999-12-31T23:59:59Z`. -/
def lastRFC3339Second : ℚ := 253402300799

/-- The time of a number of seconds: positive, whole and with a year of four digits. -/
def exactTime (t : NativeTexts) : F64 → String
  | .fin q =>
    if q ≤ 0 ∨ lastRFC3339Second < q ∨ q.den ≠ 1 then "" else t.rfc3339 q.num.toNat
  | _ => ""

/-- `NotificationTime`. -/
def nativeTime (t : NativeTexts) : Any → String
  | .float64 x => exactTime t x
  | .int i => exactTime t (F64.ofInt i)
  | .number n => exactTime t (F64.ofRat n.value)
  | .string s => t.time s
  | _ => ""

/-- The readers the reducers call. -/
def NativeTexts.scalars (t : NativeTexts) : NativeScalars :=
  ⟨nativeLevel t, nativeFlag t, nativeTime t⟩

theorem exactLevel_eq_none {x : F64} (h : ∀ q, x ≠ .fin q) : exactLevel x = none := by
  cases x with
  | fin q => exact absurd rfl (h q)
  | inf | nan => rfl

/-- A literal that `float64` does not hold is no level. -/
theorem nativeLevel_eq_none_of_overflow (t : NativeTexts) {n : Number}
    (h : ∀ q, F64.ofRat n.value ≠ .fin q) : nativeLevel t (.number n) = none :=
  exactLevel_eq_none h

/-- A literal that `float64` does not hold is no time. -/
theorem nativeTime_of_overflow (t : NativeTexts) {n : Number}
    (h : ∀ q, F64.ofRat n.value ≠ .fin q) : nativeTime t (.number n) = "" := by
  show exactTime t (F64.ofRat n.value) = ""
  cases hx : F64.ofRat n.value with
  | fin q => exact absurd hx (h q)
  | inf | nan => rfl

end Dashboard
