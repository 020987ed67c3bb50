import InverterDashboard.Go.Literal
import InverterDashboard.Go.Utf8
import InverterDashboard.Go.Word

set_option relaxedAutoImplicit false
set_option autoImplicit false

/-!
# Durations of appliances

`parseFiniteNumber` and `parseStateToSeconds` of `internal/homeassistant/client.go`. The result is
an `int`, whose size depends on the target; the loop over the components of a clock text tests by a
division whether the next total is one. The function is written over what becomes of the exact
result of an operation, so that one definition is the program and the search for an overflow.

## Main definitions

* `Dashboard.HomeAssistant.parseFiniteNumber`, `parseStateToSeconds` — the functions.
* `Dashboard.HomeAssistant.durationSeconds` — `parseStateToSeconds` over its operations.
* `Dashboard.HomeAssistant.Duration` — the texts that are durations, and their seconds.

## Main results

* `Dashboard.HomeAssistant.clockSeconds_eq` — the loop finds the total exactly if it is an `int`.
* `Dashboard.HomeAssistant.durationSeconds_eq` — what is returned, for all readings of the
  operations that leave numbers of the type alone.
* `Dashboard.HomeAssistant.parseStateToSeconds_spec` — durations are parsed exactly, without an
  overflow.
-/

namespace Dashboard

open Go

namespace HomeAssistant

/-! ## The functions -/

/-- `parseFiniteNumber`. -/
def parseFiniteNumber (raw : String) : Option F64 := (parseFloat64 raw).filter F64.isFinite

/-- The largest integer that a JSON number keeps exactly. -/
def maxSafeSeconds : ℤ := 2 ^ 53 - 1

/-- `strings.Split(s, ":")`. -/
def splitColons (cs : List Char) : List (List Char) := cs.splitOn ':'

/-- The integer that the conversion of a finite number has to give. -/
def wholePart : F64 → ℤ
  | .fin q => F64.truncRat q
  | _ => 0

section Operations

variable {m : Type → Type} [Monad m] (op : ℤ → m ℤ) (w : IntSize)

/-- The loop over the components of a clock text, from the left; none where the program returns
zero. -/
def clockSeconds : Bool → ℤ → List (List Char) → m (Option ℤ)
  | _, total, [] => pure (some total)
  | first, total, part :: parts =>
    match w.atoi (String.ofList part) with
    | none => pure none
    | some unit =>
      if trim (String.ofList part) "0123456789" ≠ "" ∨ unit < 0 ∨ (first = false ∧ 60 ≤ unit) then
        pure none
      else do
        let room ← op (w.maxInt - unit)
        let limit ← op (room.tdiv 60)
        if limit < total then pure none
        else do
          let scaled ← op (total * 60)
          let total ← op (scaled + unit)
          clockSeconds false total parts

/-- `parseStateToSeconds`, over what becomes of the exact results of its operations. -/
def durationSeconds (raw : String) : m ℤ :=
  let raw := trimSpace raw
  match (parseFiniteNumber raw).filter fun val =>
      F64.le 0 val && val.le (F64.ofInt maxSafeSeconds) && val.le (F64.ofInt w.maxInt).rounded with
  | some val => op (wholePart val)
  | none =>
    let parts := splitColons raw.toList
    if parts.length ≠ 2 ∧ parts.length ≠ 3 then pure 0
    else do
      match ← clockSeconds op w true 0 parts with
      | none => pure 0
      | some total => pure (if maxSafeSeconds < total then 0 else total)

end Operations

/-- `parseStateToSeconds`. -/
def parseStateToSeconds (w : IntSize) (raw : String) : ℤ :=
  Id.run (durationSeconds (fun n => pure (w.wrap n)) w raw)

/-! ## Texts that are durations -/

/-- The documented durations, on a text without outer space: a number of seconds whose fraction is
dropped, minutes and seconds, and hours, minutes and seconds. Components are digit strings. -/
inductive Duration (w : IntSize) (text : List Char) : ℤ → Prop
  | number {q : ℚ} : parseFloat64 (String.ofList text) = some (.fin q) → 0 ≤ q →
      q ≤ maxSafeSeconds → q ≤ w.maxInt → Duration w text ⌊q⌋
  | minutes {mm ss : List Char} {m s : ℕ} : text = mm ++ ':' :: ss →
      digitsValue mm = some m → digitsValue ss = some s → s < 60 →
      ((60 * m + s : ℕ) : ℤ) ≤ maxSafeSeconds → ((60 * m + s : ℕ) : ℤ) ≤ w.maxInt →
      Duration w text (60 * m + s : ℕ)
  | hours {hh mm ss : List Char} {h m s : ℕ} : text = hh ++ ':' :: (mm ++ ':' :: ss) →
      digitsValue hh = some h → digitsValue mm = some m → digitsValue ss = some s →
      m < 60 → s < 60 →
      ((3600 * h + 60 * m + s : ℕ) : ℤ) ≤ maxSafeSeconds →
      ((3600 * h + 60 * m + s : ℕ) : ℤ) ≤ w.maxInt →
      Duration w text (3600 * h + 60 * m + s : ℕ)

/-! ## The loop -/

/-- The total of the components without regard to its size. -/
def clockTotal : Bool → ℕ → List (List Char) → Option ℕ
  | _, total, [] => some total
  | first, total, part :: parts =>
    match digitsValue part with
    | none => none
    | some v => if first = false ∧ 60 ≤ v then none else clockTotal false (60 * total + v) parts

/-- The total grows from component to component. -/
theorem le_clockTotal {first : Bool} {total n : ℕ} {parts : List (List Char)}
    (h : clockTotal first total parts = some n) : total ≤ n := by
  induction parts generalizing first total with
  | nil => exact (Option.some.inj h).le
  | cons part parts ih =>
    rw [clockTotal] at h
    split at h
    · cases h
    · next v _ =>
      split_ifs at h
      exact le_trans (by omega) (ih h)

/-- What passes the checks of a component is a digit string. -/
theorem isSome_digitsValue {w : IntSize} {part : List Char} {unit : ℤ}
    (hread : w.atoi (String.ofList part) = some unit)
    (htrim : trim (String.ofList part) "0123456789" = "") : (digitsValue part).isSome = true := by
  have hall := (trim_digits_eq_empty_iff _).mp htrim
  rw [String.toList_ofList] at hall
  have hne : part ≠ [] := by
    rintro rfl
    have hnone : w.atoi (String.ofList []) = none := rfl
    rw [hnone] at hread
    cases hread
  exact Option.isSome_iff_exists.mpr ⟨_, digitsValue_eq_some_iff.mpr ⟨hne, hall, rfl⟩⟩

section Operations

variable {m : Type → Type} [Monad m] [LawfulMonad m] {op : ℤ → m ℤ} {w : IntSize}
  (hop : ∀ n, w.Holds n → op n = pure n)
include hop

/-- **The loop** finds the total exactly if the type holds it.

**Proof sketch.** By induction on the components. The test by division passes exactly if the next
total is not above the largest number, and a total that is above it does not come back. -/
theorem clockSeconds_eq {first : Bool} {total : ℕ} (htotal : (total : ℤ) ≤ w.maxInt)
    (parts : List (List Char)) :
    clockSeconds op w first total parts = pure
      (((clockTotal first total parts).filter fun n : ℕ => (n : ℤ) ≤ w.maxInt).map Nat.cast) := by
  induction parts generalizing first total with
  | nil =>
    rw [clockSeconds, clockTotal, Option.filter_some, if_pos (decide_eq_true htotal)]
    rfl
  | cons part parts ih =>
    rw [clockSeconds, clockTotal]
    cases hvalue : digitsValue part with
    | none =>
      dsimp only
      split
      · rfl
      · next unit hread =>
        have htrim : trim (String.ofList part) "0123456789" ≠ "" := by
          intro heq
          have hsome := isSome_digitsValue hread heq
          rw [hvalue] at hsome
          cases hsome
        rw [if_pos (Or.inl htrim)]
        rfl
    | some v =>
      have hall := (digitsValue_eq_some_iff.mp hvalue).2.1
      have htrim : trim (String.ofList part) "0123456789" = "" := by
        rw [trim_digits_eq_empty_iff, String.toList_ofList]
        exact hall
      rw [w.atoi_digits hvalue]
      dsimp only
      by_cases hfit : (v : ℤ) ≤ w.maxInt
      · rw [if_pos hfit]
        dsimp only
        by_cases hsixty : first = false ∧ 60 ≤ v
        · rw [if_pos (Or.inr (Or.inr ⟨hsixty.1, by omega⟩)), if_pos hsixty]
          rfl
        · have hpass : ¬(trim (String.ofList part) "0123456789" ≠ "" ∨ (v : ℤ) < 0 ∨
              (first = false ∧ 60 ≤ (v : ℤ))) := by
            rintro (h | h | ⟨h₁, h₂⟩)
            · exact h htrim
            · omega
            · exact hsixty ⟨h₁, by omega⟩
          have hpos := w.maxInt_pos
          have hroom : w.Holds (w.maxInt - v) := IntSize.holds_of_nonneg (by omega) (by omega)
          have hdiv : (w.maxInt - v).tdiv 60 = (w.maxInt - v) / 60 :=
            Int.tdiv_eq_ediv_of_nonneg (by omega)
          have hlimit : w.Holds ((w.maxInt - v).tdiv 60) := by
            rw [hdiv]
            exact IntSize.holds_of_nonneg (by omega) (by omega)
          rw [if_neg hpass, if_neg hsixty, hop _ hroom, pure_bind, hop _ hlimit, pure_bind, hdiv]
          by_cases hover : (w.maxInt - v) / 60 < (total : ℤ)
          · -- the next total is too large, and so are all that follow
            have hnone : (clockTotal false (60 * total + v) parts).filter
                (fun n : ℕ => (n : ℤ) ≤ w.maxInt) = none := by
              rw [Option.filter_eq_none_iff]
              intro n hn hle
              have := le_clockTotal hn
              have := of_decide_eq_true hle
              omega
            rw [if_pos hover, hnone]
            rfl
          · have hscaled : w.Holds (total * 60 : ℤ) :=
              IntSize.holds_of_nonneg (by omega) (by omega)
            have hnext : w.Holds (total * 60 + v : ℤ) :=
              IntSize.holds_of_nonneg (by omega) (by omega)
            have hcast : (total * 60 + v : ℤ) = ((60 * total + v : ℕ) : ℤ) := by
              push_cast
              ring
            rw [if_neg hover, hop _ hscaled, pure_bind, hop _ hnext, pure_bind, hcast]
            exact ih (hcast ▸ hnext.2)
      · -- the component is no `int`
        have hnone : (if first = false ∧ 60 ≤ v then none
            else clockTotal false (60 * total + v) parts).filter
              (fun n : ℕ => (n : ℤ) ≤ w.maxInt) = none := by
          rw [Option.filter_eq_none_iff]
          intro n hn hle
          split_ifs at hn
          have := le_clockTotal hn
          have := of_decide_eq_true hle
          omega
        rw [if_neg hfit, hnone]
        rfl

end Operations

/-! ## Numbers and clock texts -/

/-- The numbers that are taken as seconds. The largest 64-bit number is rounded up, but it is not
the smaller one of the two bounds. -/
theorem number_eq_some_iff {w : IntSize} {text : String} {val : F64} :
    ((parseFiniteNumber text).filter fun val =>
      F64.le 0 val && val.le (F64.ofInt maxSafeSeconds) &&
        val.le (F64.ofInt w.maxInt).rounded) = some val ↔
      ∃ q, val = .fin q ∧ parseFloat64 text = some (.fin q) ∧ 0 ≤ q ∧ q ≤ maxSafeSeconds ∧
        q ≤ w.maxInt := by
  have hsafe : F64.ofInt maxSafeSeconds = .fin 9007199254740991 := by decide +kernel
  have hcast : ((maxSafeSeconds : ℤ) : ℚ) = 9007199254740991 := by
    unfold maxSafeSeconds
    norm_num
  have hbounds : ∀ q : ℚ, (F64.le 0 (.fin q) && F64.le (.fin q) (F64.ofInt maxSafeSeconds) &&
      F64.le (.fin q) (F64.ofInt w.maxInt).rounded) = true ↔
        0 ≤ q ∧ q ≤ maxSafeSeconds ∧ q ≤ w.maxInt := by
    intro q
    have hzero : (0 : F64) = .fin 0 := rfl
    rw [hsafe, hcast, Bool.and_eq_true, Bool.and_eq_true, hzero, F64.fin_le_fin, F64.fin_le_fin,
      and_assoc]
    cases w with
    | bits32 =>
      have hmax : (F64.ofInt IntSize.bits32.maxInt).rounded = .fin 2147483647 := by decide +kernel
      have hmaxcast : ((IntSize.bits32.maxInt : ℤ) : ℚ) = 2147483647 := by decide +kernel
      rw [hmax, hmaxcast, F64.fin_le_fin]
    | bits64 =>
      have hmax : (F64.ofInt IntSize.bits64.maxInt).rounded = .fin 9223372036854775808 := by
        decide +kernel
      have hmaxcast : ((IntSize.bits64.maxInt : ℤ) : ℚ) = 9223372036854775807 := by decide +kernel
      rw [hmax, hmaxcast, F64.fin_le_fin]
      constructor
      · rintro ⟨h₁, h₂, -⟩
        exact ⟨h₁, h₂, h₂.trans (by norm_num)⟩
      · rintro ⟨h₁, h₂, -⟩
        exact ⟨h₁, h₂, h₂.trans (by norm_num)⟩
  rw [Option.filter_eq_some_iff]
  unfold parseFiniteNumber
  rw [Option.filter_eq_some_iff]
  constructor
  · rintro ⟨⟨hread, hfinite⟩, hle⟩
    cases val with
    | fin q => exact ⟨q, rfl, hread, (hbounds q).mp hle⟩
    | inf neg => cases hfinite
    | nan => cases hfinite
  · rintro ⟨q, rfl, hread, hle⟩
    exact ⟨⟨hread, rfl⟩, (hbounds q).mpr hle⟩

/-- A mantissa ends at a colon. -/
theorem readMantissa_digits {cs : List Char} (h : ∀ c ∈ cs, c.isDigit = true) (m : Mantissa)
    (rest : List Char) : (readMantissa false m (cs ++ ':' :: rest)).2 = ':' :: rest := by
  induction cs generalizing m with
  | nil => rfl
  | cons c cs ih =>
    have hdigit := h c List.mem_cons_self
    have hunder : c ≠ '_' := by
      rintro rfl
      exact absurd hdigit (by decide)
    have hdot : c ≠ '.' := by
      rintro rfl
      exact absurd hdigit (by decide)
    have hvalue : digitValue? false c = some (c.toNat - '0'.toNat) := by
      unfold digitValue?
      rw [if_pos hdigit]
    rw [List.cons_append, readMantissa, if_neg hunder, if_neg hdot, hvalue]
    exact ih (fun c' hc' => h c' (List.mem_cons_of_mem _ hc')) _

/-- Digits in front of a colon have no base. -/
theorem cutBase_digits {cs : List Char} (hne : cs ≠ []) (h : ∀ c ∈ cs, c.isDigit = true)
    (rest : List Char) : cutBase (cs ++ ':' :: rest) = (false, cs ++ ':' :: rest) := by
  unfold cutBase
  split
  · next x c tail heq =>
    have hx : x.toLower ≠ 'x' := by
      obtain ⟨d, ds, rfl⟩ := List.exists_cons_of_ne_nil hne
      cases ds with
      | nil =>
        obtain rfl : ':' = x := (List.cons.inj (List.cons.inj heq).2).1
        decide
      | cons e ds =>
        obtain rfl : e = x := (List.cons.inj (List.cons.inj heq).2).1
        have hdigit := h e (by simp)
        rw [toLower_of_isDigit hdigit]
        rintro rfl
        exact absurd hdigit (by decide)
    rw [if_neg hx]
  · rfl

/-- **Clock texts** are no numbers. -/
theorem parseFiniteNumber_clock {cs : List Char} {n : ℕ} (h : digitsValue cs = some n)
    (rest : List Char) : parseFiniteNumber (String.ofList (cs ++ ':' :: rest)) = none := by
  obtain ⟨hne, hall, -⟩ := digitsValue_eq_some_iff.mp h
  have hsign : cutSign (cs ++ ':' :: rest) = (false, cs ++ ':' :: rest) := by
    obtain ⟨c, cs, rfl⟩ := List.exists_cons_of_ne_nil hne
    have hdigit := hall c List.mem_cons_self
    unfold cutSign
    split
    · next heq =>
      rw [(List.cons.inj heq).1] at hdigit
      exact absurd hdigit (by decide)
    · next heq =>
      rw [(List.cons.inj heq).1] at hdigit
      exact absurd hdigit (by decide)
    · rfl
  have hread : readLiteral (cs ++ ':' :: rest) = none := by
    have hexp : cutExponent false (':' :: rest) = some ((0, false), ':' :: rest) := rfl
    unfold readLiteral
    rw [cutBase_digits hne hall]
    dsimp only
    rw [readMantissa_digits hall, hexp]
    split_ifs <;> rfl
  have hnone : parseLiteral (String.ofList (cs ++ ':' :: rest)) = none := by
    unfold parseLiteral
    rw [String.toList_ofList, hsign, hread]
    rfl
  have hfin := parseFloat_of_parseLiteral_none hnone
  unfold parseFiniteNumber parseFloat64
  cases hparse : parseFloat (String.ofList (cs ++ ':' :: rest)) with
  | none => rfl
  | some x =>
    cases x with
    | fin q => exact absurd hparse (hfin q)
    | inf neg => rfl
    | nan => rfl

theorem colon_notMem {cs : List Char} {n : ℕ} (h : digitsValue cs = some n) : ':' ∉ cs := by
  intro hmem
  exact absurd ((digitsValue_eq_some_iff.mp h).2.1 _ hmem) (by decide)

theorem splitColons_minutes {mm ss : List Char} {m s : ℕ} (hm : digitsValue mm = some m)
    (hs : digitsValue ss = some s) : splitColons (mm ++ ':' :: ss) = [mm, ss] := by
  unfold splitColons
  rw [List.splitOn_append_cons_self_of_not_mem (colon_notMem hm),
    List.splitOn_eq_singleton (colon_notMem hs)]

/-- The total of two components. -/
theorem clockTotal_minutes_iff {mm ss : List Char} {n : ℕ} :
    clockTotal true 0 [mm, ss] = some n ↔ ∃ m s, digitsValue mm = some m ∧
      digitsValue ss = some s ∧ s < 60 ∧ n = 60 * m + s := by
  simp only [clockTotal]
  cases digitsValue mm with
  | none => simp
  | some m =>
    cases digitsValue ss with
    | none => simp
    | some s =>
      by_cases hs : 60 ≤ s
      · simp [hs]
      · simp [hs, not_le.mp hs, eq_comm]

/-- The total of three components. -/
theorem clockTotal_hours_iff {hh mm ss : List Char} {n : ℕ} :
    clockTotal true 0 [hh, mm, ss] = some n ↔ ∃ h m s, digitsValue hh = some h ∧
      digitsValue mm = some m ∧ digitsValue ss = some s ∧ m < 60 ∧ s < 60 ∧
      n = 3600 * h + 60 * m + s := by
  simp only [clockTotal]
  cases digitsValue hh with
  | none => simp
  | some h =>
    cases digitsValue mm with
    | none => simp
    | some m =>
      cases digitsValue ss with
      | none => by_cases hm : 60 ≤ m <;> simp [hm]
      | some s =>
        have hsum : 60 * (60 * h + m) + s = 3600 * h + 60 * m + s := by ring
        by_cases hm : 60 ≤ m
        · simp [hm]
        · by_cases hs : 60 ≤ s
          · simp [hm, hs]
          · simp [hm, hs, not_le.mp hm, not_le.mp hs, hsum, eq_comm]

/-! ## What is returned -/

section Operations

variable {m : Type → Type} [Monad m] [LawfulMonad m] {op : ℤ → m ℤ} {w : IntSize}
  (hop : ∀ n, w.Holds n → op n = pure n)
include hop

/-- What is returned for a text that is no number. -/
theorem durationSeconds_of_none {raw : String}
    (hnone : parseFiniteNumber (trimSpace raw) = none ∨ ∀ q : ℚ, 0 ≤ q → q ≤ maxSafeSeconds →
      q ≤ w.maxInt → parseFloat64 (trimSpace raw) ≠ some (.fin q)) :
    durationSeconds op w raw = pure
      (if (splitColons (trimSpace raw).toList).length ≠ 2 ∧
          (splitColons (trimSpace raw).toList).length ≠ 3 then 0
        else match clockTotal true 0 (splitColons (trimSpace raw).toList) with
          | none => 0
          | some n => if maxSafeSeconds < n ∨ w.maxInt < n then 0 else (n : ℤ)) := by
  have hnumber : (parseFiniteNumber (trimSpace raw)).filter (fun val =>
      F64.le 0 val && val.le (F64.ofInt maxSafeSeconds) &&
        val.le (F64.ofInt w.maxInt).rounded) = none := by
    rw [Option.eq_none_iff_forall_ne_some]
    intro val hval
    obtain ⟨q, rfl, hread, h₀, h₁, h₂⟩ := number_eq_some_iff.mp hval
    rcases hnone with hnone | hnone
    · rw [hnone] at hval
      cases hval
    · exact hnone q h₀ h₁ h₂ hread
  unfold durationSeconds
  dsimp only
  rw [hnumber]
  dsimp only
  by_cases hlen : (splitColons (trimSpace raw).toList).length ≠ 2 ∧
      (splitColons (trimSpace raw).toList).length ≠ 3
  · rw [if_pos hlen, if_pos hlen]
  · have hloop : clockSeconds op w true 0 (splitColons (trimSpace raw).toList) = pure
        (((clockTotal true 0 (splitColons (trimSpace raw).toList)).filter
          fun n : ℕ => (n : ℤ) ≤ w.maxInt).map Nat.cast) :=
      clockSeconds_eq hop w.maxInt_pos.le _
    rw [if_neg hlen, if_neg hlen, hloop, pure_bind]
    cases clockTotal true 0 (splitColons (trimSpace raw).toList) with
    | none => rfl
    | some n =>
      by_cases hfit : (n : ℤ) ≤ w.maxInt
      · rw [Option.filter_some, if_pos (decide_eq_true hfit)]
        by_cases hsafe : maxSafeSeconds < (n : ℤ)
        · simp [hsafe]
        · simp [hsafe, not_lt.mpr hfit]
      · rw [Option.filter_some, if_neg (by simpa using hfit)]
        simp [not_le.mp hfit]

/-- **Durations** give their seconds. -/
theorem durationSeconds_of_duration {raw : String} {n : ℤ}
    (h : Duration w (trimSpace raw).toList n) : durationSeconds op w raw = pure n := by
  have hclock : ∀ {cs rest : List Char} {v : ℕ}, (trimSpace raw).toList = cs ++ ':' :: rest →
      digitsValue cs = some v → parseFiniteNumber (trimSpace raw) = none := by
    intro cs rest v htext hv
    rw [← String.ofList_toList (s := trimSpace raw), htext]
    exact parseFiniteNumber_clock hv rest
  cases h with
  | @number q hread h₀ h₁ h₂ =>
    rw [String.ofList_toList] at hread
    have hval := number_eq_some_iff.mpr ⟨q, rfl, hread, h₀, h₁, h₂⟩
    have hwhole : wholePart (.fin q) = ⌊q⌋ := if_neg (not_lt.mpr h₀)
    have hholds : w.Holds ⌊q⌋ :=
      IntSize.holds_of_nonneg (Int.floor_nonneg.mpr h₀) (Int.cast_le.mp ((Int.floor_le q).trans h₂))
    unfold durationSeconds
    dsimp only
    rw [hval]
    dsimp only
    rw [hwhole]
    exact hop _ hholds
  | @minutes mm ss m s htext hm hs hlt h₁ h₂ =>
    rw [durationSeconds_of_none hop (Or.inl (hclock htext hm)), htext, splitColons_minutes hm hs,
      clockTotal_minutes_iff.mpr ⟨m, s, hm, hs, hlt, rfl⟩]
    simp only [List.length_cons, List.length_nil, not_lt.mpr h₁, not_lt.mpr h₂]
    rfl
  | @hours hh mm ss h m s htext hh' hm hs hltm hlts h₁ h₂ =>
    have hsplit : splitColons (hh ++ ':' :: (mm ++ ':' :: ss)) = [hh, mm, ss] := by
      unfold splitColons
      rw [List.splitOn_append_cons_self_of_not_mem (colon_notMem hh')]
      exact congrArg (hh :: ·) (splitColons_minutes hm hs)
    rw [durationSeconds_of_none hop (Or.inl (hclock htext hh')), htext, hsplit,
      clockTotal_hours_iff.mpr ⟨h, m, s, hh', hm, hs, hltm, hlts, rfl⟩]
    simp only [List.length_cons, List.length_nil, not_lt.mpr h₁, not_lt.mpr h₂]
    rfl

/-- **Other texts** give zero. -/
theorem durationSeconds_of_not_duration {raw : String}
    (h : ∀ n, ¬ Duration w (trimSpace raw).toList n) : durationSeconds op w raw = pure 0 := by
  have hnumber : ∀ q : ℚ, 0 ≤ q → q ≤ maxSafeSeconds → q ≤ w.maxInt →
      parseFloat64 (trimSpace raw) ≠ some (.fin q) := by
    intro q h₀ h₁ h₂ hread
    refine h ⌊q⌋ (.number ?_ h₀ h₁ h₂)
    rw [String.ofList_toList]
    exact hread
  rw [durationSeconds_of_none hop (Or.inr hnumber)]
  have htext : [':'].intercalate ((trimSpace raw).toList.splitOn ':') = (trimSpace raw).toList :=
    List.intercalate_splitOn ':'
  change List.intercalate [':'] (splitColons (trimSpace raw).toList) = _ at htext
  generalize splitColons (trimSpace raw).toList = parts at htext
  by_cases hlen : parts.length ≠ 2 ∧ parts.length ≠ 3
  · rw [if_pos hlen]
  rw [if_neg hlen]
  cases htotal : clockTotal true 0 parts with
  | none => rfl
  | some n =>
    dsimp only
    by_cases hover : maxSafeSeconds < (n : ℤ) ∨ w.maxInt < (n : ℤ)
    · rw [if_pos hover]
    · obtain ⟨hsafe, hfit⟩ := not_or.mp hover
      have hlength : parts.length = 2 ∨ parts.length = 3 := by omega
      rcases hlength with hlength | hlength
      · obtain ⟨mm, ss, rfl⟩ := List.length_eq_two.mp hlength
        obtain ⟨m, s, hm, hs, hlt, rfl⟩ := clockTotal_minutes_iff.mp htotal
        exact absurd (.minutes (by rw [← htext]; simp) hm hs hlt (not_lt.mp hsafe) (not_lt.mp hfit))
          (h _)
      · obtain ⟨hh, mm, ss, rfl⟩ := List.length_eq_three.mp hlength
        obtain ⟨v, m, s, hv, hm, hs, hltm, hlts, rfl⟩ := clockTotal_hours_iff.mp htotal
        exact absurd (.hours (by rw [← htext]; simp) hv hm hs hltm hlts (not_lt.mp hsafe)
          (not_lt.mp hfit)) (h _)

/-- **What is returned** does not depend on what would become of an overflow. -/
theorem durationSeconds_eq (raw : String) :
    ∃ n, durationSeconds op w raw = pure n ∧
      (Duration w (trimSpace raw).toList n ∨
        n = 0 ∧ ∀ k, ¬ Duration w (trimSpace raw).toList k) := by
  by_cases h : ∃ n, Duration w (trimSpace raw).toList n
  · obtain ⟨n, hn⟩ := h
    exact ⟨n, durationSeconds_of_duration hop hn, Or.inl hn⟩
  · have hnot := not_exists.mp h
    exact ⟨0, durationSeconds_of_not_duration hop hnot, Or.inr ⟨rfl, hnot⟩⟩

end Operations

/-- **Durations are parsed exactly.** For every string of any bytes and both sizes of `int`, no
operation of `parseStateToSeconds` overflows, and a number is returned exactly if it is the number
of seconds of the trimmed text, or if it is zero and the text is no duration.

**Proof sketch.** The function over its operations returns the same for all readings that leave the
numbers of the type alone; the machine is one of them and the search for an overflow another. -/
theorem parseStateToSeconds_spec (w : IntSize) (raw : List UInt8) :
    durationSeconds w.check w (textOf raw) = .ok (parseStateToSeconds w (textOf raw)) ∧
      ∀ n, parseStateToSeconds w (textOf raw) = n ↔
        Duration w (trimSpace (textOf raw)).toList n ∨
          n = 0 ∧ ∀ k, ¬ Duration w (trimSpace (textOf raw)).toList k := by
  have hwrap : ∀ n, w.Holds n → (fun n => (pure (w.wrap n) : Id ℤ)) n = pure n := fun n hn =>
    congrArg pure (IntSize.wrap_of_holds hn)
  have hcheck : ∀ n, w.Holds n → w.check n = pure n := fun n hn => IntSize.check_of_holds hn
  have hid : ∀ n, Duration w (trimSpace (textOf raw)).toList n →
      parseStateToSeconds w (textOf raw) = n := by
    intro n hn
    unfold parseStateToSeconds
    rw [durationSeconds_of_duration hwrap hn, Id.run_pure]
  have hzero : (∀ k, ¬ Duration w (trimSpace (textOf raw)).toList k) →
      parseStateToSeconds w (textOf raw) = 0 := by
    intro h
    unfold parseStateToSeconds
    rw [durationSeconds_of_not_duration hwrap h, Id.run_pure]
  obtain ⟨n, hn, hcases⟩ := durationSeconds_eq hcheck (textOf raw)
  have hvalue : parseStateToSeconds w (textOf raw) = n := by
    rcases hcases with h | ⟨rfl, h⟩
    · exact hid n h
    · exact hzero h
  refine ⟨?_, fun k => ⟨fun hk => ?_, fun hk => ?_⟩⟩
  · rw [hvalue]
    exact hn
  · rw [← hk, hvalue]
    exact hcases
  · rcases hk with hk | ⟨rfl, hk⟩
    · exact hid k hk
    · exact hzero hk

example : parseStateToSeconds .bits64 "150119987579016:31" = 2 ^ 53 - 1 := by decide
example : parseStateToSeconds .bits32 "35791394:07" = 2 ^ 31 - 1 := by decide
example : parseStateToSeconds .bits32 "35791394:08" = 0 := by decide

end HomeAssistant

end Dashboard
