import InverterDashboard.Go.Literal
import InverterDashboard.Mqtt.Scalars

set_option relaxedAutoImplicit false
set_option autoImplicit false

/-!
# Notification levels of texts

`NativeNotificationLevel` of `internal/state/native_notification.go`, on texts as they are spelled.
A text that `ParseFloat` reads as zero is looked at for digits from 1 to 9 before its first letter
e, which is the end of the mantissa in a decimal text but not in a hexadecimal one.

## Main definitions

* `Dashboard.NativeValue` — the values the readers take.
* `Dashboard.levelText`, `nativeNotificationLevel` — the levels of texts and of values.
* `Dashboard.MisreadLevel` — the texts that are not read exactly.

## Main results

* `Dashboard.nonzeroDigit_decimal` — in a decimal text the digits tell zero from other numbers.
* `Dashboard.levelText_exact_iff` — which texts are read exactly.
* `Dashboard.nativeNotificationLevel_exact_iff` — the same of all values.
-/

namespace Dashboard

open Go

/-- What the readers of native values take, texts as they are spelled. -/
inductive NativeValue where
  | float64 (x : F64)
  | int (n : ℤ)
  | literal (text : String)
  | string (text : String)
  | other

/-- `NativeNotificationLevel` has a digit from 1 to 9 in what it takes for the mantissa:
`strings.Cut(strings.ToLower(text), "e")`. -/
def nonzeroDigit (text : String) : Bool :=
  ((toLower text).toList.takeWhile (· != 'e')).any fun c => '1' ≤ c && c ≤ '9'

/-- `NativeNotificationLevel` of a text. -/
def levelText (text : String) : Option ℕ :=
  match parseFloat64 text with
  | some (.fin number) =>
    if number ≠ 0 ∧ number ≠ 1 ∧ number ≠ 2 then none
    else if number = 0 then if nonzeroDigit text then none else some 0
    else
      match ratSetString text with
      | some exact_ => if exact_.den = 1 then exactLevel (.fin number) else none
      | none => none
  | _ => none

/-- `NativeNotificationLevel`. -/
def nativeNotificationLevel : NativeValue → Option ℕ
  | .float64 x => exactLevel x
  | .int n => exactLevel (F64.ofInt n).rounded
  | .literal text => levelText text
  | .string text => levelText (trimSpace text)
  | .other => none

/-- The text that is read: that of a literal, or a string without the space around it. -/
def NativeValue.text? : NativeValue → Option String
  | .literal text => some text
  | .string text => some (trimSpace text)
  | _ => none

/-- The rational number that a value is. -/
def NativeValue.exact : NativeValue → Option ℚ
  | .float64 (.fin q) => some q
  | .int n => some n
  | .literal text => exactValue text
  | .string text => exactValue (trimSpace text)
  | _ => none

/-- The texts that are not read exactly. A hexadecimal zero has a digit from 1 to 9 before the first
letter e, in its exponent; a hexadecimal number that is rounded to zero has none; and of a one or a
two the exponent is not counted as it is written, or too large for `SetString`. -/
inductive MisreadLevel (text : String) : Prop
  | zero {l : Literal} : parseLiteral text = some l → l.hex = true → l.digits = 0 →
      nonzeroDigit text = true → MisreadLevel text
  | tiny {l : Literal} : parseLiteral text = some l → l.hex = true → l.digits ≠ 0 →
      Rounding.nearest l.countedValue = 0 → nonzeroDigit text = false → MisreadLevel text
  | missed {k : ℕ} : k = 1 ∨ k = 2 → Missed text k → MisreadLevel text
  | taken {k : ℕ} : k = 1 ∨ k = 2 → Taken text k → MisreadLevel text

/-! ## Zeros -/

/-- The characters of a mantissa have no case. -/
theorem toLower_mantissa {c : Char} (h : c = '_' ∨ c = '.' ∨ c.isDigit = true) :
    c.toLower = c ∧ c ≠ 'e' := by
  rcases h with rfl | rfl | hdigit
  · decide
  · decide
  · refine ⟨toLower_of_isDigit hdigit, ?_⟩
    rintro rfl
    exact absurd hdigit (by decide)

/-- A sign has no case either. -/
theorem exists_sign (cs : List Char) :
    ∃ sign, cs = sign ++ (cutSign cs).2 ∧ ∀ c ∈ sign, c = '-' ∨ c = '+' := by
  unfold cutSign
  split
  · exact ⟨['-'], rfl, by simp⟩
  · exact ⟨['+'], rfl, by simp⟩
  · exact ⟨[], rfl, List.forall_mem_nil _⟩

/-- **Decimal texts.** Up to the letter e there is a digit from 1 to 9 unless the number is zero. -/
theorem nonzeroDigit_decimal {text : String} {l : Literal} (h : parseLiteral text = some l)
    (hhex : l.hex = false) : nonzeroDigit text = true ↔ l.digits ≠ 0 := by
  obtain ⟨front, rest, hbody, hfront, hrest, hzero⟩ := decimal_parts h hhex
  obtain ⟨sign, htext, hsign⟩ := exists_sign text.toList
  rw [hbody, ← List.append_assoc] at htext
  have hplain : ∀ c ∈ sign ++ front, c.toLower = c ∧ c ≠ 'e' := by
    intro c hc
    rcases List.mem_append.mp hc with hc | hc
    · rcases hsign c hc with rfl | rfl <;> decide
    · exact toLower_mantissa (hfront c hc)
  have hlower : (sign ++ front).map Char.toLower = sign ++ front :=
    (List.map_congr_left fun c hc => (hplain c hc).1).trans (List.map_id _)
  have hcut : (rest.map Char.toLower).takeWhile (· != 'e') = [] := by
    rcases hrest with rfl | ⟨c, cs, rfl, hc⟩
    · rfl
    · rw [List.map_cons, hc]
      rfl
  have hmantissa : (toLower text).toList.takeWhile (· != 'e') = sign ++ front := by
    unfold toLower
    rw [String.toList_ofList, htext, List.map_append, hlower,
      List.takeWhile_append_of_pos fun c hc => by simpa using (hplain c hc).2, hcut,
      List.append_nil]
  have hnosign : ∀ c ∈ sign, ¬('1' ≤ c ∧ c ≤ '9') := by
    intro c hc
    rcases hsign c hc with rfl | rfl <;> decide
  unfold nonzeroDigit
  rw [hmantissa, ne_eq, hzero]
  simp only [List.any_eq_true, List.mem_append, Bool.and_eq_true, decide_eq_true_eq, not_forall,
    not_not]
  constructor
  · rintro ⟨c, hc | hc, hdigit⟩
    · exact absurd hdigit (hnosign c hc)
    · exact ⟨c, hc, hdigit⟩
  · rintro ⟨c, hc, hdigit⟩
    exact ⟨c, Or.inr hc, hdigit⟩

/-! ## Levels -/

theorem exactLevel_iff {q : ℚ} {k : ℕ} :
    exactLevel (.fin q) = some k ↔ k ≤ 2 ∧ q = (k : ℚ) := by
  have hdef : exactLevel (.fin q) =
      if q = 0 then some 0 else if q = 1 then some 1 else if q = 2 then some 2 else none := rfl
  rw [hdef]
  constructor
  · intro h
    split_ifs at h with h₀ h₁ h₂ <;> obtain rfl := Option.some.inj h
    · exact ⟨by omega, by simpa using h₀⟩
    · exact ⟨by omega, by simpa using h₁⟩
    · exact ⟨by omega, by simpa using h₂⟩
  · rintro ⟨hk, rfl⟩
    have hcases : k = 0 ∨ k = 1 ∨ k = 2 := by omega
    rcases hcases with rfl | rfl | rfl <;> norm_num

theorem levelText_le {text : String} {k : ℕ} (h : levelText text = some k) : k ≤ 2 := by
  unfold levelText at h
  split at h
  · split_ifs at h
    · obtain rfl := Option.some.inj h
      omega
    · split at h
      · split_ifs at h
        exact (exactLevel_iff.mp h).1
      · cases h
  · cases h

/-- A level of zero is a text that is read as zero without a digit from 1 to 9. -/
theorem levelText_zero_iff (text : String) :
    levelText text = some 0 ↔ parseFloat64 text = some (.fin 0) ∧ nonzeroDigit text = false := by
  unfold levelText
  split
  · next number hnumber =>
    rw [hnumber]
    by_cases hzero : number = 0
    · subst hzero
      simp
    · have hne : (some (F64.fin number) = some (F64.fin 0)) ↔ False := by simp [hzero]
      rw [hne, false_and, iff_false]
      split_ifs with hnone
      · simp
      · split
        · split_ifs
          · exact fun h => hzero ((exactLevel_iff.mp h).2.trans Nat.cast_zero)
          · simp
        · simp
  · next hnone =>
    refine iff_of_false (by simp) fun h => ?_
    exact hnone 0 h.1

/-- A level of one or two is a text that both readers find to be this integer. -/
theorem levelText_whole_iff (text : String) {k : ℕ} (hk : k = 1 ∨ k = 2) :
    levelText text = some k ↔ Whole text k := by
  have hk2 : k ≤ 2 := by rcases hk with rfl | rfl <;> omega
  have hk0 : (k : ℚ) ≠ 0 := by rcases hk with rfl | rfl <;> norm_num
  have hkmem : ¬((k : ℚ) ≠ 0 ∧ (k : ℚ) ≠ 1 ∧ (k : ℚ) ≠ 2) := by
    rcases hk with rfl | rfl <;> norm_num
  unfold levelText Whole
  split
  · next number hnumber =>
    rw [hnumber]
    by_cases hsame : number = k
    · subst hsame
      rw [if_neg hkmem, if_neg hk0]
      cases ratSetString text with
      | none => simp
      | some q =>
        by_cases hden : q.den = 1
        · simp [hden, exactLevel_iff.mpr ⟨hk2, rfl⟩]
        · simp [hden]
    · refine iff_of_false ?_ fun h => hsame (F64.fin.inj (Option.some.inj h.1))
      split_ifs with hnone hzero
      · simp
      · simp
      · rcases hk with rfl | rfl <;> simp
      · split
        · split_ifs
          · exact fun h => hsame (exactLevel_iff.mp h).2
          · simp
        · simp
  · next hnone => exact iff_of_false (by simp) fun h => hnone _ h.1

/-- **Texts.** A text is read exactly if it is not one of the misread ones, and only then.

**Proof sketch.** A level of zero depends on the digits, which tell zero from other numbers in
decimal texts. Levels of one and two are found by both readers. -/
theorem levelText_exact_iff (text : String) :
    (∀ k, levelText text = some k ↔ k ≤ 2 ∧ exactValue text = some (k : ℚ)) ↔
      ¬ MisreadLevel text := by
  have hzero_parts : ∀ l, parseLiteral text = some l → (l.value = 0 ↔ l.digits = 0) := by
    intro l _
    have h₁ : ∀ e : ℤ, (2 : ℚ) ^ e ≠ 0 := fun e => zpow_ne_zero _ (by norm_num)
    have h₂ : ∀ e : ℤ, (10 : ℚ) ^ e ≠ 0 := fun e => zpow_ne_zero _ (by norm_num)
    unfold Literal.value Literal.signed Literal.scaled
    split_ifs <;> simp [h₁, h₂]
  have hread_zero : ∀ l, parseLiteral text = some l →
      (parseFloat64 text = some (.fin 0) ↔ Rounding.nearest l.countedValue = 0) := by
    intro l hl
    have hiff := parseFloat64_eq_iff hl (n := 0) (by omega)
    rwa [Nat.cast_zero] at hiff
  have hzero_read : ∀ l, parseLiteral text = some l → l.digits = 0 →
      parseFloat64 text = some (.fin 0) := by
    intro l hl hdigits
    have hvalue : l.countedValue = 0 := by
      unfold Literal.countedValue Literal.signed Literal.scaled
      split_ifs <;> simp [hdigits]
    rw [hread_zero l hl, hvalue, Rounding.nearest_zero]
  constructor
  · rintro h hbad
    cases hbad with
    | zero hl hhex hdigits hdigit =>
      have hexact : exactValue text = some ((0 : ℕ) : ℚ) := by
        unfold exactValue
        rw [hl, Option.map_some, (hzero_parts _ hl).mpr hdigits, Nat.cast_zero]
      have hlevel := (levelText_zero_iff text).mp ((h 0).mpr ⟨by omega, hexact⟩)
      rw [hdigit] at hlevel
      exact absurd hlevel.2 (by decide)
    | tiny hl hhex hdigits hfound hdigit =>
      have hread := (hread_zero _ hl).mpr hfound
      have hexact := ((h 0).mp ((levelText_zero_iff text).mpr ⟨hread, hdigit⟩)).2
      unfold exactValue at hexact
      rw [hl, Option.map_some, Nat.cast_zero] at hexact
      exact hdigits ((hzero_parts _ hl).mp (Option.some.inj hexact))
    | missed hk hmissed =>
      rename_i k
      have hiff := (levelText_whole_iff text hk).symm.trans (h k)
      have hk2 : k ≤ 2 := by rcases hk with rfl | rfl <;> omega
      have hk0 : 0 < k := by rcases hk with rfl | rfl <;> omega
      rw [and_iff_right hk2] at hiff
      exact (whole_iff_exact_iff hk0 (by omega)).mp hiff (Or.inl hmissed)
    | taken hk htaken =>
      rename_i k
      have hiff := (levelText_whole_iff text hk).symm.trans (h k)
      have hk2 : k ≤ 2 := by rcases hk with rfl | rfl <;> omega
      have hk0 : 0 < k := by rcases hk with rfl | rfl <;> omega
      rw [and_iff_right hk2] at hiff
      exact (whole_iff_exact_iff hk0 (by omega)).mp hiff (Or.inr htaken)
  · intro h k
    have hpositive : k = 1 ∨ k = 2 →
        (levelText text = some k ↔ k ≤ 2 ∧ exactValue text = some (k : ℚ)) := by
      intro hk
      have hk2 : k ≤ 2 := by rcases hk with rfl | rfl <;> omega
      have hk0 : 0 < k := by rcases hk with rfl | rfl <;> omega
      rw [levelText_whole_iff text hk, and_iff_right hk2]
      refine (whole_iff_exact_iff hk0 (by omega)).mpr fun hbad => h ?_
      rcases hbad with hmissed | htaken
      · exact .missed hk hmissed
      · exact .taken hk htaken
    rcases Nat.lt_or_ge 2 k with hlarge | hsmall
    · exact iff_of_false (fun hlevel => absurd (levelText_le hlevel) (by omega)) (by omega)
    · rcases Nat.eq_zero_or_pos k with rfl | hk
      · rw [levelText_zero_iff, and_iff_right (Nat.zero_le 2), Nat.cast_zero]
        unfold exactValue
        cases hl : parseLiteral text with
        | none =>
          refine iff_of_false (fun hfound => ?_) (by simp)
          obtain ⟨x, hx, hfin⟩ := Option.map_eq_some_iff.mp hfound.1
          cases x with
          | fin q => exact parseFloat_of_parseLiteral_none hl q hx
          | inf s => cases hfin
          | nan => cases hfin
        | some l =>
          rw [Option.map_some, Option.some.injEq, hzero_parts l hl]
          by_cases hdigits : l.digits = 0
          · refine iff_of_true ⟨hzero_read l hl hdigits, ?_⟩ hdigits
            by_contra hdigit
            rw [Bool.not_eq_false] at hdigit
            cases hhex : l.hex with
            | true => exact h (.zero hl hhex hdigits hdigit)
            | false => exact (nonzeroDigit_decimal hl hhex).mp hdigit hdigits
          · refine iff_of_false (fun hfound => ?_) hdigits
            cases hhex : l.hex with
            | true => exact h (.tiny hl hhex hdigits ((hread_zero l hl).mp hfound.1) hfound.2)
            | false =>
              have hdigit := (nonzeroDigit_decimal hl hhex).mpr hdigits
              rw [hfound.2] at hdigit
              cases hdigit
      · exact hpositive (by omega)

/-- A text of the value is not read exactly. -/
def NativeValue.MisreadLevel (v : NativeValue) : Prop :=
  ∃ text, v.text? = some text ∧ Dashboard.MisreadLevel text

/-- **Levels of values.** The level of a value is the number that the value is exactly, from 0 to 2,
if its text is not one of the misread ones, and only then. -/
theorem nativeNotificationLevel_exact_iff (v : NativeValue) :
    (∀ k, nativeNotificationLevel v = some k ↔ k ≤ 2 ∧ v.exact = some (k : ℚ)) ↔
      ¬ v.MisreadLevel := by
  have hplain : v.text? = none → ¬ v.MisreadLevel := by
    rintro hnone ⟨text, htext, -⟩
    rw [hnone] at htext
    cases htext
  cases v with
  | float64 x =>
    refine iff_of_true (fun k => ?_) (hplain rfl)
    cases x with
    | fin q =>
      show exactLevel (.fin q) = some k ↔ k ≤ 2 ∧ some q = some (k : ℚ)
      rw [exactLevel_iff, Option.some.injEq]
    | inf s => exact iff_of_false (fun h => (by cases h)) fun h => (by cases h.2)
    | nan => exact iff_of_false (fun h => (by cases h)) fun h => (by cases h.2)
  | int n =>
    refine iff_of_true (fun k => ?_) (hplain rfl)
    show exactLevel (F64.ofRat n).rounded = some k ↔ k ≤ 2 ∧ some (n : ℚ) = some (k : ℚ)
    rw [Option.some.injEq]
    constructor
    · intro h
      rcases F64.ofRat_cases n with hfin | ⟨s, hinf⟩
      · rw [hfin] at h
        obtain ⟨hk, hnear⟩ := exactLevel_iff.mp h
        exact ⟨hk, Rounding.eq_of_nearest_eq (Rat.den_intCast n) (by omega) hnear⟩
      · rw [hinf] at h
        cases h
    · rintro ⟨hk, hn⟩
      rw [hn, F64.ofRat_natCast (by omega)]
      exact exactLevel_iff.mpr ⟨hk, Rounding.nearest_natCast (by omega)⟩
  | literal text =>
    refine (levelText_exact_iff text).trans (not_congr ⟨fun h => ⟨text, rfl, h⟩, ?_⟩)
    rintro ⟨t, ht, h⟩
    exact Option.some.inj ht ▸ h
  | string text =>
    refine (levelText_exact_iff (trimSpace text)).trans
      (not_congr ⟨fun h => ⟨trimSpace text, rfl, h⟩, ?_⟩)
    rintro ⟨t, ht, h⟩
    exact Option.some.inj ht ▸ h
  | other => exact iff_of_true (fun k => iff_of_false nofun fun h => (by cases h.2)) (hplain rfl)

/-- A hexadecimal zero with an exponent of one is rejected. -/
theorem not_nativeNotificationLevel_exact_zero :
    ¬ ∀ v : NativeValue, ∀ k,
      nativeNotificationLevel v = some k ↔ k ≤ 2 ∧ v.exact = some (k : ℚ) := by
  intro h
  have hlevel : nativeNotificationLevel (.string "0x0p1") = none := by decide +kernel
  have hexact : (NativeValue.string "0x0p1").exact = some ((0 : ℕ) : ℚ) := by decide +kernel
  have hzero := (h (.string "0x0p1") 0).mpr ⟨by omega, hexact⟩
  rw [hlevel] at hzero
  cases hzero

example : nativeNotificationLevel (.string "0xep-2000") = some 0 := by decide +kernel
example : nativeNotificationLevel (.literal "1.00000000000000001") = none := by decide +kernel
example : nativeNotificationLevel (.string " 2e0 ") = some 2 := by decide +kernel

end Dashboard
