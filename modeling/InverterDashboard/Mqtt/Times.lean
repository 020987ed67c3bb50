import InverterDashboard.Go.Civil
import InverterDashboard.Mqtt.Levels
import Mathlib.Data.List.TakeWhile

set_option relaxedAutoImplicit false
set_option autoImplicit false

/-!
# Notification times of texts

`NotificationTime` of `internal/state/notification.go`, on texts as they are spelled, with the
layout of the result. A text is a time when `ParseFloat` returns a whole second and `SetString`
finds a whole number; that the two are the same number is not checked.

## Main definitions

* `Dashboard.timeText`, `notificationTime` — the times of texts and of values.
* `Dashboard.IsSecond` — the seconds with a year of four digits.
* `Dashboard.NativeValue.second` — the number a value is, a string with the space around it.
* `Dashboard.NativeValue.MisreadTime` — the values that are not read exactly.
* `Dashboard.spelledTexts` — the readers of texts that the reducers take as a parameter.

## Main results

* `Dashboard.notificationTime_exact_iff` — which values are read exactly.
-/

namespace Dashboard

open Go

/-- `NotificationTime` of a number of seconds. -/
def secondsTime : F64 → String
  | .fin seconds =>
    if seconds ≤ 0 ∨ lastRFC3339Second < seconds ∨ seconds.den ≠ 1 then ""
    else rfc3339 seconds.num.toNat
  | _ => ""

/-- `NotificationTime` of a text. -/
def timeText (text : String) : String :=
  match parseFloat64 text with
  | some (.fin seconds) =>
    if seconds ≤ 0 ∨ lastRFC3339Second < seconds ∨ seconds.den ≠ 1 then ""
    else
      match ratSetString text with
      | some exact_ => if exact_.den = 1 then rfc3339 seconds.num.toNat else ""
      | none => ""
  | _ => ""

/-- `NotificationTime`. -/
def notificationTime : NativeValue → String
  | .float64 x => secondsTime x
  | .int n => secondsTime (F64.ofInt n).rounded
  | .literal text => timeText text
  | .string text => timeText text
  | .other => ""

/-- A second after the epoch with a year of four digits. -/
def IsSecond (n : ℕ) : Prop := 1 ≤ n ∧ n ≤ lastFourDigitSecond

/-- The rational number that a value is, a string with the space around it. -/
def NativeValue.second : NativeValue → Option ℚ
  | .float64 (.fin q) => some q
  | .int n => some n
  | .literal text => exactValue text
  | .string text => exactValue text
  | _ => none

/-- A text that is not read exactly. Of a second the exponent is not counted as it is written, or
too large for `SetString`. -/
def MisreadTime (text : String) : Prop := ∃ n, IsSecond n ∧ (Missed text n ∨ Taken text n)

/-- The texts and the number literals that are not read exactly. -/
def NativeValue.MisreadTime : NativeValue → Prop
  | .literal text => Dashboard.MisreadTime text
  | .string text => Dashboard.MisreadTime text
  | _ => False

/-! ## Seconds -/

/-- No text is empty. -/
theorem rfc3339_ne_empty {n : ℕ} (h : IsSecond n) : rfc3339 n ≠ "" := by
  intro hempty
  have hlen := (rfc3339_year h.2).1
  rw [hempty] at hlen
  cases hlen

/-- The seconds that are let through are those with a year of four digits. -/
theorem second_iff {q : ℚ} :
    ¬(q ≤ 0 ∨ lastRFC3339Second < q ∨ q.den ≠ 1) ↔ ∃ n, IsSecond n ∧ q = (n : ℚ) := by
  have hlast : lastRFC3339Second = ((lastFourDigitSecond : ℕ) : ℚ) := by
    unfold lastRFC3339Second lastFourDigitSecond
    norm_num
  constructor
  · intro h
    obtain ⟨hpos, hle, hden⟩ : 0 < q ∧ q ≤ lastRFC3339Second ∧ q.den = 1 := by
      simpa only [not_or, not_le, not_lt, not_not] using h
    have hq : q = (q.num : ℚ) := ((Rat.den_eq_one_iff q).mp hden).symm
    have hnum : 0 < q.num := Rat.num_pos.mpr hpos
    obtain ⟨n, hn⟩ := Int.eq_ofNat_of_zero_le hnum.le
    rw [hn, Int.cast_natCast] at hq
    rw [hq, hlast] at hle
    have hle' : n ≤ lastFourDigitSecond := by exact_mod_cast hle
    exact ⟨n, ⟨by omega, hle'⟩, hq⟩
  · rintro ⟨n, ⟨hpos, hle⟩, rfl⟩
    have h₁ : (0 : ℚ) < n := Nat.cast_pos.mpr hpos
    have h₂ : (n : ℚ) ≤ lastRFC3339Second := by
      rw [hlast]
      exact_mod_cast hle
    simp only [not_or, not_le, not_lt, not_not]
    exact ⟨h₁, h₂, Rat.den_natCast n⟩

/-- What is read as the seconds of a set of numbers, at most one for each value. -/
structure Reads (result : String) (found : ℕ → Prop) : Prop where
  some_ : ∀ n, IsSecond n → found n → result = rfc3339 n
  none_ : (∀ n, IsSecond n → ¬ found n) → result = ""

/-- A result determines the second. -/
theorem Reads.eq_rfc3339_iff {result : String} {found : ℕ → Prop} (h : Reads result found) {n : ℕ}
    (hn : IsSecond n) : result = rfc3339 n ↔ found n := by
  refine ⟨fun hresult => ?_, h.some_ n hn⟩
  by_contra hnot
  by_cases hsome : ∃ m, IsSecond m ∧ found m
  · obtain ⟨m, hm, hfound⟩ := hsome
    have heq := (h.some_ m hm hfound).symm.trans hresult
    rw [rfc3339_injective hm.2 hn.2 heq] at hfound
    exact hnot hfound
  · have hempty := h.none_ fun m hm hfound => hsome ⟨m, hm, hfound⟩
    exact rfc3339_ne_empty hn (hresult.symm.trans hempty)

theorem Reads.ne_empty_iff {result : String} {found : ℕ → Prop} (h : Reads result found) :
    result ≠ "" ↔ ∃ n, IsSecond n ∧ found n := by
  constructor
  · intro hne
    by_contra hnone
    exact hne (h.none_ fun n hn hfound => hnone ⟨n, hn, hfound⟩)
  · rintro ⟨n, hn, hfound⟩
    rw [h.some_ n hn hfound]
    exact rfc3339_ne_empty hn

/-- Seconds as numbers. -/
theorem reads_secondsTime (q : ℚ) : Reads (secondsTime (.fin q)) fun n => q = (n : ℚ) := by
  refine ⟨fun n hn hq => ?_, fun hnone => ?_⟩
  · subst hq
    show (if (n : ℚ) ≤ 0 ∨ lastRFC3339Second < n ∨ (n : ℚ).den ≠ 1 then ""
      else rfc3339 (n : ℚ).num.toNat) = _
    rw [if_neg (second_iff.mpr ⟨n, hn, rfl⟩), Rat.num_natCast, Int.toNat_natCast]
  · show (if q ≤ 0 ∨ lastRFC3339Second < q ∨ q.den ≠ 1 then "" else rfc3339 q.num.toNat) = ""
    refine if_pos (not_not.mp fun hnot => ?_)
    obtain ⟨n, hn, hq⟩ := second_iff.mp hnot
    exact hnone n hn hq

/-- Seconds as texts. -/
theorem reads_timeText (text : String) : Reads (timeText text) (Whole text) := by
  unfold Whole
  refine ⟨fun n hn hwhole => ?_, fun hnone => ?_⟩
  · obtain ⟨hfound, q, hq, hden⟩ := hwhole
    unfold timeText
    rw [hfound, hq]
    dsimp only
    rw [if_neg (second_iff.mpr ⟨n, hn, rfl⟩), if_pos hden, Rat.num_natCast, Int.toNat_natCast]
  · unfold timeText
    split
    · next seconds hfound =>
      split_ifs with hout
      · rfl
      · obtain ⟨n, hn, rfl⟩ := second_iff.mp hout
        split
        · next q hq =>
          split_ifs with hden
          · exact absurd ⟨hfound, q, hq, hden⟩ (hnone n hn)
          · rfl
        · rfl
    · rfl

/-! ## Exact times -/

/-- The time of a value is the rendering of the second that the value is exactly, and empty if it is
none. -/
structure ExactTime (result : String) (exact_ : Option ℚ) : Prop where
  eq_iff : ∀ n, IsSecond n → (result = rfc3339 n ↔ exact_ = some (n : ℚ))
  ne_empty_iff : result ≠ "" ↔ ∃ n, IsSecond n ∧ exact_ = some (n : ℚ)

theorem Reads.exactTime {result : String} {found : ℕ → Prop} (h : Reads result found)
    {exact_ : Option ℚ} (hexact : ∀ n, IsSecond n → (found n ↔ exact_ = some (n : ℚ))) :
    ExactTime result exact_ := by
  refine ⟨fun n hn => (h.eq_rfc3339_iff hn).trans (hexact n hn), h.ne_empty_iff.trans ?_⟩
  exact exists_congr fun n => and_congr_right fun hn => hexact n hn

/-- **Texts.** A text is read exactly if it is not one of the misread ones, and only then. -/
theorem timeText_exact_iff (text : String) :
    ExactTime (timeText text) (exactValue text) ↔ ¬ MisreadTime text := by
  have hreads := reads_timeText text
  have hwhole : ∀ n, IsSecond n → ((Whole text n ↔ exactValue text = some (n : ℚ)) ↔
      ¬ (Missed text n ∨ Taken text n)) := by
    intro n hn
    have hle := hn.2
    unfold lastFourDigitSecond at hle
    exact whole_iff_exact_iff hn.1 (by omega)
  constructor
  · rintro h ⟨n, hn, hbad⟩
    exact (hwhole n hn).mp ((hreads.eq_rfc3339_iff hn).symm.trans (h.eq_iff n hn)) hbad
  · intro h
    exact hreads.exactTime fun n hn => (hwhole n hn).mpr fun hbad => h ⟨n, hn, hbad⟩

/-- **Times of values.** A second has a text with a year of four digits that is read again, and
different seconds have different ones. The time of a value is the text of the second that the value
is exactly, and empty if it is none, for all values but the misread ones, and only for them. -/
theorem notificationTime_exact_iff (v : NativeValue) :
    (∀ n, IsSecond n → parseRFC3339 (rfc3339 n) = some ((n : ℤ) * 1000000000) ∧
      (rfc3339 n).toList.length = 20 ∧
      digitsValue ((rfc3339 n).toList.take 4) = some (ofUnix n).year ∧
      (rfc3339 n).toList[4]? = some '-') ∧
    (∀ m n, IsSecond m → IsSecond n → rfc3339 m = rfc3339 n → m = n) ∧
    (ExactTime (notificationTime v) v.second ↔ ¬ v.MisreadTime) := by
  refine ⟨fun n hn => ⟨parseRFC3339_rfc3339 hn.2, rfc3339_year hn.2⟩,
    fun m n hm hn => rfc3339_injective hm.2 hn.2, ?_⟩
  have hnothing : Reads "" fun _ => False := ⟨fun _ _ h => h.elim, fun _ => rfl⟩
  cases v with
  | float64 x =>
    refine iff_of_true ?_ (fun h => h)
    cases x with
    | fin q => exact (reads_secondsTime q).exactTime fun n _ =>
        (Option.some.injEq _ _).symm ▸ Iff.rfl
    | inf s => exact hnothing.exactTime fun n _ => iff_of_false (fun h => h) nofun
    | nan => exact hnothing.exactTime fun n _ => iff_of_false (fun h => h) nofun
  | int n =>
    refine iff_of_true ?_ (fun h => h)
    show ExactTime (secondsTime (F64.ofRat n).rounded) (some (n : ℚ))
    have hsmall : ∀ m, IsSecond m → m + 1 < 2 ^ 53 := by
      intro m hm
      have hle := hm.2
      unfold lastFourDigitSecond at hle
      omega
    rcases F64.ofRat_cases n with hfin | ⟨s, hinf⟩
    · rw [hfin]
      refine (reads_secondsTime (Rounding.nearest n)).exactTime fun m hm => ?_
      rw [Option.some.injEq]
      refine ⟨fun h => Rounding.eq_of_nearest_eq (Rat.den_intCast n) (hsmall m hm) h, fun h => ?_⟩
      rw [h]
      exact Rounding.nearest_natCast (Nat.lt_of_succ_lt (hsmall m hm))
    · rw [hinf]
      refine hnothing.exactTime fun m hm => iff_of_false (fun h => h) fun h => ?_
      rw [Option.some.inj h, F64.ofRat_natCast (by have := hsmall m hm; omega)] at hinf
      cases hinf
  | literal text => exact timeText_exact_iff text
  | string text => exact timeText_exact_iff text
  | other =>
    exact iff_of_true (hnothing.exactTime fun n _ => iff_of_false (fun h => h) nofun) (fun h => h)

/-! ## A large exponent -/

/-- The text of 10⁹⁰⁰⁰⁰ with ten thousand digits behind the point. -/
def farText : String :=
  String.ofList ('0' :: '.' :: (List.replicate 9999 '0' ++ "1e100000".toList))

/-- Zeros behind the point are digits. -/
theorem readMantissa_zeros (k frac : ℕ) (rest : List Char) :
    readMantissa false { frac := frac, sawDot := true, sawDigits := true }
        (List.replicate k '0' ++ rest) =
      readMantissa false { frac := frac + k, sawDot := true, sawDigits := true } rest := by
  induction k generalizing frac with
  | zero => rfl
  | succ k ih =>
    rw [List.replicate_succ, List.cons_append, ← Nat.succ_eq_add_one, ← Nat.succ_add_eq_add_succ]
    exact ih (frac + 1)

/-- The text begins with a zero and a point. -/
theorem readMantissa_zeroPoint (rest : List Char) :
    readMantissa false {} ('0' :: '.' :: rest) =
      readMantissa false { frac := 0, sawDot := true, sawDigits := true } rest := rfl

/-- A point behind a zero: the text is decimal. -/
theorem cutBase_zeroPoint (rest : List Char) :
    cutBase ('0' :: '.' :: rest) = (false, '0' :: '.' :: rest) := by
  cases rest with
  | nil => rfl
  | cons c cs => rfl

/-- The exponent of the text is counted as a tenth of what is written. -/
theorem parseLiteral_farText :
    parseLiteral farText =
      some { hex := false, digits := 1, frac := 10000, exponent := 100000, counted := 10000 } := by
  have hbody : readMantissa false {}
        ('0' :: '.' :: (List.replicate 9999 '0' ++ "1e100000".toList)) =
      ({ digits := 1, frac := 10000, sawDot := true, sawDigits := true }, "e100000".toList) := by
    rw [readMantissa_zeroPoint, readMantissa_zeros]
    rfl
  have hexp : cutExponent false "e100000".toList = some ((10000, false), []) := by decide
  have hwritten : writtenExponent "e100000".toList = 100000 := by decide
  have hread : readLiteral ('0' :: '.' :: (List.replicate 9999 '0' ++ "1e100000".toList)) =
      some { hex := false, digits := 1, frac := 10000, exponent := 100000, counted := 10000 } := by
    unfold readLiteral
    rw [cutBase_zeroPoint]
    dsimp only
    rw [hbody, hexp, hwritten]
    rfl
  have hsign : cutSign farText.toList =
      (false, '0' :: '.' :: (List.replicate 9999 '0' ++ "1e100000".toList)) := by
    unfold farText
    rw [String.toList_ofList]
    rfl
  unfold parseLiteral
  rw [hsign, hread]
  rfl

/-- The text is read as the first second. -/
theorem taken_farText : Taken farText 1 := by
  have hpow : ∀ m n : ℕ, (10 : ℚ)⁻¹ ^ m * (10 : ℚ) ^ ((m + n : ℕ) : ℤ) = ((10 ^ n : ℕ) : ℚ) := by
    intro m n
    rw [zpow_natCast, pow_add, ← mul_assoc, ← mul_pow, inv_mul_cancel₀ (by norm_num), one_pow,
      one_mul, Nat.cast_pow, Nat.cast_ofNat]
  have hscaled : ∀ n : ℕ, ((1 : ℕ) : ℚ) * (10 : ℚ)⁻¹ ^ 10000 * (10 : ℚ) ^ ((10000 + n : ℕ) : ℤ) =
      ((10 ^ n : ℕ) : ℚ) := by
    intro n
    rw [Nat.cast_one, one_mul]
    exact hpow 10000 n
  have hlarge : ∀ n : ℕ, n ≠ 0 → ((10 ^ n : ℕ) : ℚ) ≠ ((1 : ℕ) : ℚ) := fun n hn h =>
    (Nat.one_lt_pow hn (by decide)).ne' (Nat.cast_injective h)
  refine ⟨_, parseLiteral_farText, ?_⟩
  have hvalue : (Literal.value
      { hex := false, digits := 1, frac := 10000, exponent := 100000, counted := 10000 }) =
      ((10 ^ 90000 : ℕ) : ℚ) := hscaled 90000
  have hcounted : (Literal.countedValue
      { hex := false, digits := 1, frac := 10000, exponent := 100000, counted := 10000 }) =
      ((1 : ℕ) : ℚ) := (hscaled 0).trans (by rw [pow_zero])
  refine ⟨?_, ?_, by decide, ?_⟩
  · rw [hvalue]
    exact Rat.den_natCast _
  · rw [hvalue]
    exact hlarge 90000 (by decide)
  · rw [hcounted]
    exact Rounding.nearest_natCast (by decide)

/-- The number is not a second, but the first second is returned. -/
theorem not_notificationTime_exact_farText :
    ¬ ∀ v : NativeValue, ExactTime (notificationTime v) v.second := fun h =>
  (timeText_exact_iff farText).mp (h (.string farText))
    ⟨1, ⟨le_refl 1, by decide⟩, Or.inr taken_farText⟩

/-! ## The readers of texts -/

/-- A blank text has no parts. -/
theorem parseLiteral_blank {text : String} (h : trimSpace text = "") :
    parseLiteral text = none := by
  have hspace : text.toList.dropWhile isSpace = [] := by
    have hback : ((text.toList.dropWhile isSpace).reverse.dropWhile isSpace) = [] := by
      have hlist := congrArg String.toList h
      rw [trimSpace, String.toList_ofList, String.toList_empty] at hlist
      exact List.reverse_eq_nil_iff.mp hlist
    have hall := List.dropWhile_eq_nil_iff.mp hback
    cases hfront : text.toList.dropWhile isSpace with
    | nil => rfl
    | cons c cs =>
      have hhead := List.head?_dropWhile_not isSpace text.toList
      rw [hfront] at hhead hall
      have hc := hall c (by simp)
      simp [hc] at hhead
  cases htext : text.toList with
  | nil =>
    unfold parseLiteral
    rw [htext]
    rfl
  | cons c cs =>
    have hc : isSpace c = true := by
      rw [htext] at hspace
      exact List.dropWhile_eq_nil_iff.mp hspace c List.mem_cons_self
    have hsign : cutSign (c :: cs) = (false, c :: cs) := by
      unfold cutSign
      split
      · next heq =>
        rw [(List.cons.inj heq).1] at hc
        exact absurd hc (by decide)
      · next heq =>
        rw [(List.cons.inj heq).1] at hc
        exact absurd hc (by decide)
      · rfl
    unfold parseLiteral
    rw [htext, hsign]
    cases hread : readLiteral (c :: cs) with
    | none => rfl
    | some l =>
      rcases head_of_readLiteral hread with rfl | rfl | hdigit
      · exact absurd hc (by decide)
      · exact absurd hc (by decide)
      · simp only [Char.isDigit, Bool.and_eq_true, decide_eq_true_eq] at hdigit
        have h₁ : '0'.toNat ≤ c.toNat := UInt32.le_iff_toNat_le.mp hdigit.1
        have h₂ : c.toNat ≤ '9'.toNat := UInt32.le_iff_toNat_le.mp hdigit.2
        have hnum : '0'.toNat = 48 ∧ '9'.toNat = 57 := by decide
        simp [isSpace] at hc
        omega

/-- The readers of texts that the reducers take as a parameter. -/
def spelledTexts : NativeTexts where
  level := levelText
  time := timeText
  rfc3339 := rfc3339
  level_le _ _ := levelText_le
  level_empty := by decide
  time_blank text h := by
    have hnone := parseFloat_of_parseLiteral_none (parseLiteral_blank h)
    refine (reads_timeText text).none_ fun n _ hwhole => ?_
    obtain ⟨x, hx, hfin⟩ := Option.map_eq_some_iff.mp hwhole.1
    cases x with
    | fin q => exact hnone q hx
    | inf s => cases hfin
    | nan => cases hfin

theorem spelledTexts_level : spelledTexts.level = levelText := rfl

theorem spelledTexts_time : spelledTexts.time = timeText := rfl

/-- The level that the reducers read with these readers. -/
theorem nativeLevel_spelledTexts (text : String) :
    nativeLevel spelledTexts (.string text) = nativeNotificationLevel (.string text) := by
  exact congrFun spelledTexts_level (trimSpace text)

/-- The time that the reducers read with these readers. -/
theorem nativeTime_spelledTexts (text : String) :
    nativeTime spelledTexts (.string text) = notificationTime (.string text) := by
  exact congrFun spelledTexts_time text

end Dashboard
