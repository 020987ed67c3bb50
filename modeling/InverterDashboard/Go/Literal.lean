import InverterDashboard.Go.ParseFloat
import InverterDashboard.Go.Round

set_option relaxedAutoImplicit false
set_option autoImplicit false

/-!
# Exact values of floating-point texts

A text that `strconv.ParseFloat` accepts spells a rational number. `ParseFloat` rounds it, and
counts the digits of an exponent up to 10000 only. `SetString` of `big.Rat` reads the text exactly,
and gives up on large exponents. A program that accepts an integer when `ParseFloat` returns it and
`SetString` finds a whole number is right about all but the texts on which one of the two goes
astray.

## Main definitions

* `Go.Literal`, `Go.parseLiteral`, `Go.exactValue` — the parts of a text and its value.
* `Go.parseFloat64` — `ParseFloat` with the rounding of the result.
* `Go.ratSetString` — `SetString` on a text that `ParseFloat` accepts.
* `Go.Whole` — both find an integer.
* `Go.Missed`, `Go.Taken` — the texts on which one of them goes astray.

## Main results

* `Go.readFloat_eq` — `ParseFloat` in terms of the parts.
* `Go.whole_iff_exact_iff` — when an integer is found exactly if the text spells it.
* `Go.decimal_parts` — a decimal text is zero if no digit before the exponent is from 1 to 9.
-/

namespace Go

/-! ## The parts of a text -/

/-- The parts of a text: the digits of the mantissa, how many of them are behind the point, the
exponent as it is written, and as `readFloat` counts it. -/
structure Literal where
  neg : Bool := false
  hex : Bool
  digits : ℕ
  frac : ℕ
  exponent : ℤ
  counted : ℤ

/-- The digits of an exponent. -/
def spelledDigits (cs : List Char) : ℕ :=
  cs.foldl (fun e c => (digitValue? false c).elim e fun d => e * 10 + d) 0

/-- The exponent behind a mantissa, as it is written. -/
def writtenExponent : List Char → ℤ
  | [] => 0
  | _ :: cs =>
    let (neg, digits) := cutSign cs
    if neg then -(spelledDigits digits : ℤ) else spelledDigits digits

/-- The base, and what is behind it. -/
def cutBase (cs : List Char) : Bool × List Char :=
  match cs with
  | '0' :: x :: c :: rest => if x.toLower = 'x' then (true, c :: rest) else (false, cs)
  | _ => (false, cs)

/-- The parts of a text without its sign, which has to be used up. -/
def readLiteral (cs : List Char) : Option Literal :=
  let hex := (cutBase cs).1
  let m := (readMantissa hex {} (cutBase cs).2).1
  let rest := (readMantissa hex {} (cutBase cs).2).2
  if !m.sawDigits then none
  else
    (cutExponent hex rest).bind fun r =>
      if r.2.isEmpty && (!(m.underscores || r.1.2) || underscoreOK cs) then
        some
          { hex := hex
            digits := m.digits
            frac := m.frac
            exponent := writtenExponent rest
            counted := r.1.1 }
      else none

/-- The parts of a text. -/
def parseLiteral (s : String) : Option Literal :=
  (readLiteral (cutSign s.toList).2).map fun l => { l with neg := (cutSign s.toList).1 }

namespace Literal

/-- The value without the sign, for an exponent. -/
def scaled (l : Literal) (e : ℤ) : ℚ :=
  if l.hex then l.digits * (16 : ℚ)⁻¹ ^ l.frac * (2 : ℚ) ^ e
  else l.digits * (10 : ℚ)⁻¹ ^ l.frac * (10 : ℚ) ^ e

/-- A number with the sign. -/
def signed (l : Literal) (q : ℚ) : ℚ := if l.neg then -q else q

/-- The value of the text. -/
def value (l : Literal) : ℚ := l.signed (l.scaled l.exponent)

/-- The value that `readFloat` reads. -/
def countedValue (l : Literal) : ℚ := l.signed (l.scaled l.counted)

/-- The limits of `SetString`: the exponent is a 64-bit number, and the powers of five and of two
that are needed have exponents of at most 10⁶ and 10⁷. -/
def WithinRat (l : Literal) : Prop :=
  -(2 : ℤ) ^ 63 ≤ l.exponent ∧ l.exponent < (2 : ℤ) ^ 63 ∧
    (l.digits = 0 ∨
      if l.hex then |l.exponent - 4 * l.frac| ≤ 10 ^ 7 else |l.exponent - l.frac| ≤ 10 ^ 6)

instance (l : Literal) : Decidable l.WithinRat := inferInstanceAs (Decidable (_ ∧ _))

end Literal

/-- The rational number that a text spells. -/
def exactValue (s : String) : Option ℚ := (parseLiteral s).map Literal.value

/-- `ParseFloat(s, 64)`, rounded. -/
def parseFloat64 (s : String) : Option F64 := (parseFloat s).map F64.rounded

/-- `new(big.Rat).SetString(s)`, on a text that `ParseFloat` accepts. -/
def ratSetString (s : String) : Option ℚ :=
  (parseLiteral s).bind fun l => if l.WithinRat then some l.value else none

/-! ## Reading -/

/-- **The parts of a text** are what `readFloat` multiplies. -/
theorem readFloat_eq (cs : List Char) :
    readFloat cs = (readLiteral cs).map fun l => l.scaled l.counted := by
  have hbase : readFloat cs =
      if !(readMantissa (cutBase cs).1 {} (cutBase cs).2).1.sawDigits then none
      else
        (cutExponent (cutBase cs).1 (readMantissa (cutBase cs).1 {} (cutBase cs).2).2).bind fun r =>
          if r.2.isEmpty && (!((readMantissa (cutBase cs).1 {} (cutBase cs).2).1.underscores ||
            r.1.2)
              || underscoreOK cs) then
            some (if (cutBase cs).1 then (readMantissa (cutBase cs).1 {} (cutBase cs).2).1.digits *
                (16 : ℚ)⁻¹ ^ (readMantissa (cutBase cs).1 {} (cutBase cs).2).1.frac *
                  (2 : ℚ) ^ r.1.1
              else (readMantissa (cutBase cs).1 {} (cutBase cs).2).1.digits *
                (10 : ℚ)⁻¹ ^ (readMantissa (cutBase cs).1 {} (cutBase cs).2).1.frac *
                  (10 : ℚ) ^ r.1.1)
          else none := rfl
  rw [hbase]
  unfold readLiteral
  dsimp only
  by_cases hdigits : (!(readMantissa (cutBase cs).1 {} (cutBase cs).2).1.sawDigits) = true
  · rw [if_pos hdigits, if_pos hdigits]
    rfl
  · rw [if_neg hdigits, if_neg hdigits]
    cases cutExponent (cutBase cs).1 (readMantissa (cutBase cs).1 {} (cutBase cs).2).2 with
    | none => rfl
    | some r =>
      rw [Option.bind_some, Option.bind_some]
      by_cases hend : (r.2.isEmpty &&
          (!((readMantissa (cutBase cs).1 {} (cutBase cs).2).1.underscores || r.1.2) ||
            underscoreOK cs)) = true
      · rw [if_pos hend, if_pos hend]
        rfl
      · rw [if_neg hend, if_neg hend]
        rfl

/-- A mantissa begins with a digit, a point or an underscore. -/
theorem head_of_readLiteral {c : Char} {cs : List Char} {l : Literal}
    (h : readLiteral (c :: cs) = some l) : c = '_' ∨ c = '.' ∨ c.isDigit = true := by
  by_contra hne
  obtain ⟨h₁, h₂, h₃⟩ : c ≠ '_' ∧ c ≠ '.' ∧ c.isDigit = false := by
    simpa only [not_or, Bool.not_eq_true] using hne
  have hzero : c ≠ '0' := by
    rintro rfl
    exact absurd h₃ (by decide)
  have hbody : cutBase (c :: cs) = (false, c :: cs) := by
    unfold cutBase
    split
    · next heq => exact absurd (List.cons.inj heq).1 hzero
    · rfl
  have hread : readMantissa false {} (c :: cs) = ({}, c :: cs) := by
    rw [readMantissa, if_neg h₁, if_neg h₂]
    simp [digitValue?, h₃]
  unfold readLiteral at h
  rw [hbody] at h
  simp only [hread] at h
  exact absurd h (by simp)

/-- Digits have no case. -/
theorem toLower_of_isDigit {c : Char} (h : c.isDigit = true) : c.toLower = c := by
  simp only [Char.isDigit, Bool.and_eq_true, decide_eq_true_eq] at h
  unfold Char.toLower
  rw [dif_neg]
  rintro ⟨hge, -⟩
  have h₁ := UInt32.le_iff_toNat_le.mp hge
  have h₂ := UInt32.le_iff_toNat_le.mp h.2
  simp at h₁ h₂
  omega

/-- A spelled value has no parts. -/
theorem special_of_readLiteral {cs : List Char} {l : Literal} (h : readLiteral cs = some l) :
    special cs = none ∧ cs.map Char.toLower ≠ "nan".toList := by
  have hnot : ∀ word : String, (∃ c w, word.toList = c :: w ∧ c ∈ ['i', 'n']) →
      cs.map Char.toLower ≠ word.toList := by
    rintro word ⟨c, w, hword, hc⟩ heq
    rw [hword] at heq
    cases cs with
    | nil => cases heq
    | cons d cs =>
      have hlower : d.toLower = c := (List.cons.inj heq).1
      rw [← hlower] at hc
      rcases head_of_readLiteral h with rfl | rfl | hdigit
      · exact absurd hc (by decide)
      · exact absurd hc (by decide)
      · rw [toLower_of_isDigit hdigit] at hc
        simp only [List.mem_cons, List.not_mem_nil, or_false] at hc
        rcases hc with rfl | rfl <;> exact absurd hdigit (by decide)
  refine ⟨?_, hnot "nan" ⟨'n', ['a', 'n'], by decide, by decide⟩⟩
  unfold special
  have hinf : String.ofList (cs.map Char.toLower) ≠ "inf" := fun heq =>
    hnot "inf" ⟨'i', ['n', 'f'], by decide, by decide⟩ (by rw [← heq, String.toList_ofList])
  have hinfinity : String.ofList (cs.map Char.toLower) ≠ "infinity" := fun heq =>
    hnot "infinity" ⟨'i', ['n', 'f', 'i', 'n', 'i', 't', 'y'], by decide, by decide⟩
      (by rw [← heq, String.toList_ofList])
  simp [hinf, hinfinity]

/-- `ParseFloat` returns a finite number for a text with parts only. -/
theorem parseFloat_of_parseLiteral_none {s : String} (h : parseLiteral s = none) (q : ℚ) :
    parseFloat s ≠ some (.fin q) := by
  have hread : readLiteral (cutSign s.toList).2 = none := Option.map_eq_none_iff.mp h
  unfold parseFloat
  dsimp only
  rw [readFloat_eq, hread]
  by_cases hword : toLower s = "nan"
  · rw [if_pos hword]
    simp
  · rw [if_neg hword]
    cases hspecial : special (cutSign s.toList).2 with
    | none => simp
    | some value =>
      unfold special at hspecial
      dsimp only at hspecial
      split_ifs at hspecial
      obtain rfl := Option.some.inj hspecial
      simp

/-- **What `ParseFloat` returns** for a text with parts: its counted value, if it is in range. -/
theorem parseFloat_of_parseLiteral {s : String} {l : Literal} (h : parseLiteral s = some l) :
    parseFloat s = match F64.ofRat l.countedValue with
      | .fin q => some (.fin q)
      | _ => none := by
  obtain ⟨l', hread, rfl⟩ := Option.map_eq_some_iff.mp h
  obtain ⟨hspecial, hnan⟩ := special_of_readLiteral hread
  have hword : toLower s ≠ "nan" := by
    intro heq
    have hlist : s.toList.map Char.toLower = "nan".toList := by
      rw [← heq, toLower, String.toList_ofList]
    have hsign : (cutSign s.toList).2 = s.toList := by
      unfold cutSign
      split
      · next cs hcs =>
        rw [hcs] at hlist
        exact absurd (List.cons.inj hlist).1 (by decide)
      · next cs hcs =>
        rw [hcs] at hlist
        exact absurd (List.cons.inj hlist).1 (by decide)
      · rfl
    rw [hsign] at hnan
    exact hnan hlist
  unfold parseFloat
  dsimp only
  rw [if_neg hword, hspecial, readFloat_eq, hread]
  rfl

/-! ## Integers -/

/-- `ParseFloat` returns an integer, and `SetString` finds a whole number. -/
def Whole (s : String) (n : ℕ) : Prop :=
  parseFloat64 s = some (.fin n) ∧ ∃ q, ratSetString s = some q ∧ q.den = 1

/-- The text spells the integer, but `ParseFloat` counts another exponent, or the exponent is too
large for `SetString`. -/
def Missed (s : String) (n : ℕ) : Prop :=
  ∃ l, parseLiteral s = some l ∧ l.value = n ∧ (l.counted ≠ l.exponent ∨ ¬ l.WithinRat)

/-- The text spells another integer, but the value with the exponent that `ParseFloat` counts is
rounded to this one, and the exponent is not too large for `SetString`. -/
def Taken (s : String) (n : ℕ) : Prop :=
  ∃ l, parseLiteral s = some l ∧ l.value.den = 1 ∧ l.value ≠ n ∧ l.WithinRat ∧
    Rounding.nearest l.countedValue = n

/-- A number of the format is in range. -/
theorem F64.ofRat_natCast {n : ℕ} (h : n < 2 ^ 64) : F64.ofRat n = .fin n := by
  have hlt := F64.natCast_lt_overflowBound h
  have hpos : (0 : ℚ) < F64.overflowBound := by decide +kernel
  have hge : (0 : ℚ) ≤ n := Nat.cast_nonneg n
  unfold F64.ofRat
  rw [if_neg (not_le.mpr hlt), if_neg]
  rw [not_le]
  linarith

/-- **Small integers** are returned when the counted value is rounded to them. -/
theorem parseFloat64_eq_iff {s : String} {l : Literal} (h : parseLiteral s = some l) {n : ℕ}
    (hn : n + 1 < 2 ^ 53) :
    parseFloat64 s = some (.fin n) ↔ Rounding.nearest l.countedValue = n := by
  unfold parseFloat64
  rw [parseFloat_of_parseLiteral h]
  rcases F64.ofRat_cases l.countedValue with hfin | ⟨neg, hinf⟩
  · rw [hfin]
    exact ⟨fun hfound => F64.fin.inj (Option.some.inj hfound),
      fun hnear => congrArg (fun q => some (F64.fin q)) hnear⟩
  · rw [hinf]
    refine iff_of_false (by simp) fun hnear => ?_
    unfold F64.ofRat at hinf
    split_ifs at hinf with hlarge hsmall
    · -- what is too large is rounded to a larger integer
      have hbound : ((2 ^ 53 - 1 : ℕ) : ℚ) ≤ l.countedValue :=
        (F64.natCast_lt_overflowBound (by norm_num)).le.trans hlarge
      have hmono := Rounding.nearest_mono hbound
      rw [hnear, Rounding.nearest_natCast (by norm_num)] at hmono
      have hnat : 2 ^ 53 - 1 ≤ n := Nat.cast_le.mp hmono
      omega
    · -- what is too small is rounded to a negative one
      have hone : (1 : ℚ) ≤ F64.overflowBound := by decide +kernel
      have hmono := Rounding.nearest_mono (hsmall.trans (neg_le_neg hone))
      rw [hnear, Rounding.nearest_neg_one] at hmono
      have hge : (0 : ℚ) ≤ n := Nat.cast_nonneg n
      linarith

/-- Another exponent makes a positive number at most half or at least twice as large. -/
theorem Literal.signed_scaled_far {l : Literal} {e : ℤ} (hpos : 0 < l.value) (he : e ≠ l.exponent) :
    l.signed (l.scaled e) ≤ l.value / 2 ∨ 2 * l.value ≤ l.signed (l.scaled e) := by
  have hbase : ∀ (b : ℚ), 2 ≤ b → ∀ c : ℚ, 0 < c → b ^ e * c ≤ b ^ l.exponent * c / 2 ∨
      2 * (b ^ l.exponent * c) ≤ b ^ e * c := by
    intro b hb c hc
    have hb1 : 1 ≤ b := by linarith
    have hb0 : b ≠ 0 := by linarith
    rcases lt_or_gt_of_ne he with hlt | hgt
    · left
      have hle : b ^ e * b ≤ b ^ l.exponent := by
        rw [← zpow_add_one₀ hb0]
        exact zpow_le_zpow_right₀ hb1 hlt
      have hp : 0 < b ^ e := zpow_pos (by linarith) e
      have htwo : b ^ e * 2 ≤ b ^ l.exponent := (mul_le_mul_of_nonneg_left hb hp.le).trans hle
      have hmul := mul_le_mul_of_nonneg_right htwo hc.le
      linarith
    · right
      have hle : b ^ l.exponent * b ≤ b ^ e := by
        rw [← zpow_add_one₀ hb0]
        exact zpow_le_zpow_right₀ hb1 hgt
      have hp : 0 < b ^ l.exponent := zpow_pos (by linarith) l.exponent
      have htwo : b ^ l.exponent * 2 ≤ b ^ e := (mul_le_mul_of_nonneg_left hb hp.le).trans hle
      have hmul := mul_le_mul_of_nonneg_right htwo hc.le
      linarith
  have hneg : l.neg = false := by
    by_contra hneg
    have htrue : l.neg = true := by simpa using hneg
    have hscaled : 0 ≤ l.scaled l.exponent := by
      unfold Literal.scaled
      split_ifs <;> positivity
    unfold Literal.value Literal.signed at hpos
    rw [if_pos htrue] at hpos
    linarith
  unfold Literal.value Literal.signed at hpos ⊢
  rw [hneg] at hpos ⊢
  simp only [Bool.false_eq_true, if_false] at hpos ⊢
  unfold Literal.scaled at hpos ⊢
  split_ifs at hpos ⊢
  · have hc : (0 : ℚ) < l.digits * (16 : ℚ)⁻¹ ^ l.frac :=
      pos_of_mul_pos_left hpos (zpow_pos (by norm_num) _).le
    have hfar := hbase 2 (by norm_num) _ hc
    simpa only [mul_comm] using hfar
  · have hc : (0 : ℚ) < l.digits * (10 : ℚ)⁻¹ ^ l.frac :=
      pos_of_mul_pos_left hpos (zpow_pos (by norm_num) _).le
    have hfar := hbase 10 (by norm_num) _ hc
    simpa only [mul_comm] using hfar

/-- **Integers.** A positive integer is found exactly if the text spells it, unless one of the two
readers goes astray, and only then.

**Proof sketch.** With the exponent that is written the rounded value is an integer of this size
only if the exact one is the same integer. With another exponent it is far away. -/
theorem whole_iff_exact_iff {s : String} {n : ℕ} (hpos : 0 < n) (hn : n + 1 < 2 ^ 53) :
    (Whole s n ↔ exactValue s = some (n : ℚ)) ↔ ¬ (Missed s n ∨ Taken s n) := by
  unfold Whole Missed Taken exactValue ratSetString
  cases hl : parseLiteral s with
  | none =>
    refine iff_of_true (iff_of_false (fun h => ?_) (by simp)) (by simp)
    obtain ⟨q, hq, -⟩ := h.2
    cases hq
  | some l =>
    have hnq : (0 : ℚ) < n := Nat.cast_pos.mpr hpos
    simp only [Option.map_some, Option.bind_some, Option.some.injEq, exists_eq_left']
    have hset : (∃ q, (if l.WithinRat then some l.value else none) = some q ∧ q.den = 1) ↔
        l.WithinRat ∧ l.value.den = 1 := by
      by_cases hw : l.WithinRat
      · simp [hw]
      · simp [hw]
    rw [hset, parseFloat64_eq_iff hl hn]
    by_cases hval : l.value = n
    · have hden : l.value.den = 1 := by rw [hval]; exact Rat.den_natCast n
      by_cases hcount : l.counted = l.exponent
      · -- the text is read as it is written
        have hfound : Rounding.nearest l.countedValue = n := by
          have hsame : l.countedValue = n := by
            rw [← hval, Literal.countedValue, Literal.value, hcount]
          rw [hsame]
          exact Rounding.nearest_natCast (by omega)
        by_cases hw : l.WithinRat <;> simp [hval, hfound, hcount, hw, Rat.den_natCast]
      · -- the value that is read is far from the exact one
        have hfound : Rounding.nearest l.countedValue ≠ n := by
          rcases Literal.signed_scaled_far (by rw [hval]; exact hnq) hcount with hfar | hfar
          · rw [hval] at hfar
            exact Rounding.nearest_ne_of_le_half hpos (by omega) hfar
          · rw [hval] at hfar
            exact Rounding.nearest_ne_of_double_le hpos hn hfar
        simp [hval, hfound, hcount]
    · by_cases hfound : Rounding.nearest l.countedValue = n <;>
        by_cases hw : l.WithinRat <;> by_cases hden : l.value.den = 1 <;>
          simp [hval, hfound, hw, hden]

/-! ## Decimal texts -/

/-- The mantissa of a decimal text is made of digits, points and underscores, and its value is zero
if no digit is from 1 to 9.

**Proof sketch.** By induction on the characters: a digit is added to ten times the digits before.
-/
theorem readMantissa_decimal (cs : List Char) (m : Mantissa) :
    ∃ front, cs = front ++ (readMantissa false m cs).2 ∧
      (∀ c ∈ front, c = '_' ∨ c = '.' ∨ c.isDigit = true) ∧
      ((readMantissa false m cs).1.digits = 0 ↔
        m.digits = 0 ∧ ∀ c ∈ front, ¬('1' ≤ c ∧ c ≤ '9')) := by
  induction cs generalizing m with
  | nil => exact ⟨[], rfl, List.forall_mem_nil _, by simp [readMantissa]⟩
  | cons c cs ih =>
    have hstop : (readMantissa false m (c :: cs)) = (m, c :: cs) →
        ∃ front, c :: cs = front ++ (readMantissa false m (c :: cs)).2 ∧
          (∀ c ∈ front, c = '_' ∨ c = '.' ∨ c.isDigit = true) ∧
          ((readMantissa false m (c :: cs)).1.digits = 0 ↔
            m.digits = 0 ∧ ∀ c ∈ front, ¬('1' ≤ c ∧ c ≤ '9')) := by
      intro hread
      rw [hread]
      exact ⟨[], rfl, List.forall_mem_nil _, by simp⟩
    have hgo : ∀ m' : Mantissa, readMantissa false m (c :: cs) = readMantissa false m' cs →
        (c = '_' ∨ c = '.' ∨ c.isDigit = true) →
        (m'.digits = 0 ↔ m.digits = 0 ∧ ¬('1' ≤ c ∧ c ≤ '9')) →
        ∃ front, c :: cs = front ++ (readMantissa false m (c :: cs)).2 ∧
          (∀ c ∈ front, c = '_' ∨ c = '.' ∨ c.isDigit = true) ∧
          ((readMantissa false m (c :: cs)).1.digits = 0 ↔
            m.digits = 0 ∧ ∀ c ∈ front, ¬('1' ≤ c ∧ c ≤ '9')) := by
      intro m' hread hc hm'
      obtain ⟨front, hfront, hall, hzero⟩ := ih m'
      rw [hread]
      refine ⟨c :: front, by rw [List.cons_append, ← hfront], ?_, ?_⟩
      · exact List.forall_mem_cons.mpr ⟨hc, hall⟩
      · rw [hzero, hm', List.forall_mem_cons, and_assoc]
    by_cases hunder : c = '_'
    · refine hgo { m with underscores := true } ?_ (Or.inl hunder) ?_
      · rw [readMantissa, if_pos hunder]
      · subst hunder
        exact ⟨fun h => ⟨h, by decide⟩, fun h => h.1⟩
    by_cases hdot : c = '.'
    · by_cases hsaw : m.sawDot = true
      · refine hstop ?_
        rw [readMantissa, if_neg hunder, if_pos hdot, if_pos hsaw]
      · refine hgo { m with sawDot := true } ?_ (Or.inr (Or.inl hdot)) ?_
        · rw [readMantissa, if_neg hunder, if_pos hdot, if_neg hsaw]
        · subst hdot
          exact ⟨fun h => ⟨h, by decide⟩, fun h => h.1⟩
    by_cases hdigit : c.isDigit = true
    · have hvalue : digitValue? false c = some (c.toNat - '0'.toNat) := by
        unfold digitValue?
        rw [if_pos hdigit]
      refine hgo
        { m with
          digits := m.digits * 10 + (c.toNat - '0'.toNat)
          frac := if m.sawDot then m.frac + 1 else m.frac
          sawDigits := true } ?_ (Or.inr (Or.inr hdigit)) ?_
      · rw [readMantissa, if_neg hunder, if_neg hdot, hvalue]
        rfl
      · have hone : '1' ≤ c ∧ c ≤ '9' ↔ c.toNat - '0'.toNat ≠ 0 := by
          have h₉ : c.toNat ≤ '9'.toNat := by
            simp only [Char.isDigit, Bool.and_eq_true, decide_eq_true_eq] at hdigit
            exact UInt32.le_iff_toNat_le.mp hdigit.2
          constructor
          · rintro ⟨hle, -⟩
            have h₁ : '1'.toNat ≤ c.toNat := UInt32.le_iff_toNat_le.mp hle
            have hnum : '0'.toNat = 48 ∧ '1'.toNat = 49 := by decide
            omega
          · intro hne
            have hnum : '0'.toNat = 48 ∧ '1'.toNat = 49 := by decide
            exact ⟨UInt32.le_iff_toNat_le.mpr (by show '1'.toNat ≤ c.toNat; omega),
              UInt32.le_iff_toNat_le.mpr h₉⟩
        rw [hone]
        dsimp only
        omega
    · refine hstop ?_
      have hnone : digitValue? false c = none := by
        unfold digitValue?
        rw [if_neg hdigit]
        rfl
      rw [readMantissa, if_neg hunder, if_neg hdot, hnone]

/-- A decimal text is a mantissa and nothing, or an exponent. -/
theorem decimal_parts {s : String} {l : Literal} (h : parseLiteral s = some l)
    (hhex : l.hex = false) :
    ∃ front rest, (cutSign s.toList).2 = front ++ rest ∧
      (∀ c ∈ front, c = '_' ∨ c = '.' ∨ c.isDigit = true) ∧
      (rest = [] ∨ ∃ c cs, rest = c :: cs ∧ c.toLower = 'e') ∧
      (l.digits = 0 ↔ ∀ c ∈ front, ¬('1' ≤ c ∧ c ≤ '9')) := by
  obtain ⟨l', hread, rfl⟩ := Option.map_eq_some_iff.mp h
  unfold readLiteral at hread
  dsimp only at hread
  split_ifs at hread
  obtain ⟨r, hexp, hread⟩ := Option.bind_eq_some_iff.mp hread
  split_ifs at hread with hend
  obtain rfl := Option.some.inj hread
  dsimp only at hhex ⊢
  have hbase : cutBase (cutSign s.toList).2 = (false, (cutSign s.toList).2) := by
    unfold cutBase at hhex ⊢
    split
    · next heq =>
      rw [heq] at hhex
      split_ifs with hx
      · simp [hx] at hhex
      · rfl
    · rfl
  rw [hbase] at hexp ⊢
  dsimp only at hexp ⊢
  obtain ⟨front, hfront, hall, hzero⟩ := readMantissa_decimal (cutSign s.toList).2 {}
  refine ⟨front, _, hfront, hall, ?_, by simpa using hzero⟩
  cases hrest : (readMantissa false {} (cutSign s.toList).2).2 with
  | nil => exact Or.inl rfl
  | cons c cs =>
    refine Or.inr ⟨c, cs, rfl, ?_⟩
    by_contra hne
    rw [hrest] at hexp
    have hplain : cutExponent false (c :: cs) = some ((0, false), c :: cs) := by
      unfold cutExponent
      simp [hne]
    obtain rfl := Option.some.inj (hplain.symm.trans hexp)
    simp at hend

end Go
