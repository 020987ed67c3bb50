import InverterDashboard.Go.Float
import Mathlib.Data.Int.Log

set_option relaxedAutoImplicit false
set_option autoImplicit false

/-!
# Rounding to the format

The nearest number with 53 bits of mantissa, ties to even, with the subnormal numbers below.
Rounding keeps the order and leaves the numbers of the format alone, and from the two it follows
which rationals are rounded to a given integer.

## Main definitions

* `Go.Rounding.roundEven` — the nearest integer, ties to even.
* `Go.Rounding.unit`, `Go.Rounding.nearest` — the distance of numbers of the format, the nearest
  one.
* `Go.F64.rounded` — a value of the model as the format holds it.

## Main results

* `Go.Rounding.nearest_mono` — rounding keeps the order.
* `Go.Rounding.nearest_of_multiple`, `nearest_natCast` — numbers that the format has.
* `Go.Rounding.eq_of_nearest_eq` — only the integer itself is rounded to a small integer, among
  integers.
-/

namespace Go

namespace Rounding

/-! ## Nearest integers -/

/-- The nearest integer, ties to even. -/
def roundEven (q : ℚ) : ℤ :=
  if q - ⌊q⌋ < 1 / 2 then ⌊q⌋
  else if 1 / 2 < q - ⌊q⌋ then ⌊q⌋ + 1
  else if ⌊q⌋ % 2 = 0 then ⌊q⌋ else ⌊q⌋ + 1

theorem roundEven_intCast (n : ℤ) : roundEven n = n := by
  unfold roundEven
  rw [Int.floor_intCast, sub_self, if_pos (by norm_num)]

theorem roundEven_bounds (q : ℚ) : ⌊q⌋ ≤ roundEven q ∧ roundEven q ≤ ⌊q⌋ + 1 := by
  unfold roundEven
  split_ifs <;> omega

/-- Rounding to integers keeps the order. -/
theorem roundEven_mono {a b : ℚ} (h : a ≤ b) : roundEven a ≤ roundEven b := by
  rcases (Int.floor_mono h).lt_or_eq with hlt | heq
  · exact (roundEven_bounds a).2.trans ((Int.add_one_le_iff.mpr hlt).trans (roundEven_bounds b).1)
  · unfold roundEven
    rw [heq]
    have hsub : a - ⌊b⌋ ≤ b - ⌊b⌋ := sub_le_sub_right h _
    split_ifs with h₁ h₂ h₃ h₄ h₅ h₆ <;> first | omega | (exfalso; linarith)

/-! ## The format -/

/-- The exponent of the distance between the numbers of the format near a positive number. -/
def unit (x : ℚ) : ℤ := max (Int.log 2 x - 52) (-1074)

/-- The nearest number of the format to a positive number. -/
def nearestPos (x : ℚ) : ℚ := roundEven (x / 2 ^ unit x) * 2 ^ unit x

/-- The nearest number of the format, ties to even. -/
def nearest (q : ℚ) : ℚ :=
  if q = 0 then 0 else if q < 0 then -nearestPos (-q) else nearestPos q

theorem two_zpow_pos (e : ℤ) : (0 : ℚ) < 2 ^ e := zpow_pos (by norm_num) e

/-- A multiple of the distance is a number of the format. -/
theorem nearestPos_of_multiple {x : ℚ} {m : ℤ} (h : x = m * 2 ^ unit x) : nearestPos x = x := by
  have hpos := two_zpow_pos (unit x)
  have hdiv : x / 2 ^ unit x = m := by
    rw [div_eq_iff hpos.ne']
    exact h
  unfold nearestPos
  rw [hdiv, roundEven_intCast]
  exact h.symm

/-- A power of two as a multiple of a smaller one. -/
theorem zpow_eq_mul {e u : ℤ} (h : u ≤ e) : ∃ m : ℤ, (2 : ℚ) ^ e = m * 2 ^ u := by
  obtain ⟨k, hk⟩ := Int.le.dest h
  refine ⟨2 ^ k, ?_⟩
  rw [← hk, zpow_add₀ (by norm_num), zpow_natCast, mul_comm]
  push_cast
  rfl

/-- The format has a number in between, at the larger of two powers of two.

**Proof sketch.** If the distances differ, the larger number is at least a power of two that the
smaller one does not reach, and rounding stops there from both sides. -/
theorem nearestPos_mono {x y : ℚ} (hx : 0 < x) (h : x ≤ y) : nearestPos x ≤ nearestPos y := by
  have hlog : Int.log 2 x ≤ Int.log 2 y := Int.log_mono_right hx h
  have hunit : unit x ≤ unit y := max_le_max (by omega) (le_refl _)
  have hux := two_zpow_pos (unit x)
  have huy := two_zpow_pos (unit y)
  rcases hunit.lt_or_eq with hlt | heq
  · have hy52 : unit y = Int.log 2 y - 52 := by
      unfold unit at hlt ⊢
      omega
    have hlogs : Int.log 2 x < Int.log 2 y := by
      unfold unit at hlt
      omega
    have hle : unit x ≤ Int.log 2 y := by omega
    have hle' : unit y ≤ Int.log 2 y := by omega
    obtain ⟨m, hm⟩ := zpow_eq_mul hle
    obtain ⟨m', hm'⟩ := zpow_eq_mul hle'
    have hbelow : x ≤ 2 ^ Int.log 2 y :=
      ((Int.lt_zpow_iff_log_lt (by norm_num) hx).mpr hlogs).le
    have habove : (2 : ℚ) ^ Int.log 2 y ≤ y := Int.zpow_log_le_self (by norm_num) (hx.trans_le h)
    calc nearestPos x ≤ m * 2 ^ unit x := by
          refine mul_le_mul_of_nonneg_right (Int.cast_le.mpr ?_) hux.le
          rw [← roundEven_intCast m]
          refine roundEven_mono ((div_le_iff₀ hux).mpr ?_)
          rw [← hm]
          exact hbelow
      _ = m' * 2 ^ unit y := hm.symm.trans hm'
      _ ≤ nearestPos y := by
          refine mul_le_mul_of_nonneg_right (Int.cast_le.mpr ?_) huy.le
          rw [← roundEven_intCast m']
          refine roundEven_mono ((le_div_iff₀ huy).mpr ?_)
          rw [← hm']
          exact habove
  · unfold nearestPos
    rw [heq]
    have hround := roundEven_mono (div_le_div_of_nonneg_right h huy.le)
    exact mul_le_mul_of_nonneg_right (Int.cast_le.mpr hround) huy.le

theorem nearestPos_nonneg {x : ℚ} (hx : 0 < x) : 0 ≤ nearestPos x := by
  have hround : (0 : ℤ) ≤ roundEven (x / 2 ^ unit x) := by
    have hmono := roundEven_mono (div_nonneg hx.le (two_zpow_pos (unit x)).le)
    rwa [← Int.cast_zero, roundEven_intCast] at hmono
  exact mul_nonneg (Int.cast_nonneg hround) (two_zpow_pos _).le

theorem nearest_of_pos {q : ℚ} (h : 0 < q) : nearest q = nearestPos q := by
  unfold nearest
  rw [if_neg h.ne', if_neg (not_lt.mpr h.le)]

theorem nearest_of_neg {q : ℚ} (h : q < 0) : nearest q = -nearestPos (-q) := by
  unfold nearest
  rw [if_neg h.ne, if_pos h]

@[simp] theorem nearest_zero : nearest 0 = 0 := if_pos rfl

/-- **Rounding keeps the order.** -/
theorem nearest_mono {a b : ℚ} (h : a ≤ b) : nearest a ≤ nearest b := by
  rcases lt_trichotomy a 0 with ha | rfl | ha
  · rw [nearest_of_neg ha]
    have hneg : -nearestPos (-a) ≤ 0 := neg_nonpos.mpr (nearestPos_nonneg (neg_pos.mpr ha))
    rcases lt_trichotomy b 0 with hb | rfl | hb
    · rw [nearest_of_neg hb]
      exact neg_le_neg (nearestPos_mono (neg_pos.mpr hb) (neg_le_neg h))
    · rw [nearest_zero]
      exact hneg
    · rw [nearest_of_pos hb]
      exact hneg.trans (nearestPos_nonneg hb)
  · rw [nearest_zero]
    rcases h.lt_or_eq with hb | rfl
    · rw [nearest_of_pos hb]
      exact nearestPos_nonneg hb
    · rw [nearest_zero]
  · rw [nearest_of_pos ha, nearest_of_pos (ha.trans_le h)]
    exact nearestPos_mono ha h

/-- A positive multiple of the distance is left alone. -/
theorem nearest_of_multiple {q : ℚ} (h : 0 < q) {m : ℤ} (hm : q = m * 2 ^ unit q) :
    nearest q = q := by
  rw [nearest_of_pos h, nearestPos_of_multiple hm]

/-- Integers below 2⁵³ are left alone. -/
theorem nearest_natCast {n : ℕ} (h : n < 2 ^ 53) : nearest n = n := by
  rcases Nat.eq_zero_or_pos n with rfl | hpos
  · exact nearest_zero
  · have hq : (0 : ℚ) < n := Nat.cast_pos.mpr hpos
    have hlog : Int.log 2 (n : ℚ) < 53 := by
      refine (Int.lt_zpow_iff_log_lt (by norm_num) hq).mp ?_
      exact_mod_cast h
    have hunit : unit (n : ℚ) ≤ 0 := by
      unfold unit
      omega
    obtain ⟨m, hm⟩ := zpow_eq_mul hunit
    refine nearest_of_multiple hq (m := n * m) ?_
    rw [zpow_zero] at hm
    push_cast
    rw [mul_assoc, ← hm, mul_one]

/-- A number that is not below the first integer with two neighbours at this distance stays
there. -/
theorem le_nearest_of_le {q : ℚ} (h : 2 ^ 53 ≤ q) : 2 ^ 53 ≤ nearest q := by
  have hlog : Int.log 2 ((2 : ℚ) ^ 53) = 53 := by
    have hpow : ((2 : ℚ) ^ 53) = (2 : ℕ) ^ (53 : ℤ) := by norm_num
    rw [hpow]
    exact Int.log_zpow (by norm_num) _
  have hself : nearest ((2 : ℚ) ^ 53) = 2 ^ 53 := by
    refine nearest_of_multiple (by norm_num) (m := 2 ^ 52) ?_
    unfold unit
    rw [hlog]
    norm_num
  exact hself ▸ nearest_mono h

theorem nearest_neg_one : nearest (-1) = -1 := by
  rw [nearest_of_neg (by norm_num), neg_neg, ← nearest_of_pos (by norm_num)]
  exact congrArg Neg.neg (by exact_mod_cast nearest_natCast (n := 1) (by norm_num))

theorem nearest_half : nearest (1 / 2) = 1 / 2 := by
  have hlog : Int.log 2 (1 / 2 : ℚ) = -1 := by
    have hpow : (1 / 2 : ℚ) = (2 : ℕ) ^ (-1 : ℤ) := by norm_num
    rw [hpow]
    exact Int.log_zpow (by norm_num) _
  obtain ⟨m, hm⟩ := zpow_eq_mul (e := -1) (u := unit (1 / 2)) (by unfold unit; rw [hlog]; decide)
  refine nearest_of_multiple (by norm_num) (m := m) ?_
  rw [← hm]
  norm_num

/-! ## What is rounded to an integer -/

/-- Among the integers, only the integer itself is rounded to a small one. -/
theorem eq_of_nearest_eq {q : ℚ} (hq : q.den = 1) {n : ℕ} (hn : n + 1 < 2 ^ 53)
    (h : nearest q = n) : q = n := by
  have hint : q = (q.num : ℚ) := ((Rat.den_eq_one_iff q).mp hq).symm
  rcases lt_trichotomy q n with hlt | heq | hgt
  · exfalso
    rw [hint] at hlt
    have hnum : q.num < n := by exact_mod_cast hlt
    rcases Nat.eq_zero_or_pos n with rfl | hpos
    · have hneg : q ≤ -1 := by
        rw [hint]
        exact_mod_cast Int.le_sub_one_of_lt hnum
      have hle := nearest_mono hneg
      rw [h, nearest_neg_one] at hle
      norm_num at hle
    · have hle : q ≤ ((n - 1 : ℕ) : ℚ) := by
        rw [hint]
        exact_mod_cast (show q.num ≤ ((n - 1 : ℕ) : ℤ) by omega)
      have hmono := nearest_mono hle
      rw [h, nearest_natCast (by omega)] at hmono
      have hnat : n ≤ n - 1 := by exact_mod_cast hmono
      omega
  · exact heq
  · exfalso
    rw [hint] at hgt
    have hnum : (n : ℤ) < q.num := by exact_mod_cast hgt
    have hle : ((n + 1 : ℕ) : ℚ) ≤ q := by
      rw [hint]
      exact_mod_cast (show ((n + 1 : ℕ) : ℤ) ≤ q.num by omega)
    have hmono := nearest_mono hle
    rw [h, nearest_natCast hn] at hmono
    have hnat : n + 1 ≤ n := by exact_mod_cast hmono
    omega

/-- Half a positive integer and less is not rounded to it. -/
theorem nearest_ne_of_le_half {q : ℚ} {n : ℕ} (hpos : 0 < n) (hn : n < 2 ^ 53)
    (h : q ≤ n / 2) : nearest q ≠ n := by
  intro heq
  have hmono : nearest q ≤ nearest (max (1 / 2) ((n - 1 : ℕ) : ℚ)) := by
    refine nearest_mono (h.trans ?_)
    rcases Nat.eq_or_lt_of_le hpos with hone | htwo
    · refine le_max_of_le_left ?_
      rw [← hone]
      norm_num
    · refine le_max_of_le_right ?_
      have hle : (2 : ℚ) ≤ n := by exact_mod_cast htwo
      rw [Nat.cast_sub hpos]
      push_cast
      linarith
  rw [heq] at hmono
  rcases Nat.eq_or_lt_of_le hpos with hone | htwo
  · rw [← hone] at hmono
    rw [max_eq_left (by norm_num), nearest_half] at hmono
    norm_num at hmono
  · have hle : (1 : ℚ) ≤ ((n - 1 : ℕ) : ℚ) := by exact_mod_cast (by omega : 1 ≤ n - 1)
    rw [max_eq_right (by linarith), nearest_natCast (by omega)] at hmono
    have hnat : n ≤ n - 1 := by exact_mod_cast hmono
    omega

/-- Twice a positive integer and more is not rounded to it. -/
theorem nearest_ne_of_double_le {q : ℚ} {n : ℕ} (hpos : 0 < n) (hn : n + 1 < 2 ^ 53)
    (h : 2 * n ≤ q) : nearest q ≠ n := by
  intro heq
  have hle : ((n + 1 : ℕ) : ℚ) ≤ q := by
    refine le_trans ?_ h
    exact_mod_cast (by omega : n + 1 ≤ 2 * n)
  have hmono := nearest_mono hle
  rw [heq, nearest_natCast hn] at hmono
  have hnat : n + 1 ≤ n := by exact_mod_cast hmono
  omega

example : nearest (1 + 1 / 10 ^ 17) = 1 := by decide +kernel
example : nearest (1 / 10 ^ 400) = 0 := by decide +kernel

end Rounding

/-- A value as the format holds it. -/
def F64.rounded : F64 → F64
  | .fin q => .fin (Rounding.nearest q)
  | x => x

end Go
