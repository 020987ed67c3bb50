import Mathlib.Data.Rat.Floor
import Mathlib.Tactic

set_option relaxedAutoImplicit false
set_option autoImplicit false

/-!
# Go's `float64`

Finite values are rationals, next to the two infinities and NaN. Arithmetic on finite values
is exact inside the finite range and overflows to an infinity outside it; the rounding of the
53-bit mantissa is not modelled. Comparisons are `Bool`-valued and false on NaN, as in Go.

## Main definitions

* `Go.F64` — the values, `Go.F64.ofRat` — a rational brought into range.
* `Go.F64.add`, `sub`, `mul`, `div`, `le`, `lt`, `eq` — the operators of the language.
* `Go.F64.trunc`, `round`, `min`, `max`, `toInt` — the parts of `math` and the `int`
  conversion the dashboard uses.

## Main results

* `Go.F64.ofRat_le_fin`, `fin_le_ofRat` — how a bound on an operation's result is read back.
-/

namespace Go

/-- A `float64`: a finite number, an infinity (`neg` for `-Inf`) or NaN. -/
inductive F64 where
  | fin (q : ℚ)
  | inf (neg : Bool)
  | nan
  deriving DecidableEq

namespace F64

/-- Where rounding to nearest gives an infinity: half a unit above the largest finite number. -/
def overflowBound : ℚ := 2 ^ 1024 - 2 ^ 970

/-- A rational result, as an infinity when it is out of range. -/
def ofRat (q : ℚ) : F64 :=
  if overflowBound ≤ q then .inf false
  else if q ≤ -overflowBound then .inf true
  else .fin q

/-- The conversion `float64(n)` of an integer. -/
def ofInt (n : ℤ) : F64 := ofRat n

/-- `!math.IsNaN(x) && !math.IsInf(x, 0)`. -/
def isFinite : F64 → Bool
  | .fin _ => true
  | _ => false

/-- The sign bit of a number other than NaN (zero counts as positive). -/
def isNeg : F64 → Bool
  | .fin q => decide (q < 0)
  | .inf neg => neg
  | .nan => false

/-- `-x`. -/
def neg : F64 → F64
  | .fin q => .fin (-q)
  | .inf s => .inf !s
  | .nan => .nan

/-- `x + y`. -/
def add : F64 → F64 → F64
  | .fin a, .fin b => ofRat (a + b)
  | .inf s, .fin _ => .inf s
  | .fin _, .inf s => .inf s
  | .inf s, .inf s' => if s = s' then .inf s else .nan
  | _, _ => .nan

/-- `x - y`. -/
def sub (x y : F64) : F64 := add x (neg y)

/-- `x * y`. -/
def mul : F64 → F64 → F64
  | .fin a, .fin b => ofRat (a * b)
  | .inf s, .fin b => if b = 0 then .nan else .inf (s != decide (b < 0))
  | .fin a, .inf s => if a = 0 then .nan else .inf (s != decide (a < 0))
  | .inf s, .inf s' => .inf (s != s')
  | _, _ => .nan

/-- `x / y`. -/
def div : F64 → F64 → F64
  | .fin a, .fin b =>
    if b = 0 then (if a = 0 then .nan else .inf (decide (a < 0))) else ofRat (a / b)
  | .inf s, .fin b => .inf (s != decide (b < 0))
  | .fin _, .inf _ => .fin 0
  | _, _ => .nan

/-- `x == y`. -/
def eq : F64 → F64 → Bool
  | .fin a, .fin b => decide (a = b)
  | .inf s, .inf s' => s == s'
  | _, _ => false

/-- `x < y`. -/
def lt : F64 → F64 → Bool
  | .fin a, .fin b => decide (a < b)
  | .inf s, .inf s' => s && !s'
  | .inf s, .fin _ => s
  | .fin _, .inf s => !s
  | _, _ => false

/-- `x <= y`. -/
def le (x y : F64) : Bool := lt x y || eq x y

/-- The integer part of a rational, rounded toward zero. -/
def truncRat (q : ℚ) : ℤ := if q < 0 then -⌊-q⌋ else ⌊q⌋

/-- `math.Trunc`. -/
def trunc : F64 → F64
  | .fin q => .fin (truncRat q)
  | x => x

/-- `math.Round`: to the nearest integer, halves away from zero. -/
def round : F64 → F64
  | .fin q => .fin (if q < 0 then -⌊-q + 1 / 2⌋ else ⌊q + 1 / 2⌋ : ℤ)
  | x => x

/-- `math.Min`. -/
def min (x y : F64) : F64 :=
  if x = .nan ∨ y = .nan then .nan else if lt y x then y else x

/-- `math.Max`. -/
def max (x y : F64) : F64 :=
  if x = .nan ∨ y = .nan then .nan else if lt x y then y else x

/-- The conversion `int(x)` on a 64-bit target: truncation in range, and the least integer for
the values whose conversion the language leaves to the implementation. -/
def toInt : F64 → ℤ
  | .fin q =>
    let n := truncRat q
    if -(2 : ℤ) ^ 63 ≤ n ∧ n < (2 : ℤ) ^ 63 then n else -(2 : ℤ) ^ 63
  | _ => -(2 : ℤ) ^ 63

instance : Inhabited F64 := ⟨.fin 0⟩
instance (n : ℕ) : OfNat F64 n := ⟨.fin n⟩

/-- A number brought into range is either the number itself or an infinity. -/
theorem ofRat_cases (q : ℚ) : ofRat q = .fin q ∨ ∃ s, ofRat q = .inf s := by
  unfold ofRat
  split_ifs
  · exact Or.inr ⟨_, rfl⟩
  · exact Or.inr ⟨_, rfl⟩
  · exact Or.inl rfl

/-- The quotient of finite numbers. -/
theorem fin_div_fin {a b : ℚ} (h : b ≠ 0) : (fin a).div (.fin b) = ofRat (a / b) := by
  simp only [div, if_neg h]

/-- Comparing finite numbers. -/
theorem fin_le_fin {a b : ℚ} : le (fin a) (.fin b) = true ↔ a ≤ b := by
  simp only [le, lt, eq, Bool.or_eq_true, decide_eq_true_eq]
  exact le_iff_lt_or_eq.symm

/-- A comparison with a finite upper bound, read back on a rational result. -/
theorem ofRat_le_fin {q b : ℚ} (h : le (ofRat q) (.fin b) = true) :
    q ≤ b ∨ q ≤ -overflowBound := by
  unfold ofRat at h
  split_ifs at h with h₁ h₂
  · simp [le, lt, eq] at h
  · exact Or.inr h₂
  · exact Or.inl (fin_le_fin.mp h)

/-- A comparison with a finite lower bound, read back on a rational result. -/
theorem fin_le_ofRat {q b : ℚ} (h : le (.fin b) (ofRat q) = true) :
    b ≤ q ∨ overflowBound ≤ q := by
  unfold ofRat at h
  split_ifs at h with h₁ h₂
  · exact Or.inr h₁
  · simp [le, lt, eq] at h
  · exact Or.inl (fin_le_fin.mp h)

/-- Every 64-bit number is in range. -/
theorem natCast_lt_overflowBound {n : ℕ} (h : n < 2 ^ 64) : (n : ℚ) < overflowBound := by
  have h₁ : (n : ℚ) < 2 ^ 64 := by exact_mod_cast h
  have h₂ : (2 ^ 64 : ℚ) ≤ overflowBound := by decide +kernel
  exact lt_of_lt_of_le h₁ h₂

/-! ## Numbers of the format -/

/-- A finite number of the format. -/
def isFloat : F64 → Bool
  | .fin q => decide (-overflowBound < q) && decide (q < overflowBound)
  | _ => false

theorem isFinite_of_isFloat {x : F64} (h : x.isFloat = true) : x.isFinite = true := by
  cases x with
  | fin q => rfl
  | inf s => exact h
  | nan => exact h

/-- What an operation brings into range is a number of the format, if it is finite. -/
theorem isFloat_ofRat {q : ℚ} (h : (ofRat q).isFinite = true) : (ofRat q).isFloat = true := by
  unfold ofRat at h ⊢
  split_ifs at h ⊢ with h₁ h₂
  · exact h
  · exact h
  · simp only [isFloat, Bool.and_eq_true, decide_eq_true_eq]
    exact ⟨not_le.mp h₂, not_le.mp h₁⟩

theorem isFloat_add {x y : F64} (h : (x.add y).isFinite = true) : (x.add y).isFloat = true := by
  cases x with
  | fin a =>
    cases y with
    | fin b => exact isFloat_ofRat h
    | inf s => exact h
    | nan => exact h
  | inf s =>
    cases y with
    | fin b => exact h
    | inf s' =>
      unfold add at h ⊢
      dsimp only at h ⊢
      split_ifs at h ⊢ <;> exact h
    | nan => exact h
  | nan => exact h

/-- Dividing by a number that is not less than one stays in range. -/
theorem isFinite_div {x : F64} (h : x.isFloat = true) {b : ℚ} (hb : 1 ≤ b) :
    (x.div (.fin b)).isFinite = true := by
  cases x with
  | fin a =>
    simp only [isFloat, Bool.and_eq_true, decide_eq_true_eq] at h
    have hpos : 0 < b := lt_of_lt_of_le one_pos hb
    have hB : (0 : ℚ) < overflowBound := by decide +kernel
    rw [fin_div_fin hpos.ne']
    unfold ofRat
    rw [if_neg, if_neg]
    · rfl
    · rw [not_le, lt_div_iff₀ hpos]
      nlinarith [h.1]
    · rw [not_le, div_lt_iff₀ hpos]
      nlinarith [h.2]
  | inf s => exact absurd h (by simp [isFloat])
  | nan => exact absurd h (by simp [isFloat])

theorem isFinite_mul_one {x : F64} (h : x.isFloat = true) : (x.mul 1).isFinite = true := by
  cases x with
  | fin a =>
    simp only [isFloat, Bool.and_eq_true, decide_eq_true_eq] at h
    show (ofRat (a * 1)).isFinite = true
    rw [mul_one]
    unfold ofRat
    rw [if_neg (not_le.mpr h.2), if_neg (not_le.mpr h.1)]
    rfl
  | inf s => exact absurd h (by simp [isFloat])
  | nan => exact absurd h (by simp [isFloat])

/-! ## Clamping -/

/-- A number brought into range is no NaN. -/
theorem ofRat_ne_nan (q : ℚ) : ofRat q ≠ .nan := by
  rcases ofRat_cases q with h | ⟨s, h⟩ <;> rw [h] <;> simp

/-- Shifting and scaling by constants may overflow, but does not give NaN. -/
theorem scaled_ne_nan (q : ℚ) :
    (((fin q).sub 40).div (.fin (144 / 10))).mul 100 ≠ .nan := by
  have hmul : ∀ x : F64, x ≠ .nan → x.mul 100 ≠ .nan := by
    intro x hx
    cases x with
    | fin a => exact ofRat_ne_nan _
    | inf s =>
      show (if (100 : ℚ) = 0 then F64.nan else _) ≠ .nan
      rw [if_neg (by norm_num)]
      simp
    | nan => exact absurd rfl hx
  have hdiv : ∀ x : F64, x ≠ .nan → x.div (.fin (144 / 10)) ≠ .nan := by
    intro x hx
    cases x with
    | fin a =>
      rw [fin_div_fin (by norm_num)]
      exact ofRat_ne_nan _
    | inf s => simp [div]
    | nan => exact absurd rfl hx
  exact hmul _ (hdiv _ (ofRat_ne_nan _))

/-- A number other than NaN is finite once it is clamped. -/
theorem isFinite_clamp {x : F64} (h : x ≠ .nan) : ((max 0 (min 100 x)).round).isFinite = true := by
  have hmin : min 100 x = .inf true ∨ ∃ q, min 100 x = .fin q := by
    cases x with
    | fin q =>
      right
      unfold min
      rw [if_neg (by simp)]
      split_ifs
      · exact ⟨q, rfl⟩
      · exact ⟨100, rfl⟩
    | inf s =>
      cases s with
      | true => exact Or.inl rfl
      | false => exact Or.inr ⟨100, rfl⟩
    | nan => exact absurd rfl h
  rcases hmin with hq | ⟨q, hq⟩ <;> rw [hq]
  · rfl
  · unfold max
    rw [if_neg (by simp)]
    split_ifs <;> rfl

end F64

end Go
