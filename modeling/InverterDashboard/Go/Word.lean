import InverterDashboard.Go.Text
import Mathlib.Data.List.TakeWhile

set_option relaxedAutoImplicit false
set_option autoImplicit false

/-!
# The type `int`

A signed type of 32 or 64 bits. An operation is given by its exact result, and by what becomes of
it: the machine wraps it around, a check refuses it where the type does not hold it. A program that
is written over both readings has no overflow if the check lets it through, and then it computes the
exact results.

## Main definitions

* `Go.IntSize`, `Go.IntSize.maxInt`, `Go.IntSize.Holds` — the sizes and the numbers of the type.
* `Go.IntSize.wrap`, `Go.IntSize.check` — the two readings of an operation.
* `Go.IntSize.atoi`, `Go.trim` — `strconv.Atoi` for a size, `strings.Trim`.

## Main results

* `Go.IntSize.wrap_of_holds`, `check_of_holds` — numbers of the type are left alone.
* `Go.trim_digits_eq_empty_iff` — what is trimmed to nothing has no other character.
-/

namespace Go

/-! ## Numbers and operations -/

/-- `strconv.IntSize`. -/
inductive IntSize where
  | bits32
  | bits64
  deriving DecidableEq

/-- An operation whose exact result the type does not hold. -/
structure Overflow where
  exact : ℤ
  deriving DecidableEq

namespace IntSize

/-- The number of bits. -/
def bits : IntSize → ℕ
  | .bits32 => 32
  | .bits64 => 64

/-- `int(^uint(0) >> 1)`. -/
def maxInt (w : IntSize) : ℤ := 2 ^ (w.bits - 1) - 1

/-- The type holds a number. -/
def Holds (w : IntSize) (n : ℤ) : Prop := -w.maxInt - 1 ≤ n ∧ n ≤ w.maxInt

instance (w : IntSize) (n : ℤ) : Decidable (w.Holds n) :=
  inferInstanceAs (Decidable (_ ∧ _))

/-- The result of an operation on the machine. -/
def wrap (w : IntSize) (n : ℤ) : ℤ := n.bmod (2 ^ w.bits)

/-- The result of an operation, if the type holds it. -/
def check (w : IntSize) (n : ℤ) : Except Overflow ℤ := if w.Holds n then .ok n else .error ⟨n⟩

theorem maxInt_pos (w : IntSize) : 0 < w.maxInt := by cases w <;> decide

theorem wrap_of_holds {w : IntSize} {n : ℤ} (h : w.Holds n) : w.wrap n = n := by
  obtain ⟨hlo, hhi⟩ := h
  unfold wrap
  cases w with
  | bits32 =>
    have hmax : IntSize.bits32.maxInt = 2147483647 := by decide
    have hpow : 2 ^ IntSize.bits32.bits = 4294967296 := by decide
    rw [hpow]
    exact Int.bmod_eq_of_le (by omega) (by omega)
  | bits64 =>
    have hmax : IntSize.bits64.maxInt = 9223372036854775807 := by decide
    have hpow : 2 ^ IntSize.bits64.bits = 18446744073709551616 := by decide
    rw [hpow]
    exact Int.bmod_eq_of_le (by omega) (by omega)

theorem check_of_holds {w : IntSize} {n : ℤ} (h : w.Holds n) : w.check n = .ok n := if_pos h

/-- A number between zero and the largest one. -/
theorem holds_of_nonneg {w : IntSize} {n : ℤ} (h : 0 ≤ n) (hle : n ≤ w.maxInt) : w.Holds n :=
  ⟨by have := w.maxInt_pos; omega, hle⟩

/-- `strconv.Atoi`. -/
def atoi (w : IntSize) (s : String) : Option ℤ :=
  let v : Option ℤ :=
    match s.toList with
    | '-' :: cs => (digitsValue cs).map fun n : ℕ => -(n : ℤ)
    | '+' :: cs => (digitsValue cs).map fun n : ℕ => (n : ℤ)
    | cs => (digitsValue cs).map fun n : ℕ => (n : ℤ)
  v.filter fun n => w.Holds n

/-- On a 64-bit target. -/
theorem atoi_bits64 (s : String) : IntSize.bits64.atoi s = Go.atoi s := by
  have hiff : ∀ n, IntSize.bits64.Holds n ↔ -(2 : ℤ) ^ 63 ≤ n ∧ n < (2 : ℤ) ^ 63 := by
    intro n
    simp only [Holds, maxInt, bits]
    norm_num
    omega
  unfold atoi Go.atoi
  simp only [hiff, Bool.decide_and]
  congr 1
  split
  · next cs heq => cases hvalue : digitsValue cs <;> simp [heq, hvalue]
  · next cs heq => cases hvalue : digitsValue cs <;> simp [heq, hvalue]
  · next hminus hplus => cases hvalue : digitsValue s.toList <;> simp [hvalue]

end IntSize

/-! ## Digits -/

/-- A digit string is no sign and some digits. -/
theorem digitsValue_eq_some_iff {cs : List Char} {n : ℕ} :
    digitsValue cs = some n ↔ cs ≠ [] ∧ (∀ c ∈ cs, c.isDigit = true) ∧
      cs.foldl (fun n c => 10 * n + (c.toNat - '0'.toNat)) 0 = n := by
  unfold digitsValue
  by_cases hnil : cs = []
  · simp [hnil]
  by_cases hall : ∀ c ∈ cs, c.isDigit = true
  · rw [if_neg (by simpa [hnil] using hall), Option.some.injEq]
    exact ⟨fun h => ⟨hnil, hall, h⟩, fun h => h.2.2⟩
  · rw [if_pos (by simpa [hnil] using hall)]
    exact ⟨nofun, fun h => absurd h.2.1 hall⟩

/-- A digit string is read without a sign. -/
theorem IntSize.atoi_digits (w : IntSize) {cs : List Char} {n : ℕ} (h : digitsValue cs = some n) :
    w.atoi (String.ofList cs) = if (n : ℤ) ≤ w.maxInt then some (n : ℤ) else none := by
  obtain ⟨hne, hall, -⟩ := digitsValue_eq_some_iff.mp h
  obtain ⟨c, cs, rfl⟩ := List.exists_cons_of_ne_nil hne
  have hdigit := hall c List.mem_cons_self
  have hread : w.atoi (String.ofList (c :: cs)) = (some (n : ℤ)).filter fun n => w.Holds n := by
    unfold atoi
    rw [String.toList_ofList]
    dsimp only
    split
    · next heq =>
      obtain rfl := (List.cons.inj heq).1
      exact absurd hdigit (by decide)
    · next heq =>
      obtain rfl := (List.cons.inj heq).1
      exact absurd hdigit (by decide)
    · rw [h, Option.map_some]
  rw [hread]
  by_cases hle : (n : ℤ) ≤ w.maxInt
  · rw [if_pos hle, Option.filter_some, if_pos]
    exact decide_eq_true (holds_of_nonneg (Int.natCast_nonneg n) hle)
  · rw [if_neg hle, Option.filter_some, if_neg]
    exact fun hc => hle (of_decide_eq_true hc).2

/-- `strings.Trim`: the characters of a set are cut off at both ends. -/
def trim (s cutset : String) : String :=
  String.ofList
    (((s.toList.dropWhile cutset.toList.contains).reverse.dropWhile cutset.toList.contains).reverse)

/-- The ends are trimmed away only if there is nothing between them. -/
theorem trim_eq_empty_iff (s cutset : String) :
    trim s cutset = "" ↔ ∀ c ∈ s.toList, c ∈ cutset.toList := by
  unfold trim
  rw [← String.toList_inj, String.toList_ofList, String.toList_empty, List.reverse_eq_nil_iff,
    List.dropWhile_eq_nil_iff]
  constructor
  · intro h
    by_contra hne
    obtain ⟨c, hc, hout⟩ : ∃ c ∈ s.toList, c ∉ cutset.toList := by
      simpa only [not_forall, exists_prop] using hne
    -- the first character outside of the set is what is left in front
    have hdrop : s.toList.dropWhile cutset.toList.contains ≠ [] := by
      rw [ne_eq, List.dropWhile_eq_nil_iff]
      intro hall
      exact hout (by simpa using hall c hc)
    have hhead := List.head_dropWhile_not cutset.toList.contains hdrop
    have hmem := h _ (List.mem_reverse.mpr (List.head_mem hdrop))
    rw [hhead] at hmem
    cases hmem
  · intro h c hc
    have hmem := (List.dropWhile_suffix _).subset (List.mem_reverse.mp hc)
    simpa using h c hmem

/-- The ten digits. -/
theorem mem_digits_iff (c : Char) : c ∈ "0123456789".toList ↔ c.isDigit = true := by
  have hlist : "0123456789".toList = ['0', '1', '2', '3', '4', '5', '6', '7', '8', '9'] := by
    decide
  rw [hlist]
  constructor
  · intro h
    have hall : ['0', '1', '2', '3', '4', '5', '6', '7', '8', '9'].all Char.isDigit = true := rfl
    exact List.all_eq_true.mp hall c h
  · intro h
    have hc : c = Char.ofNat c.toNat := (Char.ofNat_toNat c).symm
    obtain ⟨hlo, hhi⟩ : 48 ≤ c.toNat ∧ c.toNat ≤ 57 := by
      simp only [Char.isDigit, Bool.and_eq_true, decide_eq_true_eq] at h
      exact ⟨UInt32.le_iff_toNat_le.mp h.1, UInt32.le_iff_toNat_le.mp h.2⟩
    rw [hc]
    generalize c.toNat = n at hlo hhi
    interval_cases n <;> decide

/-- **Digit strings.** What is trimmed to nothing has no other character. -/
theorem trim_digits_eq_empty_iff (s : String) :
    trim s "0123456789" = "" ↔ ∀ c ∈ s.toList, c.isDigit = true := by
  rw [trim_eq_empty_iff]
  simp only [mem_digits_iff]

end Go
