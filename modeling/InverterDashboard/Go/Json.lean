import InverterDashboard.Go.Float
import Mathlib.Data.List.AList
import Mathlib.Data.List.Sort
import Mathlib.Data.String.Basic

set_option relaxedAutoImplicit false
set_option autoImplicit false

/-!
# JSON text and the values `encoding/json` makes of it

`Go.Json` is the syntax tree of a JSON text, with number literals kept as written, since
`json.Number` and `strconv.ParseInt` depend on the spelling. `Go.Any` is the Go value of type
`interface{}` that decoding produces. A Go map is the list of its entries in the order the next
`range` statement visits them; statements that hold for every list hold for every order.

## Main definitions

* `Go.Number`, `Go.Json`, `Go.Any` — literals, texts and decoded values.
* `Go.Json.toAny`, `Go.Json.useNumber` — `json.Unmarshal` into `interface{}` without and with
  `UseNumber`; the first fails on a literal outside the range of `float64`.
* `Go.StrMap`, `Go.GoMap` — string-keyed maps, and the same with the nil map `none`.
* `Go.GoMap.write` — `m[k] = v`, with no result on the nil map, where the program panics.
* `Go.GoSlice` — a slice with the stale elements behind its length.
-/

namespace Go

/-- A JSON number literal. The integer part has no leading zeros, so a natural number spells
it; `frac = []` and `exp = none` mean that the part is not written. -/
structure Number where
  neg : Bool
  int : ℕ
  frac : List (Fin 10)
  exp : Option ℤ
  deriving DecidableEq

namespace Number

/-- The value of the digits after the point. -/
def fracValue : List (Fin 10) → ℚ
  | [] => 0
  | d :: ds => ((d : ℕ) + fracValue ds) / 10

/-- The exact value of a literal. -/
def value (n : Number) : ℚ :=
  (if n.neg then -1 else 1) * (n.int + fracValue n.frac) * (10 : ℚ) ^ n.exp.getD 0

/-- `strconv.ParseInt(text, 10, bits)` on a literal: only an integer spelling in range. -/
def parseInt (n : Number) (bits : ℕ) : Option ℤ :=
  let v : ℤ := if n.neg then -(n.int : ℤ) else n.int
  if n.frac = [] ∧ n.exp = none ∧ -(2 : ℤ) ^ (bits - 1) ≤ v ∧ v < (2 : ℤ) ^ (bits - 1) then some v
  else none

/-- The literal of an integer. -/
def ofInt (i : ℤ) : Number := ⟨decide (i < 0), i.natAbs, [], none⟩

end Number

/-- The syntax tree of a JSON text. -/
inductive Json where
  | null
  | bool (b : Bool)
  | num (n : Number)
  | str (s : String)
  | arr (elems : List Json)
  | obj (fields : List (String × Json))

/-- A Go value of type `interface{}`: the ones decoding produces, and the native `int` that
program-built command payloads may hold. -/
inductive Any where
  | nil
  | bool (b : Bool)
  | float64 (x : F64)
  | int (i : ℤ)
  | number (n : Number)
  | string (s : String)
  | list (elems : List Any)
  | object (fields : List (String × Any))

namespace Any

/-- The type assertion `v.(map[string]interface{})`. -/
def object? : Any → Option (List (String × Any))
  | .object fs => some fs
  | _ => none

/-- The type assertion `v.(string)`. -/
def string? : Any → Option String
  | .string s => some s
  | _ => none

/-- The type assertion `v.(bool)`. -/
def bool? : Any → Option Bool
  | .bool b => some b
  | _ => none

/-- `v == nil`. -/
def isNil : Any → Bool
  | .nil => true
  | _ => false

end Any

/-! ## Maps and slices -/

section Entries

variable {α β : Type}

/-- `m[k]` with the presence flag, on the entries of a map. -/
def entry (m : List (String × α)) (k : String) : Option α := m.lookup k

/-- Entries in which the last one wins among those of the same key, as decoding an object
into a map does. -/
def lastWins : List (String × α) → List (String × α)
  | [] => []
  | (k, v) :: m => if m.any (·.1 == k) then lastWins m else (k, v) :: lastWins m

/-- Entries in increasing key order: the order in which `json.Marshal` writes a map. -/
def sortedEntries (m : List (String × α)) : List (String × α) :=
  m.insertionSort fun a b => a.1 ≤ b.1

/-- Every key left by `lastWins` was there before. -/
theorem mem_of_mem_lastWins {m : List (String × α)} {e : String × α} (h : e ∈ lastWins m) :
    e ∈ m := by
  induction m with
  | nil => exact h
  | cons a m ih =>
    unfold lastWins at h
    split_ifs at h with ha
    · exact List.mem_cons_of_mem _ (ih h)
    · rcases List.mem_cons.mp h with rfl | h
      · exact List.mem_cons_self
      · exact List.mem_cons_of_mem _ (ih h)

/-- `lastWins` has nothing to do when each key is there once. -/
theorem lastWins_of_nodup {m : List (String × α)} (h : (m.map Prod.fst).Nodup) :
    lastWins m = m := by
  induction m with
  | nil => rfl
  | cons a m ih =>
    rw [List.map_cons, List.nodup_cons] at h
    unfold lastWins
    rw [if_neg, ih h.2]
    simpa using h.1

/-- `lastWins` leaves each key once: what it returns are the entries of a map. -/
theorem lastWins_nodup (m : List (String × α)) : ((lastWins m).map Prod.fst).Nodup := by
  induction m with
  | nil => simp [lastWins]
  | cons a m ih =>
    unfold lastWins
    split_ifs with ha
    · exact ih
    · rw [List.map_cons, List.nodup_cons]
      refine ⟨fun hmem => ha ?_, ih⟩
      obtain ⟨e, he, hk⟩ := List.mem_map.mp hmem
      exact List.any_eq_true.mpr ⟨e, mem_of_mem_lastWins he, by simpa using hk⟩

/-- An entry that is found is an entry of the list. -/
theorem mem_of_entry {m : List (String × α)} {k : String} {v : α} (h : entry m k = some v) :
    (k, v) ∈ m := by
  induction m with
  | nil => cases h
  | cons a m ih =>
    obtain ⟨k', v'⟩ := a
    unfold entry at h ih
    rw [List.lookup_cons] at h
    cases hk : k == k' with
    | true =>
      rw [hk] at h
      rw [beq_iff_eq.mp hk, Option.some.inj h]
      exact List.mem_cons_self
    | false =>
      rw [hk] at h
      exact List.mem_cons_of_mem _ (ih h)

/-- In a list with unique keys, every entry is found under its key. -/
theorem entry_of_mem {m : List (String × α)} {k : String} {v : α}
    (hn : (m.map Prod.fst).Nodup) (h : (k, v) ∈ m) : entry m k = some v := by
  induction m with
  | nil => cases h
  | cons a m ih =>
    obtain ⟨k', v'⟩ := a
    rw [List.map_cons, List.nodup_cons] at hn
    unfold entry at ih ⊢
    rw [List.lookup_cons]
    rcases List.mem_cons.mp h with heq | hmem
    · obtain ⟨rfl, rfl⟩ := Prod.mk.inj heq
      simp
    · have hne : k ≠ k' := fun hk => hn.1 (hk ▸ List.mem_map.mpr ⟨(k, v), hmem, rfl⟩)
      rw [beq_false_of_ne hne]
      exact ih hn.2 hmem

/-- A key is missing exactly when no entry has it. -/
theorem entry_eq_none_iff {m : List (String × α)} {k : String} :
    entry m k = none ↔ ∀ v, (k, v) ∉ m := by
  induction m with
  | nil => simp [entry]
  | cons a m ih =>
    obtain ⟨k', v'⟩ := a
    unfold entry at ih ⊢
    rw [List.lookup_cons]
    cases hk : k == k' with
    | true =>
      obtain rfl : k = k' := beq_iff_eq.mp hk
      exact ⟨fun h => by simp at h, fun h => absurd List.mem_cons_self (h v')⟩
    | false =>
      have hne : k ≠ k' := by simpa using hk
      simp [ih, hne]

/-- In a list with unique keys, the order of the entries does not matter. -/
theorem entry_eq_of_perm {m m' : List (String × α)} (hp : m'.Perm m)
    (hn : (m.map Prod.fst).Nodup) (k : String) : entry m' k = entry m k := by
  have hn' : (m'.map Prod.fst).Nodup := (hp.map Prod.fst).nodup_iff.mpr hn
  cases h : entry m k with
  | some v => exact entry_of_mem hn' (hp.mem_iff.mpr (mem_of_entry h))
  | none =>
    rw [entry_eq_none_iff] at h ⊢
    exact fun v hv => h v (hp.mem_iff.mp hv)

/-- In a list with unique keys, an entry is found among some of the entries when it is one of
them. -/
theorem entry_filter {m : List (String × α)} (hn : (m.map Prod.fst).Nodup)
    (p : String × α → Bool) (k : String) (v : α) :
    entry (m.filter p) k = some v ↔ entry m k = some v ∧ p (k, v) = true := by
  have hn' : ((m.filter p).map Prod.fst).Nodup := hn.sublist (List.filter_sublist.map Prod.fst)
  constructor
  · intro h
    obtain ⟨hmem, hp⟩ := List.mem_filter.mp (mem_of_entry h)
    exact ⟨entry_of_mem hn hmem, hp⟩
  · rintro ⟨h, hp⟩
    exact entry_of_mem hn' (List.mem_filter.mpr ⟨mem_of_entry h, hp⟩)

end Entries

/-- A non-nil Go map with string keys. -/
abbrev StrMap (α : Type) : Type := AList fun _ : String => α

/-- A Go map with string keys; `none` is the nil map. -/
abbrev GoMap (α : Type) : Type := Option (StrMap α)

namespace GoMap

variable {α : Type}

/-- `m[k]` with the presence flag; the nil map has no entries. -/
def find (m : GoMap α) (k : String) : Option α := m.bind fun s => s.lookup k

/-- `m[k] = v`. On the nil map the program panics and there is no result. -/
def write (m : GoMap α) (k : String) (v : α) : Option (GoMap α) :=
  m.map fun s => some (s.insert k v)

@[simp] theorem write_none (k : String) (v : α) : write (none : GoMap α) k v = none := rfl

@[simp] theorem write_some (s : StrMap α) (k : String) (v : α) :
    write (some s) k v = some (some (s.insert k v)) := rfl

@[simp] theorem find_none (k : String) : find (none : GoMap α) k = none := rfl

/-- Reading back after a write. -/
theorem find_insert (s : StrMap α) (k k' : String) (v : α) :
    find (some (s.insert k v)) k' = if k' = k then some v else find (some s) k' := by
  unfold find
  simp only [Option.bind_some]
  split_ifs with h
  · rw [h, AList.lookup_insert]
  · rw [AList.lookup_insert_ne h]

end GoMap

/-- A Go slice: `elems` up to its length and, behind it, the elements of the same array that
reslicing made invisible. The nil slice has `isNil` and no elements. -/
structure GoSlice (α : Type) where
  isNil : Bool
  elems : List α
  spare : List α
  deriving DecidableEq

namespace GoSlice

variable {α : Type}

/-- The nil slice. -/
def nil : GoSlice α := ⟨true, [], []⟩

/-- A freshly built slice. -/
def ofList (l : List α) : GoSlice α := ⟨false, l, []⟩

instance : Inhabited (GoSlice α) := ⟨nil⟩

/-- `kept := s[:0]` followed by appending the elements that pass: they overwrite the front of the
array, and what was behind them stays in it. -/
def filterInPlace (s : GoSlice α) (p : α → Bool) : GoSlice α :=
  let kept := s.elems.filter p
  ⟨s.isNil, kept, (s.elems ++ s.spare).drop kept.length⟩

/-- `append(s, as...)`: room behind the length is overwritten. -/
def append (s : GoSlice α) (as : List α) : GoSlice α :=
  ⟨s.isNil && as.isEmpty, s.elems ++ as, s.spare.drop as.length⟩

/-- `s[len(s)-n:]` when `s` has more than `n` elements. -/
def takeLast (s : GoSlice α) (n : ℕ) : GoSlice α :=
  { s with elems := s.elems.drop (s.elems.length - n) }

end GoSlice

/-! ## Decoding into `interface{}` -/

namespace Json

mutual

/-- `json.Unmarshal` into `interface{}`: numbers become `float64`, and a literal that is out of
range fails the whole text. -/
def toAny : Json → Option Any
  | .null => some .nil
  | .bool b => some (.bool b)
  | .num n =>
    match F64.ofRat n.value with
    | .fin q => some (.float64 (.fin q))
    | _ => none
  | .str s => some (.string s)
  | .arr es => (toAnyList es).map .list
  | .obj fs => (toAnyFields fs).map fun es => .object (lastWins es)

/-- The elements of an array. -/
def toAnyList : List Json → Option (List Any)
  | [] => some []
  | e :: es => do
    let v ← toAny e
    let vs ← toAnyList es
    return v :: vs

/-- The members of an object, in the order of the text. -/
def toAnyFields : List (String × Json) → Option (List (String × Any))
  | [] => some []
  | (k, e) :: fs => do
    let v ← toAny e
    let vs ← toAnyFields fs
    return (k, v) :: vs

end

mutual

/-- `Decoder.Decode` into `interface{}` with `UseNumber`: literals are kept. -/
def useNumber : Json → Any
  | .null => .nil
  | .bool b => .bool b
  | .num n => .number n
  | .str s => .string s
  | .arr es => .list (useNumberList es)
  | .obj fs => .object (lastWins (useNumberFields fs))

/-- The elements of an array. -/
def useNumberList : List Json → List Any
  | [] => []
  | e :: es => useNumber e :: useNumberList es

/-- The members of an object, in the order of the text. -/
def useNumberFields : List (String × Json) → List (String × Any)
  | [] => []
  | (k, e) :: fs => (k, useNumber e) :: useNumberFields fs

end

end Json

end Go
