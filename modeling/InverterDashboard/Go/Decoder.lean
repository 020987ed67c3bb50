import InverterDashboard.Go.Json

set_option relaxedAutoImplicit false
set_option autoImplicit false

/-!
# `encoding/json` into typed Go values

Decoding is done into a value that already exists: null leaves scalars and structs alone and
makes pointers, maps and slices nil; an object is merged into a map or a struct member by
member; an array is decoded element by element into the old array. A member whose JSON type
does not fit its Go type is skipped, the rest is still decoded, and the call reports an error.
A decoder therefore returns the value after this best effort together with the success flag.

Struct members are found by their exact name first and by case folding otherwise.

## Main definitions

* `Go.Decoder` — `json.Unmarshal` of a re-marshalled `interface{}` into a `σ`.
* `Go.foldName` — the folding of member names.
* `Go.StructField`, `Go.lookupField`, `Go.Decoder.struct` — struct decoding by a member table.
* `Go.Decoder.Oblivious` — success depends on the JSON value only.

## Main results

* `Go.Decoder.oblivious_struct` and its namesakes — every decoder built here is oblivious.
-/

namespace Go

/-- Decoding a value into an existing one: the new value and whether no error was saved. -/
abbrev Decoder (σ : Type) : Type := Any → σ → σ × Bool

namespace Decoder

variable {σ : Type}

/-- Into a `bool`. -/
def bool : Decoder Bool
  | .nil, v => (v, true)
  | .bool b, _ => (b, true)
  | _, v => (v, false)

/-- Into a `string`. -/
def string : Decoder String
  | .nil, v => (v, true)
  | .string s, _ => (s, true)
  | _, v => (v, false)

/-- The number a re-marshalled value spells, for the values that spell one. -/
def numeric : Any → Option ℚ
  | .float64 (.fin q) => some q
  | .int i => some i
  | .number n => some n.value
  | _ => none

/-- Into a `float64`. -/
def float64 : Decoder F64 := fun a v =>
  match a, numeric a with
  | .nil, _ => (v, true)
  | _, some q =>
    match F64.ofRat q with
    | .fin r => (.fin r, true)
    | _ => (v, false)
  | _, none => (v, false)

/-- Into an integer type with the given range: only whole numbers in range fit. -/
def intIn (lo hi : ℤ) : Decoder ℤ := fun a v =>
  match a, numeric a with
  | .nil, _ => (v, true)
  | _, some q => if q.den = 1 ∧ lo ≤ q.num ∧ q.num < hi then (q.num, true) else (v, false)
  | _, none => (v, false)

/-- Into an `int` (64 bits). -/
def int : Decoder ℤ := intIn (-(2 : ℤ) ^ 63) ((2 : ℤ) ^ 63)

/-- Into an `int32`. -/
def int32 : Decoder ℤ := intIn (-(2 : ℤ) ^ 31) ((2 : ℤ) ^ 31)

/-- Into a `uint32`. -/
def uint32 : Decoder ℤ := intIn 0 ((2 : ℤ) ^ 32)

/-- Into an `interface{}` or a `json.RawMessage`. -/
def any : Decoder Any := fun a _ => (a, true)

/-- Into a pointer: null makes it nil, and any other value allocates before it decodes. -/
def ptr (zero : σ) (d : Decoder σ) : Decoder (Option σ)
  | .nil, _ => (none, true)
  | a, p => let r := d a (p.getD zero); (some r.1, r.2)

/-- The members of an object, decoded one by one into a map. -/
def mapEntries (zero : σ) (d : Decoder σ) :
    List (String × Any) → StrMap σ → StrMap σ × Bool
  | [], m => (m, true)
  | (k, a) :: es, m =>
    let r := d a zero
    let rest := mapEntries zero d es (m.insert k r.1)
    (rest.1, r.2 && rest.2)

/-- Into a map: null makes it nil, an object is merged into it. -/
def map (zero : σ) (d : Decoder σ) : Decoder (GoMap σ)
  | .nil, _ => (none, true)
  | .object es, m =>
    let r := mapEntries zero d es (m.getD ∅)
    (some r.1, r.2)
  | _, m => (m, false)

/-- The elements of an array, each decoded into the old element at its place. -/
def sliceElems (zero : σ) (d : Decoder σ) : List Any → List σ → List σ × Bool
  | [], _ => ([], true)
  | a :: as, old =>
    let r := d a (old.headD zero)
    let rest := sliceElems zero d as old.tail
    (r.1 :: rest.1, r.2 && rest.2)

/-- Into a slice: null makes it nil; an array reuses the old elements, also those behind the
length, and an empty array gives a fresh empty slice. -/
def slice (zero : σ) (d : Decoder σ) : Decoder (GoSlice σ)
  | .nil, _ => (.nil, true)
  | .list [], _ => (.ofList [], true)
  | .list as, s =>
    let old := s.elems ++ s.spare
    let r := sliceElems zero d as old
    (⟨false, r.1, old.drop as.length⟩, r.2)
  | _, s => (s, false)

end Decoder

/-! ## Structs -/

/-- The folding of one rune: ASCII letters to lower case, and the two other runes whose simple
folding orbit meets the ASCII letters, `U+017F` and the Kelvin sign `U+212A`. -/
def foldRune (c : Char) : Char :=
  if c = Char.ofNat 0x17F then 's' else if c = Char.ofNat 0x212A then 'k' else c.toLower

/-- The folding of a member name. -/
def foldName (s : String) : List Char := s.toList.map foldRune

/-- A member of a struct: its JSON name and decoding into it. -/
structure StructField (σ : Type) where
  name : String
  decode : Decoder σ

/-- The member that holds an `α`, read and written by `get` and `set`. -/
def StructField.of {σ α : Type} (name : String) (d : Decoder α) (get : σ → α)
    (set : σ → α → σ) : StructField σ where
  name := name
  decode a s := let r := d a (get s); (set s r.1, r.2)

variable {σ : Type}

/-- The member a key selects: by its exact name, else by folding. -/
def lookupField (fs : List (StructField σ)) (key : String) : Option (StructField σ) :=
  (fs.find? fun f => f.name == key).or (fs.find? fun f => foldName f.name == foldName key)

/-- The members of an object decoded one by one into a struct; unknown keys are ignored. -/
def Decoder.structFields (fs : List (StructField σ)) : List (String × Any) → σ → σ × Bool
  | [], s => (s, true)
  | (k, a) :: es, s =>
    match lookupField fs k with
    | none => structFields fs es s
    | some f =>
      let r := f.decode a s
      let rest := structFields fs es r.1
      (rest.1, r.2 && rest.2)

/-- Into a struct with the given members. -/
def Decoder.struct (fs : List (StructField σ)) : Decoder σ
  | .nil, s => (s, true)
  | .object es, s => structFields fs (sortedEntries es) s
  | _, s => (s, false)

/-! ## Success -/

namespace Decoder

/-- Whether decoding succeeds does not depend on the value that is decoded into. -/
def Oblivious (d : Decoder σ) : Prop := ∀ a v w, (d a v).2 = (d a w).2

@[simp] theorem oblivious_bool : Oblivious bool := by
  intro a v w
  cases a <;> rfl

@[simp] theorem oblivious_string : Oblivious string := by
  intro a v w
  cases a <;> rfl

@[simp] theorem oblivious_float64 : Oblivious float64 := by
  intro a v w
  unfold float64
  split
  · rfl
  · split <;> rfl
  · rfl

@[simp] theorem oblivious_intIn (lo hi : ℤ) : Oblivious (intIn lo hi) := by
  intro a v w
  unfold intIn
  split
  · rfl
  · split_ifs <;> rfl
  · rfl

@[simp] theorem oblivious_int : Oblivious int := oblivious_intIn _ _

@[simp] theorem oblivious_int32 : Oblivious int32 := oblivious_intIn _ _

@[simp] theorem oblivious_uint32 : Oblivious uint32 := oblivious_intIn _ _

@[simp] theorem oblivious_any : Oblivious any := fun _ _ _ => rfl

@[simp] theorem oblivious_ptr {zero : σ} {d : Decoder σ} (h : Oblivious d) :
    Oblivious (ptr zero d) := by
  intro a v w
  cases a with
  | nil => rfl
  | _ => exact h _ _ _

/-- The success of the members of a map does not depend on the map. -/
theorem mapEntries_snd (zero : σ) (d : Decoder σ) (es : List (String × Any)) (m m' : StrMap σ) :
    (mapEntries zero d es m).2 = (mapEntries zero d es m').2 := by
  induction es generalizing m m' with
  | nil => rfl
  | cons e es ih =>
    obtain ⟨k, a⟩ := e
    simp only [mapEntries]
    rw [ih (m.insert k (d a zero).1) (m'.insert k (d a zero).1)]

@[simp] theorem oblivious_map {zero : σ} {d : Decoder σ} : Oblivious (map zero d) := by
  intro a v w
  cases a with
  | object es => exact mapEntries_snd zero d es _ _
  | _ => rfl

/-- The success of the elements of an array does not depend on the old elements. -/
theorem sliceElems_snd {zero : σ} {d : Decoder σ} (h : Oblivious d) (as : List Any)
    (old old' : List σ) : (sliceElems zero d as old).2 = (sliceElems zero d as old').2 := by
  induction as generalizing old old' with
  | nil => rfl
  | cons a as ih =>
    simp only [sliceElems]
    rw [h a (old.headD zero) (old'.headD zero), ih old.tail old'.tail]

@[simp] theorem oblivious_slice {zero : σ} {d : Decoder σ} (h : Oblivious d) :
    Oblivious (slice zero d) := by
  intro a v w
  cases a with
  | list as =>
    cases as with
    | nil => rfl
    | cons a as => exact sliceElems_snd h (a :: as) _ _
  | _ => rfl

/-- The success of the members of a struct does not depend on the struct. -/
theorem structFields_snd {fs : List (StructField σ)} (h : ∀ f ∈ fs, Oblivious f.decode)
    (es : List (String × Any)) (s s' : σ) :
    (structFields fs es s).2 = (structFields fs es s').2 := by
  induction es generalizing s s' with
  | nil => rfl
  | cons e es ih =>
    obtain ⟨k, a⟩ := e
    simp only [structFields]
    cases hf : lookupField fs k with
    | none => exact ih s s'
    | some f =>
      have hmem : f ∈ fs := by
        unfold lookupField at hf
        rcases Option.or_eq_some_iff.mp hf with hf | ⟨-, hf⟩
        · exact List.mem_of_find?_eq_some hf
        · exact List.mem_of_find?_eq_some hf
      dsimp only
      rw [h f hmem a s s', ih (f.decode a s).1 (f.decode a s').1]

@[simp] theorem oblivious_struct {fs : List (StructField σ)} (h : ∀ f ∈ fs, Oblivious f.decode) :
    Oblivious (Decoder.struct fs) := by
  intro a v w
  cases a with
  | object es => exact structFields_snd h _ v w
  | _ => rfl

end Decoder

/-- A member of an oblivious type is decoded obliviously. -/
@[simp] theorem StructField.oblivious_of {α : Type} {name : String} {d : Decoder α} {get : σ → α}
    {set : σ → α → σ} (h : d.Oblivious) : (StructField.of name d get set).decode.Oblivious :=
  fun a v w => h a (get v) (get w)

end Go
