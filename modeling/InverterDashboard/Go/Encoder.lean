import InverterDashboard.Go.Json

set_option relaxedAutoImplicit false
set_option autoImplicit false

/-!
# `json.Marshal` of typed Go values, read back into `interface{}`

A Go value that is marshalled and unmarshalled again into an `interface{}` becomes a value without
types. Infinities and NaN cannot be marshalled, and then the whole call fails. A struct is written
member by member, and a member whose tag says `omitempty` is left out when it is empty.

## Main definitions

* `Go.Encoder` — the untyped value of a typed one, `none` when it cannot be marshalled.
* `Go.OutField`, `Go.Encoder.structFields` — struct encoding by a member table.

## Main results

* `Go.Encoder.lookup_structFields` — what an encoded struct holds under the name of a member.
-/

namespace Go

/-- The untyped value of a typed one. -/
abbrev Encoder (σ : Type) : Type := σ → Option Any

namespace Encoder

variable {σ : Type}

/-- A `bool`. -/
def bool : Encoder Bool := fun b => some (.bool b)

/-- A `string`. -/
def string : Encoder String := fun s => some (.string s)

/-- A `float64`. -/
def float64 : Encoder F64
  | .fin q => some (.float64 (.fin q))
  | _ => none

/-- An integer: it is read back as a number. -/
def int : Encoder ℤ := fun n => some (.float64 (F64.ofInt n))

/-- The number a literal is read back as, and nil when it is out of range. -/
def number (n : Number) : Any :=
  match F64.ofRat n.value with
  | .fin q => .float64 (.fin q)
  | _ => .nil

mutual

/-- An `interface{}`. -/
def any : Any → Option Any
  | .nil => some .nil
  | .bool b => some (.bool b)
  | .float64 x => float64 x
  | .int n => int n
  | .number n => some (number n)
  | .string s => some (.string s)
  | .list es => (anyList es).map .list
  | .object fs => (anyFields fs).map .object

/-- The elements of a slice. -/
def anyList : List Any → Option (List Any)
  | [] => some []
  | e :: es => do
    let v ← any e
    let vs ← anyList es
    return v :: vs

/-- The entries of a map. -/
def anyFields : List (String × Any) → Option (List (String × Any))
  | [] => some []
  | (k, e) :: fs => do
    let v ← any e
    let vs ← anyFields fs
    return (k, v) :: vs

end

/-- A pointer. -/
def ptr (d : Encoder σ) : Encoder (Option σ)
  | none => some .nil
  | some v => d v

/-- A map. -/
def map (d : Encoder σ) : Encoder (GoMap σ)
  | none => some .nil
  | some m => (m.entries.mapM fun e => (d e.2).map fun v => (e.1, v)).map .object

/-- A slice. -/
def slice (d : Encoder σ) : Encoder (GoSlice σ) := fun s =>
  if s.isNil then some .nil else (s.elems.mapM d).map .list

end Encoder

/-! ## Structs -/

/-- A member of a struct: its name, when it is left out, and its untyped value. -/
structure OutField (σ : Type) where
  name : String
  omitted : σ → Bool
  encode : Encoder σ

namespace OutField

variable {σ τ : Type}

/-- A member that is always written. -/
def always (name : String) (d : Encoder τ) (get : σ → τ) : OutField σ :=
  ⟨name, fun _ => false, fun s => d (get s)⟩

/-- A member with `omitempty`. -/
def omitEmpty (name : String) (d : Encoder τ) (empty : τ → Bool) (get : σ → τ) : OutField σ :=
  ⟨name, fun s => empty (get s), fun s => d (get s)⟩

/-- A string with `omitempty`. -/
def omitString (name : String) (get : σ → String) : OutField σ :=
  omitEmpty name Encoder.string (· == "") get

/-- A number with `omitempty`. -/
def omitFloat64 (name : String) (get : σ → F64) : OutField σ :=
  omitEmpty name Encoder.float64 (·.eq 0) get

/-- A pointer with `omitempty`. -/
def omitNil (name : String) (d : Encoder τ) (get : σ → Option τ) : OutField σ :=
  omitEmpty name (Encoder.ptr d) Option.isNone get

/-- A map is empty when it is nil or has no entry. -/
def emptyMap (m : GoMap τ) : Bool := m.all fun s => s.entries.isEmpty

/-- A slice is empty when it has no element. -/
def emptySlice (s : GoSlice τ) : Bool := s.elems.isEmpty

end OutField

namespace Encoder

variable {σ : Type}

/-- The members of a struct that are written. -/
def structFields (fs : List (OutField σ)) (s : σ) : Option (List (String × Any)) :=
  (fs.filter fun f => !f.omitted s).mapM fun f => (f.encode s).map fun v => (f.name, v)

/-- A struct. -/
def struct (fs : List (OutField σ)) : Encoder σ := fun s => (structFields fs s).map .object

/-- The names of what is written. -/
theorem names_structFields {fs : List (OutField σ)} {s : σ} {es : List (String × Any)}
    (h : structFields fs s = some es) :
    es.map Prod.fst = (fs.filter fun f => !f.omitted s).map OutField.name := by
  unfold structFields at h
  generalize fs.filter (fun f => !f.omitted s) = gs at h
  induction gs generalizing es with
  | nil =>
    obtain rfl := Option.some.inj h
    rfl
  | cons g gs ih =>
    simp only [List.mapM_cons, Option.bind_eq_bind, Option.bind_eq_some_iff, Option.pure_def,
      Option.map_eq_some_iff] at h
    obtain ⟨_, ⟨v, -, rfl⟩, es', hes, h⟩ := h
    obtain rfl := Option.some.inj h
    rw [List.map_cons, List.map_cons, ih hes]

/-- **Encoded structs.** Under the name of a member an encoded struct holds the encoded value of
the member, or nothing when the member is left out.

**Proof sketch.** Induction on the table; a later member has another name. -/
theorem lookup_structFields {fs : List (OutField σ)} (hn : (fs.map OutField.name).Nodup) {s : σ}
    {es : List (String × Any)} (h : structFields fs s = some es) {f : OutField σ} (hf : f ∈ fs) :
    es.lookup f.name = if f.omitted s then none else f.encode s := by
  induction fs generalizing es with
  | nil => cases hf
  | cons g fs ih =>
    simp only [List.map_cons, List.nodup_cons] at hn
    -- a member of the rest is not found under the name of the first one
    have hrest : ∀ {es' : List (String × Any)}, structFields fs s = some es' →
        es'.lookup g.name = none := by
      intro es' hes'
      refine List.lookup_eq_none_iff.mpr fun e he => ?_
      have hmem : e.1 ∈ es'.map Prod.fst := List.mem_map_of_mem he
      rw [names_structFields hes'] at hmem
      obtain ⟨f', hf', hname⟩ := List.mem_map.mp hmem
      refine bne_iff_ne.mpr fun heq => hn.1 ?_
      rw [heq, ← hname]
      exact List.mem_map_of_mem (List.mem_of_mem_filter hf')
    have hsplit : (g.omitted s = true ∧ structFields fs s = some es) ∨
        ∃ v es', g.omitted s = false ∧ g.encode s = some v ∧ structFields fs s = some es' ∧
          es = (g.name, v) :: es' := by
      unfold structFields at h ⊢
      cases ho : g.omitted s with
      | true =>
        rw [List.filter_cons_of_neg (by simp [ho])] at h
        exact Or.inl ⟨rfl, h⟩
      | false =>
        rw [List.filter_cons_of_pos (by simp [ho])] at h
        simp only [List.mapM_cons, Option.bind_eq_bind, Option.bind_eq_some_iff, Option.pure_def,
          Option.map_eq_some_iff] at h
        obtain ⟨_, ⟨v, hv, rfl⟩, es', hes', h⟩ := h
        exact Or.inr ⟨v, es', rfl, hv, hes', (Option.some.inj h).symm⟩
    rcases hsplit with ⟨ho, hes⟩ | ⟨v, es', ho, hv, hes', rfl⟩
    · rcases List.mem_cons.mp hf with rfl | hf
      · rw [ho, if_pos rfl]
        exact hrest hes
      · exact ih hn.2 hes hf
    · rcases List.mem_cons.mp hf with rfl | hf
      · rw [ho, List.lookup_cons_self, hv]
        rfl
      · have hne : (f.name == g.name) = false := by
          refine beq_false_of_ne fun heq => hn.1 ?_
          rw [← heq]
          exact List.mem_map_of_mem hf
        rw [List.lookup_cons, hne]
        exact ih hn.2 hes' hf

end Encoder

end Go
