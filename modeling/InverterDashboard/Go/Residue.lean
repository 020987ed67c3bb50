import InverterDashboard.Go.Decoder

set_option relaxedAutoImplicit false
set_option autoImplicit false

/-!
# What decoding leaves of an old value

`encoding/json` decodes into values that already exist. Here is when the result is the same as that
of decoding into a zero value: when the text overwrites, member by member, everything the old value
holds.

## Main definitions

* `Go.Decoder.run` — several values decoded into one, one after the other.
* `Go.Slot` — a type with its equality of values and the condition under which nothing of an old
  value is left.
* `Go.Slot.scalar`, `Go.Slot.pointer`, `Go.Slot.map` — the types of members.
* `Go.Member`, `Go.Record`, `Go.Record.given` — a struct as its members, and what an object gives
  them.
* `Go.Element`, `Go.Record.element`, `Go.Slot.element` — the elements of an array.

## Main results

* `Go.Record.get_structFields` — a member after decoding is its old value with all that the object
  gives it decoded into it.
* `Go.Element.slice_same_iff` — when an array decoded into an old slice is the array decoded
  afresh.
-/

namespace Go

variable {σ τ : Type}

namespace Decoder

/-- Values decoded into one value, one after the other. -/
def run (d : Decoder τ) (as : List Any) (v : τ) : τ := as.foldl (fun v a => (d a v).1) v

@[simp] theorem run_nil (d : Decoder τ) (v : τ) : d.run [] v = v := rfl

@[simp] theorem run_cons (d : Decoder τ) (a : Any) (as : List Any) (v : τ) :
    d.run (a :: as) v = d.run as (d a v).1 := rfl

/-- A decoder that null leaves alone and any other fitting value overwrites. -/
structure Scalar (d : Decoder τ) (zero : τ) : Prop where
  oblivious : d.Oblivious
  nil : ∀ v, (d .nil v).1 = v
  overwrites : ∀ a v w, a ≠ .nil → (d a zero).2 = true → (d a v).1 = (d a w).1

theorem scalar_bool : Scalar bool false := by
  refine ⟨oblivious_bool, fun _ => rfl, fun a v w hne hfit => ?_⟩
  cases a <;> first | rfl | exact absurd rfl hne | cases hfit

theorem scalar_string : Scalar string "" := by
  refine ⟨oblivious_string, fun _ => rfl, fun a v w hne hfit => ?_⟩
  cases a <;> first | rfl | exact absurd rfl hne | cases hfit

theorem scalar_float64 : Scalar float64 0 := by
  refine ⟨oblivious_float64, fun _ => rfl, fun a v w hne hfit => ?_⟩
  unfold float64 at hfit ⊢
  split
  · exact absurd rfl hne
  · rename_i q hq
    simp only [hq] at hfit
    split
    · rfl
    · rename_i hinf
      split at hfit
      · rename_i r hr
        exact absurd hr (hinf r)
      · cases hfit
  · rename_i hq
    simp only [hq] at hfit
    cases hfit

/-- Nulls leave a scalar alone, anything else overwrites it. -/
theorem Scalar.run_eq_iff {d : Decoder τ} {zero : τ} (h : d.Scalar zero) {as : List Any}
    (hfit : ∀ a ∈ as, (d a zero).2 = true) (v w : τ) :
    d.run as v = d.run as w ↔ (∃ a ∈ as, a ≠ .nil) ∨ v = w := by
  induction as generalizing v w with
  | nil => simp
  | cons a as ih =>
    have hrest : ∀ b ∈ as, (d b zero).2 = true := fun b hb => hfit b (List.mem_cons_of_mem _ hb)
    rw [run_cons, run_cons, ih hrest]
    by_cases ha : a = .nil
    · subst ha
      simp [h.nil]
    · rw [h.overwrites a v w ha (hfit a List.mem_cons_self)]
      simp [ha]

end Decoder

/-! ## Slots -/

/-- A type as decoding sees it: `same` is the equality of its values, and `clean` says of the values
decoded into an old one that nothing of it is left. -/
structure Slot (τ : Type) where
  zero : τ
  decode : Decoder τ
  same : τ → τ → Prop
  clean : List Any → τ → Prop
  oblivious : decode.Oblivious
  refl : ∀ v, same v v
  same_iff : ∀ as, (∀ a ∈ as, (decode a zero).2 = true) →
    ∀ old, same (decode.run as old) (decode.run as zero) ↔ clean as old

namespace Slot

/-- A scalar: one value that is not null, or nothing to overwrite. -/
def scalar (zero : τ) (d : Decoder τ) (h : d.Scalar zero) : Slot τ where
  zero := zero
  decode := d
  same := Eq
  clean as old := (∃ a ∈ as, a ≠ .nil) ∨ old = zero
  oblivious := h.oblivious
  refl _ := rfl
  same_iff _ hfit old := h.run_eq_iff hfit old zero

/-- A pointer to a scalar: any value at all, or nothing to overwrite. -/
def pointer (zero : τ) (d : Decoder τ) (h : d.Scalar zero) : Slot (Option τ) where
  zero := none
  decode := .ptr zero d
  same := Eq
  clean as old := as ≠ [] ∨ old = none
  oblivious := Decoder.oblivious_ptr h.oblivious
  refl _ := rfl
  same_iff as hfit old := by
    cases as with
    | nil => simp
    | cons a as =>
      have hone : (Decoder.ptr zero d a old).1 = (Decoder.ptr zero d a none).1 := by
        by_cases ha : a = .nil
        · subst ha
          rfl
        · have hd : (d a zero).2 = true := by
            have := hfit a List.mem_cons_self
            cases a <;> first | exact absurd rfl ha | exact this
          have heq := h.overwrites a (old.getD zero) zero ha hd
          cases a <;> first | exact absurd rfl ha | exact congrArg some heq
      simp [hone]

/-- The key is one of an object among the values. -/
def Covers (as : List Any) (k : String) : Prop := ∃ es, Any.object es ∈ as ∧ k ∈ es.map Prod.fst

/-- A key of the object has what the object gives it, and every other key what it had. -/
theorem find_mapEntries (zero : τ) (d : Decoder τ) (es : List (String × Any)) (m m' : StrMap τ)
    (k : String) :
    GoMap.find (some (Decoder.mapEntries zero d es m).1) k =
      if k ∈ es.map Prod.fst then GoMap.find (some (Decoder.mapEntries zero d es m').1) k
      else GoMap.find (some m) k := by
  induction es generalizing m m' with
  | nil => simp [Decoder.mapEntries]
  | cons e es ih =>
    obtain ⟨k', a⟩ := e
    simp only [Decoder.mapEntries]
    rw [ih _ (m'.insert k' (d a zero).1)]
    by_cases hk : k ∈ es.map Prod.fst
    · simp only [hk, if_true, List.map_cons, List.mem_cons, or_true]
    · rw [if_neg hk, GoMap.find_insert]
      by_cases hk' : k = k'
      · subst hk'
        rw [ih (m'.insert k (d a zero).1) m, if_neg hk, GoMap.find_insert]
        simp
      · rw [if_neg hk', if_neg (by simpa [hk'] using hk)]

/-- What an object covers does not depend on the old map. -/
theorem find_map_object_of_mem (zero : τ) (d : Decoder τ) {es : List (String × Any)}
    (m m' : GoMap τ) {k : String} (hk : k ∈ es.map Prod.fst) :
    (Decoder.map zero d (.object es) m).1.find k =
      (Decoder.map zero d (.object es) m').1.find k := by
  have h := find_mapEntries zero d es (m.getD ∅) (m'.getD ∅) k
  rwa [if_pos hk] at h

/-- What an object does not cover stays. -/
theorem find_map_object_of_notMem (zero : τ) (d : Decoder τ) {es : List (String × Any)}
    (m : GoMap τ) {k : String} (hk : k ∉ es.map Prod.fst) :
    (Decoder.map zero d (.object es) m).1.find k = m.find k := by
  have h := find_mapEntries zero d es (m.getD ∅) ∅ k
  rw [if_neg hk] at h
  refine h.trans ?_
  cases m with
  | none => simp [GoMap.find]
  | some s => rfl

/-- What fits a map is null or an object. -/
theorem cases_of_fits {zero : τ} {d : Decoder τ} {a : Any}
    (h : (Decoder.map zero d a none).2 = true) : a = .nil ∨ ∃ es, a = .object es := by
  cases a with
  | nil => exact Or.inl rfl
  | object es => exact Or.inr ⟨es, rfl⟩
  | _ => cases h

/-- After a null nothing of the old map is left. -/
theorem run_map_of_nil_mem (zero : τ) (d : Decoder τ) {as : List Any} (hnil : Any.nil ∈ as)
    (m m' : GoMap τ) : (Decoder.map zero d).run as m = (Decoder.map zero d).run as m' := by
  induction as generalizing m m' with
  | nil => cases hnil
  | cons a as ih =>
    rw [Decoder.run_cons, Decoder.run_cons]
    rcases List.mem_cons.mp hnil with rfl | hnil
    · rfl
    · exact ih hnil _ _

/-- Objects decoded into a map: what they cover does not depend on it, and everything else stays.

**Proof sketch.** Induction on the values. A key the first object covers is the same in both maps
from then on, so it stays the same whether or not later objects cover it. -/
theorem run_map_of_nil_notMem (zero : τ) (d : Decoder τ) {as : List Any}
    (hfit : ∀ a ∈ as, (Decoder.map zero d a none).2 = true) (hnil : Any.nil ∉ as)
    (m m' : GoMap τ) :
    (as ≠ [] → ((Decoder.map zero d).run as m).isSome) ∧ ∀ k,
      (Covers as k ∨ m.find k = m'.find k →
        ((Decoder.map zero d).run as m).find k = ((Decoder.map zero d).run as m').find k) ∧
      (¬ Covers as k → ((Decoder.map zero d).run as m).find k = m.find k) := by
  induction as generalizing m m' with
  | nil =>
    refine ⟨fun h => absurd rfl h, fun k => ⟨?_, fun _ => rfl⟩⟩
    rintro (⟨es, hes, -⟩ | h)
    · cases hes
    · exact h
  | cons a as ih =>
    obtain ⟨hne, hnil'⟩ := not_or.mp (List.mem_cons.not.mp hnil)
    obtain ⟨es, rfl⟩ := (cases_of_fits (hfit a List.mem_cons_self)).resolve_left (Ne.symm hne)
    have hrest : ∀ b ∈ as, (Decoder.map zero d b none).2 = true :=
      fun b hb => hfit b (List.mem_cons_of_mem _ hb)
    obtain ⟨hsome, hkeys⟩ := ih hrest hnil' (Decoder.map zero d (.object es) m).1
      (Decoder.map zero d (.object es) m').1
    have hcover : ∀ k, Covers (.object es :: as) k ↔ k ∈ es.map Prod.fst ∨ Covers as k := by
      intro k
      unfold Covers
      simp only [List.mem_cons, Any.object.injEq]
      constructor
      · rintro ⟨es', rfl | hmem, hk⟩
        · exact Or.inl hk
        · exact Or.inr ⟨es', hmem, hk⟩
      · rintro (hk | ⟨es', hmem, hk⟩)
        · exact ⟨es, Or.inl rfl, hk⟩
        · exact ⟨es', Or.inr hmem, hk⟩
    rw [Decoder.run_cons, Decoder.run_cons]
    refine ⟨fun _ => ?_, fun k => ⟨fun hk => (hkeys k).1 ?_, fun hk => ?_⟩⟩
    · cases as with
      | nil => rfl
      | cons b bs => exact hsome (List.cons_ne_nil _ _)
    · rw [hcover] at hk
      by_cases hes : k ∈ es.map Prod.fst
      · exact Or.inr (find_map_object_of_mem zero d m m' hes)
      · rw [find_map_object_of_notMem zero d m hes, find_map_object_of_notMem zero d m' hes]
        rcases hk with (hk | hk) | hk
        · exact absurd hk hes
        · exact Or.inl hk
        · exact Or.inr hk
    · rw [hcover, not_or] at hk
      rw [(hkeys k).2 hk.2, find_map_object_of_notMem zero d m hk.1]

/-- A map of scalars: every key of the old map is covered or dropped, or there is no map. -/
def map (zero : τ) (d : Decoder τ) : Slot (GoMap τ) where
  zero := none
  decode := .map zero d
  same m m' := m.isSome = m'.isSome ∧ ∀ k, m.find k = m'.find k
  clean as old :=
    if as = [] then old = none
    else Any.nil ∈ as ∨ ∀ k, (old.find k).isSome → Covers as k
  oblivious := Decoder.oblivious_map
  refl _ := ⟨rfl, fun _ => rfl⟩
  same_iff as hfit old := by
    by_cases hne : as = []
    · subst hne
      simp only [if_true, Decoder.run_nil]
      constructor
      · rintro ⟨hs, -⟩
        exact Option.not_isSome_iff_eq_none.mp (by rw [hs]; exact Bool.false_ne_true)
      · rintro rfl
        exact ⟨rfl, fun _ => rfl⟩
    · rw [if_neg hne]
      by_cases hnil : Any.nil ∈ as
      · rw [run_map_of_nil_mem zero d hnil old none]
        simp [hnil]
      · obtain ⟨hsome, hkeys⟩ := run_map_of_nil_notMem zero d hfit hnil old none
        obtain ⟨hsome', hkeys'⟩ := run_map_of_nil_notMem zero d hfit hnil none none
        constructor
        · rintro ⟨-, hsame⟩
          refine Or.inr fun k hk => ?_
          by_contra hcov
          rw [← (hkeys k).2 hcov, hsame k, (hkeys' k).2 hcov] at hk
          cases hk
        · rintro (h | hcov)
          · exact absurd h hnil
          · refine ⟨by rw [hsome hne, hsome' hne], fun k => (hkeys k).1 ?_⟩
            by_cases hk : (GoMap.find old k).isSome
            · exact Or.inl (hcov k hk)
            · exact Or.inr (Option.not_isSome_iff_eq_none.mp hk)

end Slot

/-! ## Structs -/

/-- A member of a struct with its type. -/
structure Member (σ : Type) where
  {type : Type}
  name : String
  slot : Slot type
  get : σ → type
  set : σ → type → σ
  get_set : ∀ s v, get (set s v) = v

/-- The row of a member in the table of its struct. -/
def Member.field (p : Member σ) : StructField σ := .of p.name p.slot.decode p.get p.set

/-- Two members do not overlap. -/
def Member.Apart (p q : Member σ) : Prop :=
  (∀ s v, p.get (q.set s v) = p.get s) ∧ ∀ s v, q.get (p.set s v) = q.get s

/-- A struct as its members; the hidden ones are not part of the JSON schema. -/
structure Record (σ : Type) where
  zero : σ
  shown : List (Member σ)
  hidden : List (Member σ)
  get_zero : ∀ p ∈ shown ++ hidden, p.get zero = p.slot.zero
  nodup : ((shown ++ hidden).map Member.name).Nodup
  apart : (shown ++ hidden).Pairwise Member.Apart

namespace Record

variable (R : Record σ)

/-- The table of the members. -/
def table : List (StructField σ) := R.shown.map Member.field

/-- Decoding into the struct. -/
def decode : Decoder σ := .struct R.table

/-- The member a key selects. -/
def selected (key : String) : Option (Member σ) :=
  (R.shown.find? fun p => p.name == key).or
    (R.shown.find? fun p => foldName p.name == foldName key)

/-- The values the entries give to the member of a name, in their order. -/
def givenBy (es : List (String × Any)) (name : String) : List Any :=
  es.filterMap fun e => if (R.selected e.1).any fun p => p.name == name then some e.2 else none

/-- What a value gives to the member of a name: nothing but objects gives any. -/
def given (a : Any) (name : String) : List Any :=
  R.givenBy (sortedEntries (a.object?.getD [])) name

/-- Equality of structs, member by member. -/
def Same (s t : σ) : Prop := ∀ p ∈ R.shown ++ R.hidden, p.slot.same (p.get s) (p.get t)

/-- Nothing of an old struct is left: every member the value gives is overwritten, and every other
one is zero. -/
def Clean (a : Any) (old : σ) : Prop :=
  (∀ p ∈ R.shown, p.slot.clean (R.given a p.name) (p.get old)) ∧
    ∀ p ∈ R.hidden, p.slot.clean [] (p.get old)

theorem lookupField_table (key : String) :
    lookupField R.table key = (R.selected key).map Member.field := by
  unfold lookupField table selected
  rw [List.find?_map, List.find?_map]
  cases h : R.shown.find? fun p => p.name == key with
  | some p =>
    have h' : R.shown.find? ((fun f : StructField σ => f.name == key) ∘ Member.field) = some p := h
    rw [h']
    rfl
  | none =>
    have h' : R.shown.find? ((fun f : StructField σ => f.name == key) ∘ Member.field) = none := h
    rw [h']
    rfl

theorem mem_shown_of_selected {key : String} {p : Member σ} (h : R.selected key = some p) :
    p ∈ R.shown := by
  unfold selected at h
  rcases Option.or_eq_some_iff.mp h with h | ⟨-, h⟩ <;> exact List.mem_of_find?_eq_some h

theorem mem_all_of_mem_shown {p : Member σ} (hp : p ∈ R.shown) : p ∈ R.shown ++ R.hidden :=
  List.mem_append_left _ hp

/-- Members with the same name are the same. -/
theorem eq_of_name {p q : Member σ} (hp : p ∈ R.shown) (hq : q ∈ R.shown) (h : p.name = q.name) :
    p = q :=
  List.inj_on_of_nodup_map R.nodup (R.mem_all_of_mem_shown hp) (R.mem_all_of_mem_shown hq) h

/-- Writing a member leaves every other one alone. -/
theorem get_set_of_ne {p q : Member σ} (hp : p ∈ R.shown ++ R.hidden)
    (hq : q ∈ R.shown ++ R.hidden) (hne : p ≠ q) (s : σ) (v : q.type) :
    p.get (q.set s v) = p.get s := by
  have hsymm : Std.Symm (Member.Apart : Member σ → Member σ → Prop) := ⟨fun _ _ h => ⟨h.2, h.1⟩⟩
  exact (R.apart.forall hp hq hne).1 s v

/-- **Members.** A member after decoding is its old value with all that the object gives it decoded
into it.

**Proof sketch.** Induction on the entries. An entry selects the member itself, and is the next
value it is given, or another one, which does not overlap, or none. -/
theorem get_structFields {p : Member σ} (hp : p ∈ R.shown) (es : List (String × Any)) (s : σ) :
    p.get (Decoder.structFields R.table es s).1 =
      p.slot.decode.run (R.givenBy es p.name) (p.get s) := by
  induction es generalizing s with
  | nil => rfl
  | cons e es ih =>
    obtain ⟨k, a⟩ := e
    simp only [Decoder.structFields, lookupField_table]
    cases hsel : R.selected k with
    | none =>
      have hskip : R.givenBy ((k, a) :: es) p.name = R.givenBy es p.name := by
        simp [givenBy, hsel]
      rw [hskip]
      exact ih s
    | some q =>
      have hq := R.mem_shown_of_selected hsel
      by_cases hpq : q = p
      · subst hpq
        have htake : R.givenBy ((k, a) :: es) q.name = a :: R.givenBy es q.name := by
          simp [givenBy, hsel]
        rw [htake, Decoder.run_cons]
        refine (ih _).trans ?_
        show q.slot.decode.run _ (q.get (q.set s _)) = _
        rw [q.get_set]
      · have hskip : R.givenBy ((k, a) :: es) p.name = R.givenBy es p.name := by
          have hname : q.name ≠ p.name := fun h => hpq (R.eq_of_name hq hp h)
          simp [givenBy, hsel, hname]
        rw [hskip]
        refine (ih _).trans ?_
        show p.slot.decode.run _ (p.get (q.set s _)) = _
        rw [R.get_set_of_ne (R.mem_all_of_mem_shown hp) (R.mem_all_of_mem_shown hq)
          (Ne.symm hpq)]

/-- A hidden member is not decoded. -/
theorem get_structFields_hidden {p : Member σ} (hp : p ∈ R.hidden) (es : List (String × Any))
    (s : σ) : p.get (Decoder.structFields R.table es s).1 = p.get s := by
  have hnot : p ∉ R.shown := fun hmem =>
    List.disjoint_of_nodup_append R.nodup.of_map hmem hp
  induction es generalizing s with
  | nil => rfl
  | cons e es ih =>
    obtain ⟨k, a⟩ := e
    simp only [Decoder.structFields, lookupField_table]
    cases hsel : R.selected k with
    | none => exact ih s
    | some q =>
      have hq := R.mem_shown_of_selected hsel
      have hne : p ≠ q := by
        rintro rfl
        exact hnot hq
      refine (ih _).trans ?_
      exact R.get_set_of_ne (List.mem_append_right _ hp) (R.mem_all_of_mem_shown hq) hne _ _

/-- Every value a member is given fits, when the entries do. -/
theorem fits_of_structFields {p : Member σ} (hp : p ∈ R.shown) {es : List (String × Any)} {s : σ}
    (h : (Decoder.structFields R.table es s).2 = true) :
    ∀ a ∈ R.givenBy es p.name, (p.slot.decode a p.slot.zero).2 = true := by
  induction es generalizing s with
  | nil => simp [givenBy]
  | cons e es ih =>
    obtain ⟨k, a⟩ := e
    simp only [Decoder.structFields, lookupField_table] at h
    cases hsel : R.selected k with
    | none =>
      have hskip : R.givenBy ((k, a) :: es) p.name = R.givenBy es p.name := by
        simp [givenBy, hsel]
      rw [hsel] at h
      rw [hskip]
      exact ih h
    | some q =>
      rw [hsel] at h
      obtain ⟨hfit, hrest⟩ := Bool.and_eq_true_iff.mp h
      by_cases hname : q.name = p.name
      · obtain rfl := R.eq_of_name (R.mem_shown_of_selected hsel) hp hname
        have htake : R.givenBy ((k, a) :: es) q.name = a :: R.givenBy es q.name := by
          simp [givenBy, hsel]
        rw [htake]
        refine List.forall_mem_cons.mpr ⟨?_, ih hrest⟩
        exact (q.slot.oblivious a _ _).trans hfit
      · have hskip : R.givenBy ((k, a) :: es) p.name = R.givenBy es p.name := by
          simp [givenBy, hsel, hname]
        rw [hskip]
        exact ih hrest

/-- Decoding an object is decoding its entries, and null leaves the struct alone. -/
theorem decode_eq {a : Any} {s : σ} (h : (R.decode a s).2 = true) :
    (R.decode a s).1 = (Decoder.structFields R.table (sortedEntries (a.object?.getD [])) s).1 ∧
      (Decoder.structFields R.table (sortedEntries (a.object?.getD [])) s).2 = true := by
  cases a with
  | nil => exact ⟨rfl, rfl⟩
  | object es => exact ⟨rfl, h⟩
  | _ => cases h

theorem oblivious : R.decode.Oblivious := by
  refine Decoder.oblivious_struct fun f hf => ?_
  obtain ⟨p, -, rfl⟩ := List.mem_map.mp hf
  exact StructField.oblivious_of p.slot.oblivious

/-- **Structs.** A value decoded into an old struct gives what it gives decoded into a zero one
exactly if nothing of the old one is left. -/
theorem same_iff {a : Any} (hfit : (R.decode a R.zero).2 = true) (old : σ) :
    R.Same (R.decode a old).1 (R.decode a R.zero).1 ↔ R.Clean a old := by
  obtain ⟨hold, hok⟩ := R.decode_eq ((R.oblivious a old R.zero).trans hfit)
  rw [hold, (R.decode_eq hfit).1]
  have hpart : ∀ p ∈ R.shown, (p.slot.same
      (p.get (Decoder.structFields R.table (sortedEntries (a.object?.getD [])) old).1)
      (p.get (Decoder.structFields R.table (sortedEntries (a.object?.getD [])) R.zero).1) ↔
      p.slot.clean (R.given a p.name) (p.get old)) := by
    intro p hp
    rw [R.get_structFields hp, R.get_structFields hp, R.get_zero p (R.mem_all_of_mem_shown hp)]
    exact p.slot.same_iff _ (R.fits_of_structFields hp hok) _
  have hhidden : ∀ p ∈ R.hidden, (p.slot.same
      (p.get (Decoder.structFields R.table (sortedEntries (a.object?.getD [])) old).1)
      (p.get (Decoder.structFields R.table (sortedEntries (a.object?.getD [])) R.zero).1) ↔
      p.slot.clean [] (p.get old)) := by
    intro p hp
    rw [R.get_structFields_hidden hp, R.get_structFields_hidden hp,
      R.get_zero p (List.mem_append_right _ hp)]
    exact p.slot.same_iff [] (by simp) _
  constructor
  · intro h
    exact ⟨fun p hp => (hpart p hp).mp (h p (List.mem_append_left _ hp)),
      fun p hp => (hhidden p hp).mp (h p (List.mem_append_right _ hp))⟩
  · rintro ⟨h₁, h₂⟩ p hp
    rcases List.mem_append.mp hp with hp | hp
    · exact (hpart p hp).mpr (h₁ p hp)
    · exact (hhidden p hp).mpr (h₂ p hp)

end Record

/-! ## Arrays -/

/-- The elements of an array. -/
structure Element (σ : Type) where
  zero : σ
  decode : Decoder σ
  same : σ → σ → Prop
  clean : Any → σ → Prop
  oblivious : decode.Oblivious
  refl : ∀ v, same v v
  same_iff : ∀ a, (decode a zero).2 = true →
    ∀ old, same (decode a old).1 (decode a zero).1 ↔ clean a old

/-- Structs as elements. -/
def Record.element (R : Record σ) : Element σ where
  zero := R.zero
  decode := R.decode
  same := R.Same
  clean := R.Clean
  oblivious := R.oblivious
  refl _ p _ := p.slot.refl _
  same_iff _ hfit := R.same_iff hfit

/-- Values of a member type as elements. -/
def Slot.element (S : Slot τ) : Element τ where
  zero := S.zero
  decode := S.decode
  same := S.same
  clean a := S.clean [a]
  oblivious := S.oblivious
  refl := S.refl
  same_iff a hfit := S.same_iff [a] (by simpa using hfit)

namespace Element

variable (E : Element σ)

/-- Equality of slices: what is behind the length is not part of the value. -/
def SameSlice (s t : GoSlice σ) : Prop := s.isNil = t.isNil ∧ List.Forall₂ E.same s.elems t.elems

/-- Nothing of an old array is left: each element with an old one at its place, be it visible or
behind the length, overwrites it. -/
def CleanSlice (as : List Any) (old : GoSlice σ) : Prop :=
  ∀ e ∈ as.zip (old.elems ++ old.spare), E.clean e.1 e.2

/-- Elements without old ones at their places are decoded afresh. -/
theorem sliceElems_same_iff {as : List Any}
    (hfit : (Decoder.sliceElems E.zero E.decode as []).2 = true) (old : List σ) :
    List.Forall₂ E.same (Decoder.sliceElems E.zero E.decode as old).1
        (Decoder.sliceElems E.zero E.decode as []).1 ↔
      ∀ e ∈ as.zip old, E.clean e.1 e.2 := by
  induction as generalizing old with
  | nil => simp [Decoder.sliceElems]
  | cons a as ih =>
    obtain ⟨ha, has⟩ := Bool.and_eq_true_iff.mp hfit
    simp only [Decoder.sliceElems, List.forall₂_cons, List.headD_nil, List.tail_nil]
    rw [ih has]
    cases old with
    | nil => simp [E.refl]
    | cons v old =>
      simp only [List.headD_cons, List.tail_cons, List.zip_cons_cons, List.forall_mem_cons]
      rw [E.same_iff a ha]

/-- **Arrays.** An array decoded into an old slice gives the array decoded afresh exactly if
nothing of the old elements is left. -/
theorem slice_same_iff {as : List Any}
    (hfit : (Decoder.slice E.zero E.decode (.list as) .nil).2 = true) (s : GoSlice σ) :
    E.SameSlice (Decoder.slice E.zero E.decode (.list as) s).1
        (Decoder.slice E.zero E.decode (.list as) .nil).1 ↔ E.CleanSlice as s := by
  cases as with
  | nil => simp [SameSlice, CleanSlice, Decoder.slice, GoSlice.ofList]
  | cons a as =>
    unfold SameSlice CleanSlice
    simp only [Decoder.slice, true_and]
    exact E.sliceElems_same_iff hfit _

end Element

end Go
