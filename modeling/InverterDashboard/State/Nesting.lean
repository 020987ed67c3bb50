import InverterDashboard.State.Wire

set_option relaxedAutoImplicit false
set_option autoImplicit false

/-!
# Nesting

A text that is read is nested no deeper than the decoder allows, a decoded value is nested no deeper
than its text, and so its encoding may be read again.

## Main definitions

* `Go.Any.Written` — a value is written as a tree of bounded depth.

## Main results

* `Go.depth_of_parseJson` — the depth of a text that is read.
* `Go.written_of_toAny` — a decoded value is written as deep as its text at most.
-/

namespace Go

/-! ## Depths -/

namespace Json

@[simp] theorem elemsDepth_le_iff {es : List Json} {d : ℕ} :
    elemsDepth es ≤ d ↔ ∀ e ∈ es, e.depth ≤ d := by
  induction es with
  | nil => simp [elemsDepth]
  | cons e es ih => simp [elemsDepth, ih]

@[simp] theorem fieldsDepth_le_iff {fs : List (String × Json)} {d : ℕ} :
    fieldsDepth fs ≤ d ↔ ∀ f ∈ fs, f.2.depth ≤ d := by
  induction fs with
  | nil => simp [fieldsDepth]
  | cons f fs ih =>
    obtain ⟨k, v⟩ := f
    simp [fieldsDepth, ih]

end Json

theorem depth_readWord {word : String} {j : Json} {cs : List Char} {r : Json × List Char}
    (hj : j.depth = 0) (h : readWord word j cs = some r) : r.1.depth = 0 := by
  obtain ⟨rest, -, rfl⟩ := Option.map_eq_some_iff.mp h
  exact hj

/-- What is read in front of a fuel: no value, element or member is nested too deep. -/
theorem depth_read (fuel : ℕ) :
    (∀ (depth : ℕ) (cs : List Char) (r : Json × List Char), readValue fuel depth cs = some r →
      r.1.depth ≤ depth) ∧
    (∀ (depth : ℕ) (cs : List Char) (r : List Json × List Char), readElems fuel depth cs = some r →
      Json.elemsDepth r.1 ≤ depth) ∧
    ∀ (depth : ℕ) (cs : List Char) (r : List (String × Json) × List Char),
      readFields fuel depth cs = some r → Json.fieldsDepth r.1 ≤ depth := by
  induction fuel with
  | zero =>
    refine ⟨fun depth cs r h => ?_, fun depth cs r h => ?_, fun depth cs r h => ?_⟩
    · cases h
    · cases h
    · cases h
  | succ fuel ih =>
    obtain ⟨hvalue, helems, hfields⟩ := ih
    refine ⟨fun depth cs r h => ?_, fun depth cs r h => ?_, fun depth cs r h => ?_⟩
    · rw [readValue] at h
      cases hcs : skipSpace cs with
      | nil => simp [hcs] at h
      | cons c cs =>
        simp only [hcs] at h
        by_cases harr : c = '['
        · rw [if_pos harr] at h
          split_ifs at h with hdepth
          cases hrest : skipSpace cs with
          | nil => simp [hrest] at h
          | cons c cs =>
            simp only [hrest] at h
            split_ifs at h
            · obtain rfl := Option.some.inj h
              simp only [Json.depth, Json.elemsDepth]
              omega
            · obtain ⟨e, he, h⟩ := Option.bind_eq_some_iff.mp h
              obtain ⟨es, hes, h⟩ := Option.bind_eq_some_iff.mp h
              obtain rfl := Option.some.inj h
              have h₁ := hvalue _ _ _ he
              have h₂ := helems _ _ _ hes
              simp only [Json.depth, Json.elemsDepth]
              omega
        rw [if_neg harr] at h
        by_cases hobj : c = '\x7b'
        · rw [if_pos hobj] at h
          split_ifs at h with hdepth
          cases hrest : skipSpace cs with
          | nil => simp [hrest] at h
          | cons c cs =>
            simp only [hrest] at h
            split_ifs at h
            · obtain rfl := Option.some.inj h
              simp only [Json.depth, Json.fieldsDepth]
              omega
            · obtain ⟨k, hk, h⟩ := Option.bind_eq_some_iff.mp h
              obtain ⟨v, hv, h⟩ := Option.bind_eq_some_iff.mp h
              obtain ⟨fs, hfs, h⟩ := Option.bind_eq_some_iff.mp h
              obtain rfl := Option.some.inj h
              have h₁ := hvalue _ _ _ hv
              have h₂ := hfields _ _ _ hfs
              simp only [Json.depth, Json.fieldsDepth]
              omega
        rw [if_neg hobj] at h
        -- The others are not nested.
        have hflat : r.1.depth = 0 := by
          split_ifs at h
          · obtain ⟨s, -, rfl⟩ := Option.map_eq_some_iff.mp h
            rfl
          · exact depth_readWord rfl h
          · exact depth_readWord rfl h
          · exact depth_readWord rfl h
          · obtain ⟨n, -, rfl⟩ := Option.map_eq_some_iff.mp h
            rfl
        omega
    · rw [readElems] at h
      cases hcs : skipSpace cs with
      | nil => simp [hcs] at h
      | cons c cs =>
        simp only [hcs] at h
        split_ifs at h
        · obtain rfl := Option.some.inj h
          exact Nat.zero_le depth
        · obtain ⟨e, he, h⟩ := Option.bind_eq_some_iff.mp h
          obtain ⟨es, hes, h⟩ := Option.bind_eq_some_iff.mp h
          obtain rfl := Option.some.inj h
          have h₁ := hvalue _ _ _ he
          have h₂ := helems _ _ _ hes
          simp only [Json.elemsDepth]
          omega
    · rw [readFields] at h
      cases hcs : skipSpace cs with
      | nil => simp [hcs] at h
      | cons c cs =>
        simp only [hcs] at h
        split_ifs at h
        · obtain rfl := Option.some.inj h
          exact Nat.zero_le depth
        · obtain ⟨k, hk, h⟩ := Option.bind_eq_some_iff.mp h
          obtain ⟨v, hv, h⟩ := Option.bind_eq_some_iff.mp h
          obtain ⟨fs, hfs, h⟩ := Option.bind_eq_some_iff.mp h
          obtain rfl := Option.some.inj h
          have h₁ := hvalue _ _ _ hv
          have h₂ := hfields _ _ _ hfs
          simp only [Json.fieldsDepth]
          omega

/-- A text that is read is nested no deeper than the decoder allows. -/
theorem depth_of_parseJson {data : List UInt8} {j : Json} (h : parseJson data = some j) :
    j.depth ≤ maxNestingDepth := by
  obtain ⟨r, hr, h⟩ := Option.bind_eq_some_iff.mp h
  split_ifs at h
  obtain rfl := Option.some.inj h
  exact (depth_read _).1 _ _ _ hr

/-! ## Values -/

/-- A value is written as a tree that is nested `d` deep at most. -/
def Any.Written (format : ℚ → Number) (d : ℕ) (a : Any) : Prop :=
  ∃ t, a.tree format = some t ∧ t.depth ≤ d

namespace Any

variable {format : ℚ → Number}

theorem Written.mono {d d' : ℕ} {a : Any} (h : a.Written format d) (hd : d ≤ d') :
    a.Written format d' := by
  obtain ⟨t, ht, hdepth⟩ := h
  exact ⟨t, ht, hdepth.trans hd⟩

@[simp] theorem written_nil (d : ℕ) : Any.nil.Written format d := ⟨.null, rfl, Nat.zero_le d⟩

@[simp] theorem written_bool (d : ℕ) (b : Bool) : (Any.bool b).Written format d :=
  ⟨.bool b, rfl, Nat.zero_le d⟩

@[simp] theorem written_string (d : ℕ) (s : String) : (Any.string s).Written format d :=
  ⟨.str s, rfl, Nat.zero_le d⟩

@[simp] theorem written_int (d : ℕ) (n : ℤ) : (Any.int n).Written format d :=
  ⟨.num (Number.ofInt n), rfl, Nat.zero_le d⟩

@[simp] theorem written_number (d : ℕ) (n : Number) : (Any.number n).Written format d :=
  ⟨.num n, rfl, Nat.zero_le d⟩

@[simp] theorem written_float64 (d : ℕ) (q : ℚ) : (Any.float64 (.fin q)).Written format d :=
  ⟨.num (format q), rfl, Nat.zero_le d⟩

/-- A list whose elements are written. -/
theorem written_list {d : ℕ} {es : List Any} (h : ∀ e ∈ es, e.Written format d) :
    (Any.list es).Written format (d + 1) := by
  have htrees : ∃ ts, treeList format es = some ts ∧ Json.elemsDepth ts ≤ d := by
    induction es with
    | nil => exact ⟨[], rfl, Nat.zero_le d⟩
    | cons e es ih =>
      obtain ⟨t, ht, hdepth⟩ := h e List.mem_cons_self
      obtain ⟨ts, hts, hdepths⟩ := ih fun e he => h e (List.mem_cons_of_mem _ he)
      refine ⟨t :: ts, ?_, max_le hdepth hdepths⟩
      rw [treeList, ht, hts]
      rfl
  obtain ⟨ts, hts, hdepth⟩ := htrees
  refine ⟨.arr ts, ?_, Nat.succ_le_succ hdepth⟩
  rw [tree, hts]
  rfl

/-- A map whose values are written. -/
theorem written_object {d : ℕ} {fs : List (String × Any)}
    (h : ∀ f ∈ fs, f.2.Written format d) : (Any.object fs).Written format (d + 1) := by
  have htrees : ∃ ts, treeFields format fs = some ts ∧ Json.fieldsDepth ts ≤ d := by
    induction fs with
    | nil => exact ⟨[], rfl, Nat.zero_le d⟩
    | cons f fs ih =>
      obtain ⟨k, v⟩ := f
      obtain ⟨t, ht, hdepth⟩ := h (k, v) List.mem_cons_self
      obtain ⟨ts, hts, hdepths⟩ := ih fun f hf => h f (List.mem_cons_of_mem _ hf)
      refine ⟨(k, t) :: ts, ?_, max_le hdepth hdepths⟩
      rw [treeFields, ht, hts]
      rfl
  obtain ⟨ts, hts, hdepth⟩ := htrees
  refine ⟨.obj (sortedEntries ts), ?_, Nat.succ_le_succ ?_⟩
  · rw [tree, hts]
    rfl
  · rw [Json.fieldsDepth_le_iff] at hdepth ⊢
    intro f hf
    exact hdepth f ((List.mem_insertionSort _).mp hf)

end Any

mutual

/-- **Decoded values** are written, as deep as their text at most. -/
theorem written_of_toAny {format : ℚ → Number} : ∀ {j : Json} {a : Any}, j.toAny = some a →
    a.Written format j.depth
  | .null, a, h => by
    obtain rfl := Option.some.inj h
    exact Any.written_nil _
  | .bool b, a, h => by
    obtain rfl := Option.some.inj h
    exact Any.written_bool _ b
  | .num n, a, h => by
    rw [Json.toAny] at h
    split at h
    · obtain rfl := Option.some.inj h
      exact Any.written_float64 _ _
    · cases h
  | .str s, a, h => by
    obtain rfl := Option.some.inj h
    exact Any.written_string _ s
  | .arr es, a, h => by
    rw [Json.toAny] at h
    obtain ⟨as, has, rfl⟩ := Option.map_eq_some_iff.mp h
    exact Any.written_list (written_of_toAnyList has)
  | .obj fs, a, h => by
    rw [Json.toAny] at h
    obtain ⟨as, has, rfl⟩ := Option.map_eq_some_iff.mp h
    exact Any.written_object fun f hf => written_of_toAnyFields has f (mem_of_mem_lastWins hf)

theorem written_of_toAnyList {format : ℚ → Number} : ∀ {es : List Json} {as : List Any},
    Json.toAnyList es = some as → ∀ a ∈ as, a.Written format (Json.elemsDepth es)
  | [], as, h => by
    obtain rfl := Option.some.inj h
    exact fun a ha => absurd ha List.not_mem_nil
  | e :: es, as, h => by
    rw [Json.toAnyList] at h
    obtain ⟨v, hv, h⟩ := Option.bind_eq_some_iff.mp h
    obtain ⟨vs, hvs, h⟩ := Option.bind_eq_some_iff.mp h
    obtain rfl := Option.some.inj h
    have hhead := (@written_of_toAny format _ _ hv).mono (le_max_left _ (Json.elemsDepth es))
    have htail := @written_of_toAnyList format _ _ hvs
    rw [List.forall_mem_cons]
    exact ⟨hhead, fun a ha => (htail a ha).mono (le_max_right _ _)⟩

theorem written_of_toAnyFields {format : ℚ → Number} :
    ∀ {fs : List (String × Json)} {as : List (String × Any)},
    Json.toAnyFields fs = some as → ∀ a ∈ as, a.2.Written format (Json.fieldsDepth fs)
  | [], as, h => by
    obtain rfl := Option.some.inj h
    exact fun a ha => absurd ha List.not_mem_nil
  | (k, e) :: fs, as, h => by
    rw [Json.toAnyFields] at h
    obtain ⟨v, hv, h⟩ := Option.bind_eq_some_iff.mp h
    obtain ⟨vs, hvs, h⟩ := Option.bind_eq_some_iff.mp h
    obtain rfl := Option.some.inj h
    have hhead := (@written_of_toAny format _ _ hv).mono (le_max_left _ (Json.fieldsDepth fs))
    have htail := @written_of_toAnyFields format _ _ hvs
    rw [List.forall_mem_cons]
    exact ⟨hhead, fun a ha => (htail a ha).mono (le_max_right _ _)⟩

end

end Go
