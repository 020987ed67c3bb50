import Mathlib.Data.List.TakeWhile
import InverterDashboard.Gateway.Slots
import InverterDashboard.Mqtt.Controller
import InverterDashboard.Lib.MapFill

set_option relaxedAutoImplicit false
set_option autoImplicit false

/-!
# Keys that stand for the same thing

`controllerBooleans` and `parsePlatformSlots` range over a map and normalise its keys: a control
flag may be written with or without `input_boolean.`, and the numbers of a notification leaf with
leading zeros. Two keys of the map may then write the same place, and the later one wins.

## Main definitions

* `Dashboard.FlagsAgree` — the spellings of a control flag carry one value.
* `Dashboard.Gateway.FieldValue`, `Dashboard.Gateway.readValue` — what a leaf writes into its slot.
* `Dashboard.Gateway.assemble` — a slot from the values of its fields.
* `Dashboard.Gateway.LeavesAgree` — the leaves of a field write one value.

## Main results

* `Dashboard.lookup_controllerBooleans_perm_iff` — the flags.
* `Dashboard.Gateway.lookup_readLeaves` — the slots of a map are assembled from the last values.
* `Dashboard.Gateway.orderFree_iff` — when both decode in one way.
-/

namespace Dashboard

open Go

/-! ## The spellings of a flag -/

/-- The name `controllerBooleans` looks for: a key without the prefix of its alias. -/
def canonicalFlag (key : String) : String := trimPrefix key "input_boolean."

/-- White space behind a text with a solid front is cut off behind it. -/
theorem trimSpace_append {a b : List Char} {x y : Char} {a' : List Char} (hfront : a = x :: a')
    (hx : isSpace x = false) (hback : a.getLast? = some y) (hy : isSpace y = false) :
    trimSpace (String.ofList (a ++ b)) =
      String.ofList (a ++ (b.reverse.dropWhile isSpace).reverse) := by
  have hleft : (a ++ b).dropWhile isSpace = a ++ b := by
    rw [hfront, List.cons_append, List.dropWhile_cons_of_neg (by rw [hx]; exact Bool.false_ne_true)]
  have hrev : a.reverse.dropWhile isSpace = a.reverse := by
    have hhead : a.reverse.head? = some y := by rw [List.head?_reverse, hback]
    obtain ⟨tl, htl⟩ := List.head?_eq_some_iff.mp hhead
    rw [htl, List.dropWhile_cons_of_neg (by rw [hy]; exact Bool.false_ne_true)]
  unfold trimSpace
  rw [String.toList_ofList, hleft, List.reverse_append, List.dropWhile_append, hrev]
  split_ifs with hnil
  · rw [List.isEmpty_iff.mp hnil, List.reverse_nil, List.append_nil, List.reverse_reverse]
  · rw [List.reverse_append, List.reverse_reverse]

/-- A prefix that is there is cut off. -/
theorem trimPrefix_append (p : String) (rest : List Char) :
    trimPrefix (String.ofList (p.toList ++ rest)) p = String.ofList rest := by
  have hpre : hasPrefix (String.ofList (p.toList ++ rest)) p = true := by
    rw [hasPrefix, String.toList_ofList]
    exact List.isPrefixOf_iff_prefix.mpr (List.prefix_append _ _)
  rw [trimPrefix, if_pos hpre, String.toList_ofList, List.drop_left]

/-- A control flag is a word without the prefix. -/
theorem controlFlags_plain : ∀ f ∈ controlFlags, trimPrefix f "input_boolean." = f ∧
    trimSpace f = f ∧ f.toList.head?.any (fun c => !isSpace c) = true ∧
    f.toList.getLast?.any (fun c => !isSpace c) = true := by
  decide

/-- A name that is a flag behind its own prefix is one without it. -/
theorem isControlFlag_canonicalFlag {key : String} (h : isControlFlag key = true) :
    isControlFlag (canonicalFlag key) = true := by
  unfold canonicalFlag
  by_cases hpre : hasPrefix key "input_boolean." = true
  swap
  · rw [trimPrefix, if_neg hpre]
    exact h
  obtain ⟨rest, hrest⟩ := List.isPrefixOf_iff_prefix.mp hpre
  have hkey : key = String.ofList ("input_boolean.".toList ++ rest) := by
    rw [hrest, String.ofList_toList]
  have htrim : trimSpace key =
      String.ofList ("input_boolean.".toList ++ (rest.reverse.dropWhile isSpace).reverse) := by
    rw [hkey]
    exact trimSpace_append (x := 'i') (y := '.') rfl (by decide) (by decide) (by decide)
  unfold isControlFlag at h ⊢
  rw [htrim, trimPrefix_append] at h
  rw [hkey, trimPrefix_append]
  have hmem := List.contains_iff_mem.mp h
  generalize hwordlist : (rest.reverse.dropWhile isSpace).reverse = word at h hmem
  obtain ⟨hplain, -, hfront, hback⟩ := controlFlags_plain _ hmem
  rw [String.toList_ofList] at hfront hback
  obtain ⟨x, hx, hxs⟩ := (Option.any_eq_true _ _).mp hfront
  obtain ⟨y, hy, hys⟩ := (Option.any_eq_true _ _).mp hback
  obtain ⟨tl, htl⟩ := List.head?_eq_some_iff.mp hx
  -- the rest is the word with white space behind it
  have hsplit : rest = word ++ (rest.reverse.takeWhile isSpace).reverse := by
    rw [← hwordlist, ← List.reverse_append, List.takeWhile_append_dropWhile, List.reverse_reverse]
  have hspace : ((rest.reverse.takeWhile isSpace).reverse.reverse.dropWhile isSpace) = [] := by
    rw [List.reverse_reverse, List.dropWhile_eq_nil_iff]
    exact fun c hc => List.mem_takeWhile_imp hc
  have hcut : trimSpace (String.ofList rest) = String.ofList word := by
    rw [hsplit, trimSpace_append htl (by simpa using hxs) hy (by simpa using hys), hspace,
      List.reverse_nil, List.append_nil]
  rw [hcut, hplain]
  exact h

/-- The key a flag entry writes. -/
def flagKey (e : String × Any) : String :=
  if isControlFlag (canonicalFlag e.1) then canonicalFlag e.1 else e.1

/-- The value a flag entry writes. -/
def flagValue (e : String × Any) : Option Any :=
  if isControlFlag (canonicalFlag e.1) then (controlBool e.2).map Any.bool else some e.2

/-- `controllerBooleans` is a fill. -/
theorem controllerBooleans_eq_fill (l : List (String × Any)) :
    controllerBooleans (.object l) = MapFill.fill flagKey flagValue l ∅ := by
  unfold controllerBooleans MapFill.fill
  show l.foldl _ ∅ = l.foldl _ ∅
  refine congrArg (fun step => l.foldl step ∅) (funext fun flags => funext fun e => ?_)
  unfold flagKey flagValue canonicalFlag
  by_cases hflag : isControlFlag (trimPrefix e.1 "input_boolean.") = true
  · simp only [if_pos hflag]
    cases controlBool e.2 <;> rfl
  · simp only [if_neg hflag]
    rfl

/-- The entries of a map as a list. -/
def pairs {α : Type} (m : StrMap α) : List (String × α) := m.entries.map fun e => (e.1, e.2)

theorem mem_pairs {α : Type} {m : StrMap α} {key : String} {v : α} :
    (key, v) ∈ pairs m ↔ m.lookup key = some v := by
  have hlook : m.lookup key = some v ↔ Sigma.mk key v ∈ m.entries := AList.mem_lookup_iff
  rw [hlook, pairs, List.mem_map]
  constructor
  · rintro ⟨⟨k, w⟩, hmem, heq⟩
    obtain ⟨rfl, rfl⟩ := Prod.mk.inj heq
    exact hmem
  · exact fun hmem => ⟨⟨key, v⟩, hmem, rfl⟩

/-- Two keys of the map that spell one control flag carry the same boolean, if both carry one. -/
def FlagsAgree (values : StrMap Any) : Prop :=
  ∀ key v, values.lookup key = some v → ∀ key' v', values.lookup key' = some v' →
    canonicalFlag key = canonicalFlag key' → isControlFlag (canonicalFlag key) = true →
    ∀ b ∈ controlBool v, ∀ b' ∈ controlBool v', b = b'

/-- Entries that share a key spell one control flag. -/
theorem agree_flags_iff (values : StrMap Any) :
    MapFill.Agree flagKey flagValue (pairs values) ↔ FlagsAgree values := by
  constructor
  · intro h key v hv key' v' hv' hsame hflag b hb b' hb'
    have hflag' : isControlFlag (canonicalFlag key') = true := hsame ▸ hflag
    have heq := h (key, v) (mem_pairs.mpr hv) (key', v') (mem_pairs.mpr hv')
      (by rw [flagKey, flagKey, if_pos hflag, if_pos hflag', hsame]) (.bool b)
      (by rw [flagValue, if_pos hflag, hb]; rfl) (.bool b')
      (by rw [flagValue, if_pos hflag', hb']; rfl)
    exact Any.bool.inj heq
  · rintro h ⟨key, v⟩ hv ⟨key', v'⟩ hv' hkey w hw w' hw'
    have hv := mem_pairs.mp hv
    have hv' := mem_pairs.mp hv'
    unfold flagKey at hkey
    unfold flagValue at hw hw'
    dsimp only at hkey hw hw'
    by_cases hflag : isControlFlag (canonicalFlag key) = true
    · rw [if_pos hflag] at hkey hw
      by_cases hflag' : isControlFlag (canonicalFlag key') = true
      · rw [if_pos hflag'] at hkey hw'
        obtain ⟨b, hb, rfl⟩ := Option.map_eq_some_iff.mp hw
        obtain ⟨b', hb', rfl⟩ := Option.map_eq_some_iff.mp hw'
        exact congrArg Any.bool (h key v hv key' v' hv' hkey hflag b hb b' hb')
      · rw [if_neg hflag'] at hkey
        exact absurd (hkey ▸ isControlFlag_canonicalFlag hflag) hflag'
    · rw [if_neg hflag] at hkey hw
      by_cases hflag' : isControlFlag (canonicalFlag key') = true
      · rw [if_pos hflag'] at hkey
        exact absurd (hkey ▸ isControlFlag_canonicalFlag hflag') hflag
      · rw [if_neg hflag'] at hkey hw'
        subst hkey
        exact Option.some.inj (hw.symm.trans ((hv.symm.trans hv').trans hw'))

/-- **Flags.** `controllerBooleans` gives the same map for every order of the entries if the
spellings of a control flag agree, and only then. -/
theorem lookup_controllerBooleans_perm_iff (values : StrMap Any) :
    (∀ l, l.Perm (pairs values) → ∀ key, (controllerBooleans (.object l)).lookup key =
      (controllerBooleans (.object (pairs values))).lookup key) ↔ FlagsAgree values := by
  rw [← agree_flags_iff, ← MapFill.lookup_fill_perm_iff (pairs values) ∅]
  simp only [controllerBooleans_eq_fill]

/-! ## The leaves of a slot -/

namespace Gateway

/-- What a leaf writes: a trimmed text or a time, a level with whether it was a text, or a flag. -/
inductive FieldValue where
  | text (s : String)
  | level (n : ℕ) (spelled : Bool)
  | flag (b : Bool)
  deriving DecidableEq

namespace FieldValue

def asText : FieldValue → String
  | text s => s
  | _ => ""

def asLevel : FieldValue → ℕ
  | level n _ => n
  | _ => 0

def asNumber : FieldValue → Bool
  | level _ spelled => !spelled
  | _ => false

def asFlag : FieldValue → Bool
  | flag b => b
  | _ => false

end FieldValue

/-- What a leaf writes into its slot; `none` when it writes nothing. -/
def readValue (r : NativeScalars) (field : PlatformField) (raw : Any) : Option FieldValue :=
  match field with
  | .description | .deviceName | .service => raw.string?.map fun s => .text (trimSpace s)
  | .dateTime => some (.text (r.time raw))
  | .type => (r.level raw).map fun n => .level n raw.string?.isSome
  | .acknowledged | .active => (r.flag raw).map .flag
  | .silenced => none

/-- The slot with these values in its fields. -/
def assemble (k : ℕ × ℕ) (g : PlatformField → Option FieldValue) : PlatformSlot :=
  { inst := k.1
    slot := k.2
    description := (g .description).elim "" FieldValue.asText
    deviceName := (g .deviceName).elim "" FieldValue.asText
    service := (g .service).elim "" FieldValue.asText
    dateTime := (g .dateTime).elim "" FieldValue.asText
    notifType := ((g .type).elim 0 FieldValue.asLevel : ℕ)
    hasType := (g .type).isSome
    pushTypeKnown := (g .type).elim false FieldValue.asNumber
    active := (g .active).map FieldValue.asFlag
    acknowledged := (g .acknowledged).elim false FieldValue.asFlag }

/-- The value of a field in a slot. -/
def fieldOf (ps : PlatformSlot) : PlatformField → FieldValue
  | .description => .text ps.description
  | .deviceName => .text ps.deviceName
  | .service => .text ps.service
  | .dateTime => .text ps.dateTime
  | .type => .level ps.notifType.toNat !ps.pushTypeKnown
  | .acknowledged => .flag ps.acknowledged
  | .active => .flag (ps.active.getD false)
  | .silenced => .flag false

/-- Reading a leaf replaces the value of its field. -/
theorem readField_assemble (r : NativeScalars) (k : ℕ × ℕ) (g : PlatformField → Option FieldValue)
    (field : PlatformField) (raw : Any) :
    readField r (assemble k g) field raw =
      assemble k (Function.update g field ((readValue r field raw).or (g field))) := by
  cases field with
  | description =>
    cases h : raw.string? <;> simp [readField, readValue, assemble, h, FieldValue.asText]
  | deviceName =>
    cases h : raw.string? <;> simp [readField, readValue, assemble, h, FieldValue.asText]
  | service => cases h : raw.string? <;> simp [readField, readValue, assemble, h, FieldValue.asText]
  | dateTime => simp [readField, readValue, assemble, FieldValue.asText]
  | type =>
    cases h : r.level raw <;>
      simp [readField, readValue, assemble, h, FieldValue.asLevel, FieldValue.asNumber]
  | acknowledged =>
    cases h : r.flag raw <;> simp [readField, readValue, assemble, h, FieldValue.asFlag]
  | active => cases h : r.flag raw <;> simp [readField, readValue, assemble, h, FieldValue.asFlag]
  | silenced => simp [readField, readValue]

/-- A value that a leaf writes can be read off the slot. -/
theorem fieldOf_assemble {r : NativeScalars} {field : PlatformField} {raw : Any} {w : FieldValue}
    (hw : readValue r field raw = some w) {k : ℕ × ℕ} {g : PlatformField → Option FieldValue}
    (hg : g field = some w) : fieldOf (assemble k g) field = w := by
  cases field with
  | description | deviceName | service =>
    obtain ⟨s, -, rfl⟩ := Option.map_eq_some_iff.mp hw
    simp [fieldOf, assemble, hg, FieldValue.asText]
  | dateTime =>
    obtain rfl := Option.some.inj hw
    simp [fieldOf, assemble, hg, FieldValue.asText]
  | type =>
    obtain ⟨n, -, rfl⟩ := Option.map_eq_some_iff.mp hw
    simp [fieldOf, assemble, hg, FieldValue.asLevel, FieldValue.asNumber]
  | acknowledged | active =>
    obtain ⟨b, -, rfl⟩ := Option.map_eq_some_iff.mp hw
    simp [fieldOf, assemble, hg, FieldValue.asFlag]
  | silenced => cases hw

/-- The slot a leaf belongs to. -/
def slotOf (u : PlatformUpdate) : ℕ × ℕ := (u.inst, u.slot)

/-- What the leaf writes at its place. -/
def written (r : NativeScalars) (u : PlatformUpdate) : Option FieldValue :=
  readValue r u.field u.value

/-- The last value written at each place. -/
def places (r : NativeScalars) (us : List PlatformUpdate) :
    AList fun _ : (ℕ × ℕ) × PlatformField => FieldValue :=
  MapFill.fill PlatformUpdate.place (written r) us ∅

/-- One more leaf. -/
theorem lookup_places_concat (r : NativeScalars) (us : List PlatformUpdate) (u : PlatformUpdate)
    (p : (ℕ × ℕ) × PlatformField) : (places r (us ++ [u])).lookup p =
      if p = u.place then (written r u).or ((places r us).lookup p)
        else (places r us).lookup p := by
  have happ : places r (us ++ [u]) =
      (written r u).elim (places r us) fun v => (places r us).insert u.place v := by
    unfold places MapFill.fill
    rw [List.foldl_append]
    rfl
  rw [happ]
  cases written r u with
  | none => simp
  | some w =>
    split_ifs with hp
    · subst hp
      exact AList.lookup_insert _
    · exact AList.lookup_insert_ne hp

/-- No value is at a place of another slot. -/
theorem lookup_places_of_notMem (r : NativeScalars) {us : List PlatformUpdate} {k : ℕ × ℕ}
    (hk : k ∉ us.map slotOf) (f : PlatformField) : (places r us).lookup (k, f) = none := by
  have hsilent : ∀ u ∈ us, u.place = (k, f) → written r u = none := fun u hu heq =>
    absurd (List.mem_map.mpr ⟨u, hu, congrArg Prod.fst heq⟩) hk
  exact (MapFill.lookup_fill_of_silent hsilent ∅).trans (AList.lookup_empty _)

/-- **The slots of a map**: one for each slot that a leaf belongs to, with the last value written at
each place.

**Proof sketch.** By induction from the last leaf: it makes its slot if there is none, with no value
at any place, and replaces the value of its field. -/
theorem lookup_readLeaves (r : NativeScalars) (us : List PlatformUpdate) (k : ℕ × ℕ) :
    (us.foldl (readLeaf r) ∅).lookup k =
      if k ∈ us.map slotOf then some (assemble k fun f => (places r us).lookup (k, f))
        else none := by
  induction us using List.reverseRecOn generalizing k with
  | nil => simp
  | append_singleton us u ih =>
    rw [List.foldl_append, List.foldl_cons, List.foldl_nil]
    have hold : ((us.foldl (readLeaf r) ∅).lookup (slotOf u)).getD
        { inst := u.inst, slot := u.slot } =
        assemble (slotOf u) fun f => (places r us).lookup (slotOf u, f) := by
      rw [ih]
      split_ifs with hmem
      · rfl
      · simp only [lookup_places_of_notMem r hmem]
        rfl
    change ((us.foldl (readLeaf r) ∅).insert (slotOf u) (readField r
      (((us.foldl (readLeaf r) ∅).lookup (slotOf u)).getD { inst := u.inst, slot := u.slot })
      u.field
        u.value)).lookup k = _
    rw [hold, readField_assemble]
    by_cases hk : k = slotOf u
    · subst hk
      have hmem : slotOf u ∈ (us ++ [u]).map slotOf :=
        List.mem_map_of_mem (List.mem_append_right _ List.mem_cons_self)
      rw [AList.lookup_insert, if_pos hmem]
      refine congrArg some (congrArg (assemble (slotOf u)) (funext fun f => ?_))
      rw [lookup_places_concat]
      by_cases hf : f = u.field
      · subst hf
        have hp : (slotOf u, u.field) = u.place := rfl
        rw [Function.update_self, if_pos hp]
        rfl
      · rw [Function.update_of_ne hf, if_neg fun heq => hf (congrArg Prod.snd heq)]
    · have hmem : k ∈ (us ++ [u]).map slotOf ↔ k ∈ us.map slotOf := by
        simp [hk]
      rw [AList.lookup_insert_ne hk, ih]
      simp only [hmem, lookup_places_concat]
      refine if_congr Iff.rfl (congrArg some (congrArg (assemble k) (funext fun f => ?_))) rfl
      rw [if_neg fun heq => hk (congrArg Prod.fst heq)]

/-! ## The list of slots -/

/-- A slot is stored under its own numbers. -/
theorem slot_of_lookup {r : NativeScalars} {us : List PlatformUpdate} {k : ℕ × ℕ}
    {ps : PlatformSlot}
    (h : (us.foldl (readLeaf r) ∅).lookup k = some ps) : (ps.inst, ps.slot) = k := by
  rw [lookup_readLeaves] at h
  split_ifs at h
  exact Option.some.inj h ▸ rfl

/-- A slot is in the sorted list if it is stored. -/
theorem mem_slots_iff {r : NativeScalars} {us : List PlatformUpdate} {ps : PlatformSlot} :
    ps ∈ ((us.foldl (readLeaf r) ∅).entries.map fun e => e.2).insertionSort slotLe ↔
      (us.foldl (readLeaf r) ∅).lookup (ps.inst, ps.slot) = some ps := by
  rw [List.mem_insertionSort, List.mem_map]
  constructor
  · rintro ⟨⟨k, ps'⟩, hmem, rfl⟩
    have hlook : (us.foldl (readLeaf r) ∅).lookup k = some ps' := AList.mem_lookup_iff.mpr hmem
    rw [slot_of_lookup hlook]
    exact hlook
  · exact fun h => ⟨⟨_, ps⟩, AList.mem_lookup_iff.mp h, rfl⟩

/-- **The sorted list** of the slots is the same for two maps if they store the same slots, and only
then. -/
theorem slots_eq_iff (r : NativeScalars) (us us' : List PlatformUpdate) :
    ((us.foldl (readLeaf r) ∅).entries.map fun e => e.2).insertionSort slotLe =
        ((us'.foldl (readLeaf r) ∅).entries.map fun e => e.2).insertionSort slotLe ↔
      ∀ k, (us.foldl (readLeaf r) ∅).lookup k = (us'.foldl (readLeaf r) ∅).lookup k := by
  constructor
  · intro h k
    have hone : ∀ {us us' : List PlatformUpdate} {ps : PlatformSlot},
        ((us.foldl (readLeaf r) ∅).entries.map fun e => e.2).insertionSort slotLe =
          ((us'.foldl (readLeaf r) ∅).entries.map fun e => e.2).insertionSort slotLe →
        (us.foldl (readLeaf r) ∅).lookup k = some ps →
        (us'.foldl (readLeaf r) ∅).lookup k = some ps := by
      intro us us' ps heq hps
      have hk := slot_of_lookup hps
      rw [← hk] at hps ⊢
      exact mem_slots_iff.mp (heq ▸ mem_slots_iff.mpr hps)
    apply Option.ext
    intro ps
    exact ⟨hone h, hone h.symm⟩
  · intro h
    have hperm : (us.foldl (readLeaf r) ∅).entries.Perm (us'.foldl (readLeaf r) ∅).entries :=
      List.lookup_ext (us.foldl (readLeaf r) ∅).nodupKeys (us'.foldl (readLeaf r) ∅).nodupKeys
        fun k ps => by
          have hk := h k
          unfold AList.lookup at hk
          rw [hk]
    have : Std.Total slotLe := ⟨fun a b => by unfold slotLe; omega⟩
    have : IsTrans PlatformSlot slotLe := ⟨fun a b c hab hbc => by unfold slotLe at *; omega⟩
    refine List.Perm.eq_of_pairwise (fun a b ha hb hab hba => ?_)
      (List.pairwise_insertionSort slotLe _) (List.pairwise_insertionSort slotLe _)
      (((List.perm_insertionSort slotLe _).trans (hperm.map _)).trans
        (List.perm_insertionSort slotLe _).symm)
    have hnum : (a.inst, a.slot) = (b.inst, b.slot) := by
      unfold slotLe at hab hba
      exact Prod.ext (by dsimp only; omega) (by dsimp only; omega)
    have ha := mem_slots_iff.mp ha
    rw [h, hnum, mem_slots_iff.mp hb] at ha
    exact (Option.some.inj ha).symm

/-! ## Decoding in one way -/

/-- The valid leaves of a field write one value. -/
def LeavesAgree (r : NativeScalars) (m : LeafValues) : Prop :=
  ∀ e ∈ m, ∀ u ∈ slotLeaf r e, ∀ e' ∈ m, ∀ u' ∈ slotLeaf r e', u.place = u'.place →
    ∀ w ∈ written r u, ∀ w' ∈ written r u', w = w'

theorem agree_leaves_iff (r : NativeScalars) (m : LeafValues) :
    MapFill.Agree PlatformUpdate.place (written r) (m.filterMap (slotLeaf r)) ↔
    LeavesAgree r m := by
  constructor
  · intro h e he u hu e' he' u' hu'
    exact h u (List.mem_filterMap.mpr ⟨e, he, hu⟩) u' (List.mem_filterMap.mpr ⟨e', he', hu'⟩)
  · intro h u hu u' hu'
    obtain ⟨e, he, hu⟩ := List.mem_filterMap.mp hu
    obtain ⟨e', he', hu'⟩ := List.mem_filterMap.mp hu'
    exact h e he u hu e' he' u' hu'

/-- **Slots.** `parsePlatformSlots` gives the same slots for every order of the leaves if the leaves
of a field agree, and only then.

**Proof sketch.** If they agree, the last value at each place is the same for every order. If not,
of two orders that end with one leaf and with the other, the slot shows the one value and the other.
-/
theorem parsePlatformSlots_perm_iff (r : NativeScalars) (m : LeafValues) :
    (∀ m', m'.Perm m → parsePlatformSlots r m' = parsePlatformSlots r m) ↔ LeavesAgree r m := by
  constructor
  · intro h e he u hu e' he' u' hu' hplace w hw w' hw'
    have hlast : ∀ e ∈ m, ∀ u ∈ slotLeaf r e, ∀ w ∈ written r u, ∃ ps,
        ((m.filterMap (slotLeaf r)).foldl (readLeaf r) ∅).lookup (slotOf u) = some ps ∧
          fieldOf ps u.field = w := by
      intro e he u hu w hw
      obtain ⟨s, t, rfl⟩ := List.append_of_mem he
      have hp : ((s ++ t) ++ [e]).Perm (s ++ e :: t) :=
        (List.perm_append_singleton e (s ++ t)).trans List.perm_middle.symm
      have hsame := (slots_eq_iff r _ _).mp (congrArg Prod.fst (h _ hp)) (slotOf u)
      have hsplit : ((s ++ t) ++ [e]).filterMap (slotLeaf r) =
          (s ++ t).filterMap (slotLeaf r) ++ [u] := by
        rw [List.filterMap_append, List.filterMap_cons_some hu, List.filterMap_nil]
      rw [hsplit, lookup_readLeaves, if_pos (by simp)] at hsame
      refine ⟨_, hsame.symm, fieldOf_assemble hw ?_⟩
      show (MapFill.fill PlatformUpdate.place (written r) _ ∅).lookup u.place = some w
      exact MapFill.lookup_fill_last _ hw ∅
    obtain ⟨ps, hps, hfield⟩ := hlast e he u hu w hw
    obtain ⟨ps', hps', hfield'⟩ := hlast e' he' u' hu' w' hw'
    obtain ⟨hslot, hf⟩ : slotOf u = slotOf u' ∧ u.field = u'.field := Prod.ext_iff.mp hplace
    rw [hslot, hps'] at hps
    rw [← hfield, ← hfield', hf, Option.some.inj hps]
  · intro h m' hp
    have hus := hp.filterMap (slotLeaf r)
    have hplaces := (MapFill.lookup_fill_perm_iff (m.filterMap (slotLeaf r)) ∅).mpr
      ((agree_leaves_iff r m).mpr h) _ hus
    have hslots := (slots_eq_iff r (m'.filterMap (slotLeaf r)) (m.filterMap (slotLeaf r))).mpr
      fun k => by
        rw [lookup_readLeaves, lookup_readLeaves]
        refine if_congr (hus.map slotOf).mem_iff ?_ rfl
        exact congrArg some (congrArg (assemble k) (funext fun f => hplaces (k, f)))
    refine Prod.ext hslots ?_
    show decide _ = decide _
    rw [decide_eq_decide, ne_eq, ne_eq, not_iff_not]
    exact ⟨fun hnil => List.perm_nil.mp (hnil ▸ hus.symm), fun hnil =>
      List.perm_nil.mp (hnil ▸ hus)⟩

/-- **Aliases.** The flags and the slots are decoded in one way, whatever the order of their maps,
if the keys that stand for one flag or one field carry one value, and only then. -/
theorem orderFree_iff (r : NativeScalars) (values : StrMap Any) (m : LeafValues) :
    ((∀ l, l.Perm (pairs values) → ∀ key, (controllerBooleans (.object l)).lookup key =
        (controllerBooleans (.object (pairs values))).lookup key) ↔ FlagsAgree values) ∧
      ((∀ m', m'.Perm m → parsePlatformSlots r m' = parsePlatformSlots r m) ↔ LeavesAgree r m) :=
  ⟨lookup_controllerBooleans_perm_iff values, parsePlatformSlots_perm_iff r m⟩

/-- A control flag under two spellings with different values. -/
def clashingFlags : StrMap Any :=
  ((∅ : StrMap Any).insert "no_feed" (.bool true)).insert "input_boolean.no_feed" (.bool false)

/-- The description of one slot under two spellings of its number. -/
def clashingLeaves : LeafValues :=
  [(["0", "Notifications", "1", "Description"], .string "Low battery"),
    (["0", "Notifications", "01", "Description"], .string "High temperature")]

/-- Readers of scalars that accept nothing; no scalar is among the leaves. -/
def textsOnly : NativeScalars := ⟨fun _ => none, fun _ => none, fun _ => ""⟩

/-- The shown flag and the shown banner depend on the order of the map. -/
theorem not_orderFree_clashing :
    (¬ ∀ l, l.Perm (pairs clashingFlags) → ∀ key, (controllerBooleans (.object l)).lookup key =
        (controllerBooleans (.object (pairs clashingFlags))).lookup key) ∧
      ¬ ∀ m', m'.Perm clashingLeaves →
        parsePlatformSlots textsOnly m' = parsePlatformSlots textsOnly clashingLeaves := by
  constructor
  · intro h
    have hflag := h _ (List.reverse_perm _) "no_feed"
    have hfirst : ((controllerBooleans (.object (pairs clashingFlags).reverse)).lookup
        "no_feed").bind Any.bool? = some false := by decide
    rw [hflag] at hfirst
    exact absurd hfirst (by decide)
  · intro h
    have hslots := h _ (List.reverse_perm _)
    exact absurd (congrArg (fun s => s.1.map (·.description)) hslots) (by decide)

end Gateway

end Dashboard
