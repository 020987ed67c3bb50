import InverterDashboard.Gateway.Names
import InverterDashboard.Mqtt.Scalars
import InverterDashboard.Lan.Alarms

set_option relaxedAutoImplicit false
set_option autoImplicit false

/-!
# Notification slots on both transports

The client on LAN reads the leaves of the notification slots one by one, in the order in which they
arrive; the gateway reads them from a snapshot. What a slot shows is the same: reading leaves with
distinct keys commutes, and a null finds its part of the slot as it is cleared.

## Main definitions

* `Dashboard.PlatformLeaf` — a leaf under its canonical key.
* `Dashboard.SlotView`, `Dashboard.Gateway.readView` — what the slots show, and the reading of a
  leaf.
* `Dashboard.Untouched` — no leaf of a field was read yet.

## Main results

* `Dashboard.Gateway.readField_comm` — the fields of a slot are read in any order.
* `Dashboard.Gateway.updateField_eq` — an untouched field is read alike on both transports.
* `Dashboard.Gateway.foldl_readView_perm` — leaves with distinct keys are read in any order.
-/

namespace Dashboard

open Go

/-! ## Leaves -/

/-- The level of a topic that names a field. -/
def PlatformField.name : PlatformField → String
  | .description => "Description"
  | .deviceName => "DeviceName"
  | .service => "Service"
  | .dateTime => "DateTime"
  | .type => "Type"
  | .acknowledged => "Acknowledged"
  | .active => "Active"
  | .silenced => "Silenced"

theorem PlatformField.ofName?_name (f : PlatformField) : ofName? f.name = some f := by
  cases f <;> rfl

/-- A notification leaf. -/
structure PlatformLeaf where
  inst : ℕ
  slot : ℕ
  field : PlatformField
  value : Json

/-- What an update writes to. -/
def PlatformUpdate.place (u : PlatformUpdate) : (ℕ × ℕ) × PlatformField :=
  ((u.inst, u.slot), u.field)

namespace PlatformLeaf

/-- The canonical key of a leaf. -/
def key (l : PlatformLeaf) : List String :=
  [toString l.inst, "Notifications", toString l.slot, l.field.name]

/-- What a leaf writes to. -/
def place (l : PlatformLeaf) : (ℕ × ℕ) × PlatformField := ((l.inst, l.slot), l.field)

/-- The leaf in a snapshot. -/
def raw (l : PlatformLeaf) : List String × Json := (l.key, l.value)

/-- The leaf as a message. -/
def message (portal : String) (l : PlatformLeaf) : Message :=
  .native ("N" :: portal :: "platform" :: l.key) (.json (.obj [("value", l.value)]))

/-- The update a leaf brings. -/
def update (l : PlatformLeaf) : PlatformUpdate :=
  { inst := l.inst, slot := l.slot, field := l.field, value := l.value.useNumber }

/-- A leaf of a slot that exists, with a valid value or null. -/
structure Valid (r : NativeScalars) (l : PlatformLeaf) : Prop where
  inst : l.inst < 2 ^ 32
  slot : l.slot ≤ 20
  value : validPlatformNotificationValue r l.field l.value.useNumber = true

end PlatformLeaf

/-- A decimal numeral is read back. -/
theorem digitsValue_toString (n : ℕ) : digitsValue (toString n).toList = some n := by
  have hlist : (toString n).toList = Nat.toDigits 10 n := Nat.toList_repr
  have hdigits : (Nat.toDigits 10 n).all Char.isDigit = true :=
    List.all_eq_true.mpr fun c hc =>
      Nat.isDigit_of_mem_toDigits (by decide : 0 < 10) (le_refl 10) hc
  have hne : (Nat.toDigits 10 n).isEmpty = false := by
    rw [List.isEmpty_eq_false_iff, ← List.length_pos_iff]
    exact Nat.length_toDigits_pos
  have hvalue := Nat.ofDigitChars_ten_toDigits (n := n)
  rw [Nat.ofDigitChars_eq_foldl] at hvalue
  unfold digitsValue
  rw [hlist, hne, hdigits]
  exact congrArg some hvalue

/-- The canonical key is parsed back. -/
theorem parsePlatformNotificationKey_key {r : NativeScalars} {l : PlatformLeaf} (h : l.Valid r) :
    parsePlatformNotificationKey l.key = some (l.inst, l.slot, l.field) := by
  have hinst : (some l.inst).filter (fun n => decide (n < 2 ^ 32)) = some l.inst := by
    rw [Option.filter_some, if_pos (decide_eq_true h.inst)]
  have hslot : (some l.slot).filter (fun n => decide (n ≤ 20)) = some l.slot := by
    rw [Option.filter_some, if_pos (decide_eq_true h.slot)]
  rw [PlatformLeaf.key, parsePlatformNotificationKey, digitsValue_toString, digitsValue_toString,
    hinst, hslot, PlatformField.ofName?_name]
  rfl

/-! ## What a slot shows -/

namespace PlatformSlot

/-- A slot without the physical condition, which no banner shows. -/
def shown (ps : PlatformSlot) : PlatformSlot := { ps with active := none }

@[simp] theorem shown_shown (ps : PlatformSlot) : ps.shown.shown = ps.shown := rfl

@[simp] theorem toNotification_shown (ps : PlatformSlot) :
    ps.shown.toNotification = ps.toNotification := rfl

theorem clearField_shown (ps : PlatformSlot) (f : PlatformField) :
    ps.shown.clearField f = (ps.clearField f).shown := by
  cases f <;> rfl

end PlatformSlot

/-- What the slots show. -/
abbrev SlotView : Type := ℕ × ℕ → PlatformSlot

/-- No leaf of a field was read yet. -/
def Untouched (S : SlotView) (p : (ℕ × ℕ) × PlatformField) : Prop :=
  (S p.1).clearField p.2 = S p.1

/-- What stored slots show; a slot that is not stored is empty. -/
def viewOf (slots : AList fun _ : ℕ × ℕ => PlatformSlot) : SlotView :=
  fun k => ((slots.lookup k).getD { inst := k.1, slot := k.2 }).shown

/-- The view of no slot. -/
def emptyView : SlotView := fun k => { inst := k.1, slot := k.2 }

theorem untouched_emptyView (p : (ℕ × ℕ) × PlatformField) : Untouched emptyView p := by
  obtain ⟨k, f⟩ := p
  cases f <;> rfl

namespace Gateway

/-- The reading of a leaf into the view. -/
def readView (r : NativeScalars) (S : SlotView) (u : PlatformUpdate) : SlotView :=
  Function.update S (u.inst, u.slot)
    (readField r (S (u.inst, u.slot)) u.field u.value).shown

theorem shown_readField (r : NativeScalars) (ps : PlatformSlot) (f : PlatformField) (v : Any) :
    (readField r ps.shown f v).shown = (readField r ps f v).shown := by
  cases f <;> simp only [readField] <;> (try split) <;> rfl

theorem shown_updateField (r : NativeScalars) (ps : PlatformSlot) (f : PlatformField) (v : Any) :
    (ps.shown.updateField r f v).shown = (ps.updateField r f v).shown := by
  unfold PlatformSlot.updateField
  split_ifs
  · rw [PlatformSlot.clearField_shown, PlatformSlot.shown_shown]
  · cases f with
    | type =>
      simp only [PlatformSlot.setType]
      split <;> rfl
    | _ => rfl

/-- The fields of a slot are read in any order. -/
theorem readField_comm (r : NativeScalars) (ps : PlatformSlot) {f g : PlatformField} (h : f ≠ g)
    (v w : Any) :
    readField r (readField r ps f v) g w = readField r (readField r ps g w) f v := by
  cases f <;> cases g <;> first
    | exact absurd rfl h
    | (simp only [readField]; repeat' split) <;> rfl

/-- A field is cleared before or behind the reading of another one. -/
theorem clearField_readField (r : NativeScalars) (ps : PlatformSlot) {f g : PlatformField}
    (h : f ≠ g) (w : Any) :
    (readField r ps g w).clearField f = readField r (ps.clearField f) g w := by
  cases f <;> cases g <;> first
    | exact absurd rfl h
    | (simp only [readField, PlatformSlot.clearField]; try split) <;> rfl

/-- Reading a leaf leaves every other place untouched. -/
theorem untouched_readView (r : NativeScalars) {S : SlotView} {u : PlatformUpdate}
    {p : (ℕ × ℕ) × PlatformField} (h : Untouched S p) (hne : p ≠ u.place) :
    Untouched (readView r S u) p := by
  obtain ⟨k, f⟩ := p
  unfold Untouched readView at *
  dsimp only at h ⊢
  by_cases hk : k = (u.inst, u.slot)
  · subst hk
    have hf : f ≠ u.field := fun hf => hne (Prod.ext rfl hf)
    rw [Function.update_self, PlatformSlot.clearField_shown, clearField_readField r _ hf, h]
  · rw [Function.update_of_ne hk, h]

/-- Leaves at two places are read in any order. -/
theorem readView_comm (r : NativeScalars) (S : SlotView) {u w : PlatformUpdate}
    (h : u.place ≠ w.place) :
    readView r (readView r S u) w = readView r (readView r S w) u := by
  unfold readView
  by_cases hk : (u.inst, u.slot) = (w.inst, w.slot)
  · have hf : u.field ≠ w.field := fun hf => h (Prod.ext hk hf)
    rw [hk, Function.update_self, Function.update_self, Function.update_idem,
      Function.update_idem, shown_readField, shown_readField, readField_comm r _ hf]
  · rw [Function.update_of_ne (Ne.symm hk), Function.update_of_ne hk, Function.update_comm hk]

/-- **Leaves in any order.** The view after updates of distinct places does not depend on their
order. -/
theorem foldl_readView_perm (r : NativeScalars) {us us' : List PlatformUpdate} (hp : us.Perm us')
    (hnodup : (us.map PlatformUpdate.place).Nodup) (S : SlotView) :
    us.foldl (readView r) S = us'.foldl (readView r) S := by
  refine hp.foldl_eq' (fun u hu w hw z => ?_) S
  by_cases huw : u = w
  · rw [huw]
  · exact readView_comm r z fun hplace => huw (List.inj_on_of_nodup_map hnodup hu hw hplace)

/-! ## The two readings of a field -/

/-- **Untouched fields.** A valid value is read alike on both transports, and a null clears what is
still clear. -/
theorem updateField_eq (t : NativeTexts) {ps : PlatformSlot} {f : PlatformField} {v : Any}
    (hv : validPlatformNotificationValue t.scalars f v = true) (h : ps.clearField f = ps) :
    ps.updateField t.scalars f v = readField t.scalars ps f v := by
  unfold PlatformSlot.updateField
  cases hnil : v.isNil with
  | true =>
    rw [if_pos rfl, h]
    cases v <;> try cases hnil
    cases f with
    | dateTime => exact h.symm
    | _ => rfl
  | false =>
    rw [if_neg Bool.false_ne_true]
    cases f with
    | description => cases hs : v.string? <;> simp only [readField, hs] <;> rfl
    | deviceName => cases hs : v.string? <;> simp only [readField, hs] <;> rfl
    | service => cases hs : v.string? <;> simp only [readField, hs] <;> rfl
    | type =>
      unfold validPlatformNotificationValue at hv
      rw [hnil, Bool.false_or] at hv
      obtain ⟨level, hlevel⟩ := Option.isSome_iff_exists.mp hv
      simp only [readField, PlatformSlot.setType, hlevel]
    | acknowledged => cases hf : t.scalars.flag v <;> simp only [readField, hf] <;> rfl
    | active => cases hf : t.scalars.flag v <;> simp only [readField, hf] <;> rfl
    | dateTime | silenced => rfl

theorem viewOf_empty : viewOf ∅ = emptyView := rfl

/-- A slot of a view is what the stored slot shows. -/
theorem viewOf_insert (slots : AList fun _ : ℕ × ℕ => PlatformSlot) (k : ℕ × ℕ)
    (ps : PlatformSlot) :
    viewOf (slots.insert k ps) = Function.update (viewOf slots) k ps.shown := by
  funext k'
  by_cases hk : k' = k
  · rw [hk, Function.update_self]
    unfold viewOf
    rw [AList.lookup_insert]
    rfl
  · rw [Function.update_of_ne hk]
    unfold viewOf
    rw [AList.lookup_insert_ne hk]

/-- The gateway reads a leaf into the view. -/
theorem viewOf_readLeaf (r : NativeScalars) (slots : AList fun _ : ℕ × ℕ => PlatformSlot)
    (u : PlatformUpdate) : viewOf (readLeaf r slots u) = readView r (viewOf slots) u := by
  unfold readLeaf readView
  dsimp only
  rw [viewOf_insert, viewOf, shown_readField]

/-- The client on LAN reads an untouched leaf into the view. -/
theorem viewOf_updatePlatformSlots (t : NativeTexts) (c : Client) {u : PlatformUpdate}
    (hv : validPlatformNotificationValue t.scalars u.field u.value = true)
    (h : Untouched (viewOf c.platformSlots) u.place) :
    viewOf (c.updatePlatformSlots t.scalars u).platformSlots =
      readView t.scalars (viewOf c.platformSlots) u := by
  show viewOf (c.platformSlots.insert _ _) = _
  have hclear : (viewOf c.platformSlots (u.inst, u.slot)).clearField u.field =
      viewOf c.platformSlots (u.inst, u.slot) := h
  rw [viewOf_insert, ← shown_updateField]
  unfold readView
  rw [← updateField_eq t hv hclear]
  rfl

/-! ## Leaves that are not heard -/

/-- A leaf that discovers an unknown portal: a number or a text that is not blank. -/
def discovers (v : Json) : Bool :=
  match v.toAny with
  | none | some .nil | some (.bool _) => false
  | some (.string s) => trimSpace s != ""
  | some _ => true

/-- **Unheard leaves.** A valid leaf that discovers nothing has no effect on what an untouched slot
shows, unless it is the acknowledgement `true`. -/
theorem readView_of_not_discovers (t : NativeTexts) {S : SlotView} {l : PlatformLeaf}
    (hv : validPlatformNotificationValue t.scalars l.field l.value.useNumber = true)
    (hshown : ∀ k, (S k).shown = S k) (h : Untouched S l.place)
    (hdisc : discovers l.value = false)
    (hack : ¬ (l.field = .acknowledged ∧ l.value = .bool true)) :
    readView t.scalars S l.update = S := by
  obtain ⟨inst, slot, field, value⟩ := l
  have hkeep : ∀ ps : PlatformSlot, ps.shown = ps → ps.clearField field = ps →
      (readField t.scalars ps field value.useNumber).shown = ps := by
    intro ps hps hclear
    dsimp only at hv hdisc hack
    cases value with
    | null =>
      rw [← updateField_eq t hv hclear]
      show (ps.clearField field).shown = ps
      rw [hclear, hps]
    | bool b =>
      cases field with
      | dateTime => exact (congrArg PlatformSlot.shown hclear).trans hps
      | acknowledged =>
        cases b with
        | true => exact absurd ⟨rfl, rfl⟩ hack
        | false => exact (congrArg PlatformSlot.shown hclear).trans hps
      | active | silenced => exact hps
      | description | deviceName | service | type => cases hv
    | num n =>
      have hover : ∀ q, F64.ofRat n.value ≠ .fin q := by
        intro q hq
        simp only [discovers, Json.toAny, hq] at hdisc
        cases hdisc
      have hlevel : nativeLevel t (.number n) = none := nativeLevel_eq_none_of_overflow t hover
      have hflag : nativeFlag t (.number n) = none := by
        simp only [nativeFlag, Any.string?, Option.map_none, hlevel]
        rfl
      have htime : nativeTime t (.number n) = "" := nativeTime_of_overflow t hover
      cases field with
      | dateTime =>
        simp only [readField, NativeTexts.scalars, Json.useNumber, htime]
        exact (congrArg PlatformSlot.shown hclear).trans hps
      | type =>
        simp only [validPlatformNotificationValue, NativeTexts.scalars, Json.useNumber, hlevel]
          at hv
        cases hv
      | acknowledged | active | silenced =>
        simp only [validPlatformNotificationValue, NativeTexts.scalars, Json.useNumber, hflag]
          at hv
        cases hv
      | description | deviceName | service => cases hv
    | str s =>
      have hblank : trimSpace s = "" := by
        simpa [discovers, Json.toAny] using hdisc
      have hlevel : nativeLevel t (.string s) = none := by
        show t.level (trimSpace s) = none
        rw [hblank, t.level_empty]
      have hflag : nativeFlag t (.string s) = none := by
        simp only [nativeFlag, Any.string?, Option.map_some, hblank, hlevel]
        rfl
      cases field with
      | description | deviceName | service =>
        simp only [readField, Json.useNumber, Any.string?, hblank]
        exact (congrArg PlatformSlot.shown hclear).trans hps
      | dateTime =>
        simp only [readField, NativeTexts.scalars, Json.useNumber, nativeTime,
          t.time_blank s hblank]
        exact (congrArg PlatformSlot.shown hclear).trans hps
      | type =>
        simp only [validPlatformNotificationValue, NativeTexts.scalars, Json.useNumber, hlevel]
          at hv
        cases hv
      | acknowledged | active | silenced =>
        simp only [validPlatformNotificationValue, NativeTexts.scalars, Json.useNumber, hflag]
          at hv
        cases hv
    | arr es => cases field <;> cases hv
    | obj fs => cases field <;> cases hv
  unfold readView
  dsimp only [PlatformLeaf.update]
  rw [hkeep (S (inst, slot)) (hshown _) h, Function.update_eq_self]

end Gateway

end Dashboard
