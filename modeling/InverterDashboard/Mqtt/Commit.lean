import InverterDashboard.Lib.MapFill
import InverterDashboard.Mqtt.Client

set_option relaxedAutoImplicit false
set_option autoImplicit false

/-!
# When the commit of native telemetry is faithful

`applyCerboOverlays` encodes the whole output of the reducer at once, after it has cleared and
marked every output. The readings are finite, but the sums and products of readings need not be, and
one value that is not finite fails the encoding of all of them.

## Main definitions

* `Dashboard.FiniteLeaves` — every numeric leaf is finite.
* `Dashboard.derived` — the sums and products that the reducer forms from the leaves.
* `Dashboard.Client.Faithful` — every output is marked and installed.

## Main results

* `Dashboard.cerboOverlay_finite` — the encoding succeeds when all of `derived` are finite, and only
  then.
* `Dashboard.Client.faithful_iff` — when a commit is faithful.
-/

namespace Dashboard

open Go

/-! ## The encoding of an overlay -/

namespace Overlay

variable {o : Overlay} {f : Field}

theorem finite_iff : o.finite = true ↔
    ∀ f, (o.val f).all (finiteValue f.type) = true := by
  simp only [finite, List.all_eq_true]
  exact ⟨fun h f => h f (Field.mem_all f), fun h f _ => h f⟩

/-- An output where there was none adds a value to the encoding. -/
theorem finite_put (h : o.val f = none) (v : f.type.denote) :
    (o.put f v).finite = (o.finite && finiteValue f.type v) := by
  rw [Bool.eq_iff_iff, Bool.and_eq_true, finite_iff, finite_iff]
  constructor
  · intro hall
    refine ⟨fun g => ?_, by simpa using hall f⟩
    by_cases hg : g = f
    · subst hg
      rw [h]
      rfl
    · simpa [hg] using hall g
  · rintro ⟨hall, hv⟩ g
    by_cases hg : g = f
    · subst hg
      simpa using hv
    · simpa [hg] using hall g

theorem finite_putIf (h : o.val f = none) (v : Option f.type.denote) :
    (o.putIf f v).finite = (o.finite && v.all (finiteValue f.type)) := by
  cases v with
  | none => simp [putIf]
  | some v => exact finite_put h v

end Overlay

/-! ## Readings -/

/-- A value is finite, if it is there. -/
def inRange (x : Option F64) : Bool := x.all F64.isFinite

theorem inRange_orElse {x : Option F64} {y : Unit → Option F64} (hy : inRange (y ()) = true) :
    inRange (x.orElse y) = inRange x := by
  cases x with
  | none => exact hy
  | some x => rfl

theorem inRange_ite {c : Prop} [Decidable c] {x : Option F64} (h : inRange x = true) :
    inRange (if c then x else none) = true := by
  split_ifs
  · exact h
  · rfl

theorem inRange_map {x : Option F64} {g : F64 → F64} (h : x.all F64.isFloat = true)
    (hg : ∀ n : F64, n.isFloat = true → (g n).isFinite = true) : inRange (x.map g) = true := by
  cases x with
  | none => rfl
  | some x => exact hg x h

theorem inRange_getD {x : Option F64} : (x.getD 0).isFinite = inRange x := by
  cases x <;> rfl

theorem inRange_findSome? {α : Type} {l : List α} {g : α → Option F64}
    (h : ∀ a ∈ l, inRange (g a) = true) : inRange (l.findSome? g) = true := by
  cases hf : l.findSome? g with
  | none => rfl
  | some x =>
    obtain ⟨a, ha, hg⟩ := List.exists_of_findSome?_eq_some hf
    exact hg ▸ h a ha

/-- Every number among the leaves is a finite `float64`. `number` admits no other. -/
def FiniteLeaves (all : LeafMap) : Prop :=
  ∀ l v, all.lookup l = some v → (number v).all F64.isFloat = true

/-- Every number among the leaves of a device is a finite `float64`. -/
def Device.Finite (d : Device) : Prop :=
  ∀ path v, d path = some v → (number v).all F64.isFloat = true

theorem inRange_of_isFloat {x : Option F64} (h : x.all F64.isFloat = true) : inRange x = true := by
  cases x with
  | none => rfl
  | some x => exact F64.isFinite_of_isFloat h

theorem Device.finite_missing :
    Device.missing.Finite := fun _ _ h => absurd h (by simp [Device.missing])

theorem Device.Finite.isFloat_num {d : Device} (h : d.Finite) (paths : List String) :
    (d.num paths).all F64.isFloat = true := by
  cases hn : d.num paths with
  | none => rfl
  | some x =>
    obtain ⟨p, -, hp⟩ := List.exists_of_findSome?_eq_some hn
    obtain ⟨v, hv, hx⟩ := Option.bind_eq_some_iff.mp hp
    have hall := h p v hv
    rw [hx] at hall
    exact hall

theorem Device.Finite.num {d : Device} (h : d.Finite) (paths : List String) :
    inRange (d.num paths) = true := inRange_of_isFloat (h.isFloat_num paths)

/-- The devices of the cache. -/
theorem FiniteLeaves.devices {all : LeafMap} (h : FiniteLeaves all) (kind : Kind) :
    ∀ e ∈ devices all kind, e.2.Finite := by
  intro e he path v hv
  obtain ⟨id, -, rfl⟩ := List.mem_map.mp (List.mem_of_mem_filter he)
  exact h _ v hv

section Devices

variable {ds : List (String × Device)} (h : ∀ e ∈ ds, e.2.Finite)
include h

theorem inRange_firstNum (paths : List String) : inRange (firstNum ds paths) = true :=
  inRange_findSome? fun e he => (h e (mem_sortedStringKeys.mp he)).num paths

theorem inRange_firstLeaf {path : String} {n : Option F64} (hn : firstLeaf ds path = some n) :
    inRange n = true := by
  obtain ⟨e, he, hmap⟩ := List.exists_of_findSome?_eq_some hn
  obtain ⟨v, hv, rfl⟩ := Option.map_eq_some_iff.mp hmap
  exact inRange_of_isFloat (h e (mem_sortedStringKeys.mp he) path v hv)

theorem finite_deviceAt (inst : String) : (deviceAt ds inst).Finite := by
  unfold deviceAt
  cases he : entry ds inst with
  | none => exact Device.finite_missing
  | some d => exact h _ (mem_of_entry he)

end Devices

theorem inRange_gridPhase {sys grid vebus : List (String × Device)} (hsys : ∀ e ∈ sys, e.2.Finite)
    (hgrid : ∀ e ∈ grid, e.2.Finite) (hvebus : ∀ e ∈ vebus, e.2.Finite) (p : Phase) :
    inRange (gridPhase sys grid vebus p).2 = true := by
  unfold gridPhase
  cases hs : firstLeaf sys ("Ac/Grid/" ++ p.label ++ "/Power") with
  | some n => exact inRange_firstLeaf hsys hs
  | none =>
    cases hg : firstLeaf grid ("Ac/" ++ p.label ++ "/Power") with
    | some n => exact inRange_firstLeaf hgrid hg
    | none =>
      dsimp only
      unfold activeInput
      cases firstNum sys ["Ac/ActiveIn/Source"] with
      | none => rfl
      | some input =>
        dsimp only
        split_ifs
        · refine inRange_findSome? fun e he => ?_
          split_ifs
          · rfl
          · exact (hvebus e (mem_sortedStringKeys.mp he)).num _
        · rfl

/-! ## The sums and products -/

/-- The consumption of each phase, and the two totals. -/
def gridDerived (all : LeafMap) : List (Option F64) :=
  let sys := devices all .system
  Phase.all.map (consumptionPhase sys) ++
    [outputSum (Phase.all.map fun p =>
    (gridPhase sys (devices all .grid) (devices all .vebus) p).2),
      outputSum (Phase.all.map (consumptionPhase sys))]

/-- Flags are always encoded. -/
theorem all_ptrBool (v : Option (FieldType.denote .ptrBool)) :
    v.all (Overlay.finiteValue .ptrBool) = true := by
  cases v <;> rfl

theorem all_string (v : Option (FieldType.denote .string)) :
    v.all (Overlay.finiteValue .string) = true := by
  cases v <;> rfl

theorem all_bool (v : Option (FieldType.denote .bool)) :
    v.all (Overlay.finiteValue .bool) = true := by
  cases v <;> rfl

theorem all_int (v : Option (FieldType.denote .int)) :
    v.all (Overlay.finiteValue .int) = true := by
  cases v <;> rfl

theorem all_essMode (v : Option (FieldType.denote .essMode)) :
    v.all (Overlay.finiteValue .essMode) = true := by
  cases v <;> rfl

/-- The power of each battery. -/
def batteryDerived (all : LeafMap) : List (Option F64) :=
  (devices all .battery).map fun e => e.2.dcPower

/-- The shunt is one of the batteries. -/
theorem smartShunt_cases (bats : List (String × Device)) :
    smartShunt bats = Device.missing ∨ ∃ e ∈ bats, smartShunt bats = e.2 := by
  unfold smartShunt
  dsimp only
  split
  · rename_i e he
    exact Or.inr ⟨e, mem_sortedStringKeys.mp
      (List.mem_of_mem_filter (List.mem_of_find?_eq_some he)),
      rfl⟩
  · rename_i hnone
    cases hh : ((sortedStringKeys bats).filter fun e =>
        containsText (toLower (deviceName e.2 "")) "shunt").head? with
    | none => exact Or.inl rfl
    | some e =>
      exact Or.inr ⟨e, mem_sortedStringKeys.mp (List.mem_of_mem_filter (List.mem_of_head? hh)), rfl⟩

theorem finite_smartShunt {bats : List (String × Device)} (h : ∀ e ∈ bats, e.2.Finite) :
    (smartShunt bats).Finite := by
  rcases smartShunt_cases bats with hm | ⟨e, he, heq⟩
  · rw [hm]
    exact Device.finite_missing
  · rw [heq]
    exact h e he

/-- The estimate is a percentage, whatever the voltage. -/
theorem inRange_voltageSOC {x : Option F64} (h : inRange x = true) :
    inRange (x.map voltageSOC) = true := by
  cases x with
  | none => rfl
  | some x =>
    cases x with
    | fin q => exact F64.isFinite_clamp (F64.scaled_ne_nan q)
    | inf s => exact absurd h (by simp [inRange, F64.isFinite])
    | nan => exact absurd h (by simp [inRange, F64.isFinite])

/-- A row of readings is encoded when its power is. -/
theorem finite_batteryRows {bats : List (String × Device)} (h : ∀ e ∈ bats, e.2.Finite) :
    Overlay.finiteValue .sliceBattery
        (GoSlice.ofList ((sortedStringKeys bats).map fun e => batteryRow e.1 e.2)) = true ↔
      ∀ e ∈ bats, inRange e.2.dcPower = true := by
  show ((sortedStringKeys bats).map fun e => batteryRow e.1 e.2).all _ = true ↔ _
  rw [List.all_map, List.all_eq_true]
  refine ⟨fun hall e he => ?_, fun hall e he => ?_⟩
  · have hrow := hall e (mem_sortedStringKeys.mpr he)
    simp only [Function.comp_apply, Bool.and_eq_true] at hrow
    rw [← inRange_getD]
    exact hrow.1.2
  · have he := mem_sortedStringKeys.mp he
    have hnum := (h e he).num
    simp only [Function.comp_apply, Bool.and_eq_true]
    refine ⟨⟨⟨⟨⟨⟨hnum _, hnum _⟩, hnum _⟩, ?_⟩, ?_⟩, ?_⟩, ?_⟩
    · exact inRange_getD.trans (hnum _)
    · exact inRange_getD.trans (hnum _)
    · exact inRange_getD.trans (hall e he)
    · exact inRange_getD.trans (hnum _)

theorem finite_mpptRows {ds : List (String × Device)} (h : ∀ e ∈ ds, e.2.Finite) :
    Overlay.finiteValue .sliceCharger (GoSlice.ofList
          (((sortedStringKeys ds).map fun e => mpptRow e.1 e.2).map Prod.fst)) = true ∧
        Overlay.finiteValue .sliceFloat64 (GoSlice.ofList
          (((sortedStringKeys ds).map fun e => mpptRow e.1 e.2).filterMap Prod.snd)) = true ↔
      ∀ e ∈ ds, inRange (mpptRow e.1 e.2).2 = true := by
  show (((sortedStringKeys ds).map fun e => mpptRow e.1 e.2).map Prod.fst).all _ = true ∧
    (((sortedStringKeys ds).map fun e => mpptRow e.1 e.2).filterMap Prod.snd).all _ = true ↔ _
  rw [List.all_map, List.all_map, List.all_eq_true, List.all_eq_true]
  constructor
  · rintro ⟨hall, -⟩ e he
    have hrow := hall e (mem_sortedStringKeys.mpr he)
    simp only [Function.comp_apply, Bool.and_eq_true] at hrow
    rw [← inRange_getD]
    exact hrow.2
  · intro hall
    refine ⟨fun e he => ?_, fun x hx => ?_⟩
    · have he := mem_sortedStringKeys.mp he
      have hnum := (h e he).num
      simp only [Function.comp_apply, Bool.and_eq_true]
      refine ⟨⟨?_, ?_⟩, ?_⟩
      · exact inRange_getD.trans (hnum _)
      · exact inRange_getD.trans (hnum _)
      · exact inRange_getD.trans (hall e he)
    · obtain ⟨r, hr, hx⟩ := List.mem_filterMap.mp hx
      obtain ⟨e, he, rfl⟩ := List.mem_map.mp hr
      have hrow := hall e (mem_sortedStringKeys.mp he)
      rw [hx] at hrow
      exact hrow

theorem finite_pvRows {ds : List (String × Device)} (h : ∀ e ∈ ds, e.2.Finite) :
    Overlay.finiteValue .sliceCharger (GoSlice.ofList
        (((sortedStringKeys ds).map fun e => pvRow e.1 e.2).map Prod.fst)) = true ↔
      ∀ e ∈ ds, inRange (pvRow e.1 e.2).2 = true := by
  show (((sortedStringKeys ds).map fun e => pvRow e.1 e.2).map Prod.fst).all _ = true ↔ _
  rw [List.all_map, List.all_map, List.all_eq_true]
  refine ⟨fun hall e he => ?_, fun hall e he => ?_⟩
  · have hrow := hall e (mem_sortedStringKeys.mpr he)
    simp only [Function.comp_apply, Bool.and_eq_true] at hrow
    rw [← inRange_getD]
    exact hrow.2
  · have he := mem_sortedStringKeys.mp he
    have hnum := (h e he).num
    simp only [Function.comp_apply, Bool.and_eq_true]
    refine ⟨⟨?_, ?_⟩, ?_⟩
    · exact inRange_getD.trans (hnum _)
    · exact inRange_getD.trans (hnum _)
    · exact inRange_getD.trans (hall e he)

/-- The power of each charger and each PV inverter, and the totals. -/
def solarDerived (all : LeafMap) : List (Option F64) :=
  let sys := devices all .system
  let mpptTotal := (firstNum sys ["Dc/Pv/Power"]).orElse fun _ =>
    outputSum (((sortedStringKeys (devices all .solarcharger)).map fun e =>
      mpptRow e.1 e.2).map Prod.snd)
  let systemPV := outputSum (["PvOnGrid", "PvOnOutput", "PvOnGenset"].flatMap fun location =>
    Phase.all.map fun p => firstNum sys ["Ac/" ++ location ++ "/" ++ p.label ++ "/Power"])
  let pvTotal := systemPV.orElse fun _ =>
    outputSum (((sortedStringKeys (devices all .pvinverter)).map fun e =>
      pvRow e.1 e.2).map Prod.snd)
  ((devices all .solarcharger).map fun e => (mpptRow e.1 e.2).2) ++
    ((devices all .pvinverter).map fun e => (pvRow e.1 e.2).2) ++
    [mpptTotal, pvTotal, if mpptTotal.isSome || pvTotal.isSome then
      some ((mpptTotal.getD 0).add (pvTotal.getD 0)) else none]

/-- The power of each AC load. -/
def loadsDerived (all : LeafMap) : List (Option F64) :=
  (devices all .acload).map fun e => e.2.acPower

/-- The power of each device of the inventory. -/
def evDerived (all : LeafMap) : List (Option F64) :=
  [Kind.ev, .evcharger, .tank, .pump].flatMap fun kind =>
    (devices all kind).map fun e => e.2.acPower

/-- A sum that is finite is a number of the format. -/
theorem isFloat_sum {d : Device} {paths : List String} (h : inRange (d.sum paths) = true) :
    (d.sum paths).all F64.isFloat = true := by
  have hfold : ∀ {f : Option F64 → String → Option F64},
      (∀ total p, (inRange total = true → total.all F64.isFloat = true) →
        inRange (f total p) = true → (f total p).all F64.isFloat = true) →
      ∀ (paths : List String) (total : Option F64),
        (inRange total = true → total.all F64.isFloat = true) →
        inRange (paths.foldl f total) = true → (paths.foldl f total).all F64.isFloat = true := by
    intro f hf paths
    induction paths with
    | nil => exact fun total htotal hin => htotal hin
    | cons p paths ih => exact fun total htotal => ih _ (hf total p htotal)
  refine hfold (fun total p htotal => ?_) paths none (fun _ => rfl) h
  cases d.num [p] with
  | none => exact htotal
  | some n => exact fun hin => F64.isFloat_add hin

theorem Device.Finite.isFloat_acPower {d : Device} (h : d.Finite) (hac : inRange d.acPower = true) :
    d.acPower.all F64.isFloat = true := by
  unfold Device.acPower at hac ⊢
  have hnum := h.isFloat_num ["Ac/Power"]
  cases hp : d.num ["Ac/Power"] with
  | some x =>
    rw [hp] at hnum
    exact hnum
  | none =>
    rw [hp] at hac
    exact isFloat_sum hac

/-- The vehicle that is shown is one of the devices. -/
theorem selectEV_cases (ds : List (String × Device)) (preferred : ℤ) :
    selectEV ds preferred = Device.missing ∨ ∃ e ∈ ds, selectEV ds preferred = e.2 := by
  unfold selectEV
  split_ifs
  · unfold deviceAt
    cases he : entry ds (itoa preferred) with
    | none => exact Or.inl rfl
    | some d => exact Or.inr ⟨_, mem_of_entry he, rfl⟩
  · cases hf : (sortedStringKeys ds).find? fun e => (evSOC e.2).isSome || e.2.acPower.isSome with
    | none => exact Or.inl rfl
    | some e => exact Or.inr ⟨e, mem_sortedStringKeys.mp (List.mem_of_find?_eq_some hf), rfl⟩

theorem inRange_evSOC {d : Device} (h : d.Finite) : inRange (evSOC d) = true := by
  have hnum := h.num ["Soc"]
  unfold evSOC
  cases hs : d.num ["Soc"] with
  | none => rfl
  | some x =>
    rw [hs] at hnum
    rw [Option.filter_some]
    exact inRange_ite hnum

/-! ## The map of the loads -/

section Loads

variable {ρ α : Type} (key : ρ → String) (val : ρ → α)

/-- The entries of a map that is filled row by row. -/
theorem mem_foldl_insert {rows : List ρ} {m : StrMap α} {e : (_ : String) × α}
    (h : e ∈ (rows.foldl (fun m r => m.insert (key r) (val r)) m).entries) :
    e ∈ m.entries ∨ ∃ r ∈ rows, e.2 = val r := by
  induction rows generalizing m with
  | nil => exact Or.inl h
  | cons r rows ih =>
    rcases ih h with he | ⟨r', hr', he⟩
    · rcases List.mem_cons.mp he with rfl | he
      · exact Or.inr ⟨r, List.mem_cons_self, rfl⟩
      · exact Or.inl ((List.kerase_sublist _ _).subset he)
    · exact Or.inr ⟨r', List.mem_cons_of_mem _ hr', he⟩

/-- The rows that a list gives have keys of the list. -/
theorem map_filterMap_sublist {γ : Type} {g : String × γ → Option ρ} (l : List (String × γ))
    (hg : ∀ e r, g e = some r → key r = e.1) :
    ((l.filterMap g).map key).Sublist (l.map Prod.fst) := by
  induction l with
  | nil => exact List.Sublist.refl _
  | cons e l ih =>
    cases hr : g e with
    | none =>
      rw [List.filterMap_cons_none hr]
      exact ih.cons _
    | some r =>
      rw [List.filterMap_cons_some hr, List.map_cons, List.map_cons, hg e r hr]
      exact ih.cons_cons _

end Loads

/-- The powers that are shown for the loads. -/
theorem finite_loads {ac : List (String × Device)} (hac : (ac.map Prod.fst).Nodup) :
    Overlay.finiteValue .mapFloat64 (some (((sortedStringKeys ac).filterMap fun e =>
        e.2.acPower.map fun p => (e.1, p, deviceName e.2 ("AC Load " ++ e.1))).foldl
          (fun m r => m.insert r.1 r.2.1) ∅)) = true ↔
      ∀ e ∈ ac, inRange e.2.acPower = true := by
  generalize hrows : ((sortedStringKeys ac).filterMap fun e =>
    e.2.acPower.map fun p => (e.1, p, deviceName e.2 ("AC Load " ++ e.1))) = rows
  have hmem : ∀ r, r ∈ rows ↔ ∃ e ∈ ac, e.2.acPower = some r.2.1 ∧
      r = (e.1, r.2.1, deviceName e.2 ("AC Load " ++ e.1)) := by
    intro r
    rw [← hrows, List.mem_filterMap]
    constructor
    · rintro ⟨e, he, hmap⟩
      obtain ⟨p, hp, rfl⟩ := Option.map_eq_some_iff.mp hmap
      exact ⟨e, mem_sortedStringKeys.mp he, hp, rfl⟩
    · rintro ⟨e, he, hp, hr⟩
      refine ⟨e, mem_sortedStringKeys.mpr he, ?_⟩
      rw [hp, Option.map_some, ← hr]
  have hnodup : (rows.map fun r => r.1).Nodup := by
    have hsorted : ((sortedStringKeys ac).map Prod.fst).Nodup :=
      (((List.perm_insertionSort _ ac).map Prod.fst).nodup_iff).mpr hac
    refine hsorted.sublist ?_
    rw [← hrows]
    refine map_filterMap_sublist _ _ fun e r hr => ?_
    obtain ⟨p, -, rfl⟩ := Option.map_eq_some_iff.mp hr
    rfl
  show (rows.foldl (fun (m : StrMap F64) r => m.insert r.1 r.2.1) ∅).entries.all _ = true ↔ _
  rw [List.all_eq_true]
  constructor
  · intro hall e he
    cases hp : e.2.acPower with
    | none => rfl
    | some p =>
      have hr : (e.1, p, deviceName e.2 ("AC Load " ++ e.1)) ∈ rows := (hmem _).mpr ⟨e, he, hp, rfl⟩
      have hlook := MapFill.lookup_foldl_insert (fun r : String × F64 × String => r.2.1) hnodup hr ∅
      exact hall _ (AList.mem_lookup_iff.mp hlook)
  · intro hall x hx
    rcases mem_foldl_insert (fun r : String × F64 × String => r.1) (fun r => r.2.1) hx with
      hx | ⟨r, hr, hval⟩
    · exact absurd hx (by simp)
    · obtain ⟨e, he, hp, -⟩ := (hmem r).mp hr
      have hin := hall e he
      rw [hp] at hin
      rw [hval]
      exact hin

section Parts

variable {all : LeafMap} (o : CerboOptions) {out : Overlay} (hall : FiniteLeaves all)
include hall

theorem finite_gridOverlay (h : ∀ f ∈ [Field.gridL1Available, .g1, .t1, .gridL2Available, .g2, .t2,
      .gridL3Available, .g3, .t3, .gt, .tt], out.val f = none) :
    (gridOverlay all out).finite = true ↔
      out.finite = true ∧ ∀ x ∈ gridDerived all, inRange x = true := by
  have hgrid := inRange_gridPhase (hall.devices .system) (hall.devices .grid) (hall.devices .vebus)
  have hmeter := inRange_firstNum (hall.devices .grid) ["Ac/Power"]
  simp only [List.forall_mem_cons, List.not_mem_nil, false_imp_iff, implies_true, and_true] at h
  unfold gridOverlay gridDerived Phase.all
  simp (disch := simp [h]) only [Overlay.finite_putIf, Bool.and_eq_true]
  simp only [List.map_cons, List.map_nil, List.cons_append, List.nil_append, List.forall_mem_cons,
    List.not_mem_nil, false_imp_iff, implies_true, and_true]
  constructor
  · rintro ⟨⟨⟨⟨⟨⟨⟨⟨⟨⟨⟨hout, -⟩, -⟩, h1⟩, -⟩, -⟩, h2⟩, -⟩, -⟩, h3⟩, hgt⟩, htt⟩
    exact ⟨hout, h1, h2, h3, (inRange_orElse (inRange_ite hmeter)).symm.trans hgt, htt⟩
  · rintro ⟨hout, h1, h2, h3, hgt, htt⟩
    exact ⟨⟨⟨⟨⟨⟨⟨⟨⟨⟨⟨hout, all_ptrBool _⟩, hgrid _⟩, h1⟩, all_ptrBool _⟩, hgrid _⟩, h2⟩,
      all_ptrBool _⟩, hgrid _⟩, h3⟩, (inRange_orElse (inRange_ite hmeter)).trans hgt⟩, htt⟩

theorem finite_vebusOverlay (h : ∀ f ∈ [Field.setpoint, .inverterState], out.val f = none) :
    (vebusOverlay all out).finite = true ↔ out.finite = true := by
  have hset := inRange_firstNum (hall.devices .vebus) ["Hub4/L1/AcPowerSetpoint"]
  simp only [List.forall_mem_cons, List.not_mem_nil, false_imp_iff, implies_true, and_true] at h
  unfold vebusOverlay
  simp (disch := simp [h]) only [Overlay.finite_putIf, Bool.and_eq_true]
  exact ⟨fun hp => hp.1.1, fun hout => ⟨⟨hout, hset⟩, all_string _⟩⟩

theorem finite_batteryOverlay (h : ∀ f ∈ [Field.batteries, .batteryVoltage, .bv, .batterySOC,
      .batteryCurrent, .bc, .batteryPower, .bp], out.val f = none) :
    (batteryOverlay all out).finite = true ↔
      out.finite = true ∧ ∀ x ∈ batteryDerived all, inRange x = true := by
  have hsys := hall.devices .system
  have hbats := hall.devices .battery
  have hshunt := finite_smartShunt hbats
  have hbattery : ∀ id, (deviceAt (devices all .battery) id).Finite := finite_deviceAt hbats
  have hreading : ∀ system path, inRange (((((smartShunt (devices all .battery)).num [path]).orElse
      fun _ => firstNum (devices all .system) ["Dc/Battery/" ++ system]).orElse fun _ =>
        (deviceAt (devices all .battery) (selectedBattery (devices all .system)
          (devices all .battery))).num [path])) = true := by
    intro system path
    rw [inRange_orElse ((hbattery _).num _), inRange_orElse (inRange_firstNum hsys _)]
    exact hshunt.num _
  simp only [List.forall_mem_cons, List.not_mem_nil, false_imp_iff, implies_true, and_true] at h
  unfold batteryOverlay batteryDerived
  dsimp only
  -- the rows come first
  generalize hout' : (if (devices all .battery).isEmpty = true then out else _) = out'
  have hnone : ∀ f ∈ [Field.batteryVoltage, .bv, .batterySOC, .batteryCurrent, .bc, .batteryPower,
      .bp], out'.val f = none := by
    rw [← hout']
    split_ifs <;> simp [h]
  simp only [List.forall_mem_cons, List.not_mem_nil, false_imp_iff, implies_true, and_true] at hnone
  simp (disch := simp [hnone]) only [Overlay.finite_putIf, Bool.and_eq_true]
  have hrows : out'.finite = true ↔ out.finite = true ∧
      ∀ e ∈ devices all .battery, inRange e.2.dcPower = true := by
    rw [← hout']
    split_ifs with hempty
    · rw [List.isEmpty_iff.mp hempty]
      simp
    · rw [Overlay.finite_put h.1, Bool.and_eq_true]
      exact and_congr_right fun _ => finite_batteryRows hbats
  have hsoc : inRange (((smartShunt (devices all .battery)).num ["Dc/0/Voltage"]).orElse fun _ =>
      firstNum (devices all .system) ["Dc/Battery/Voltage"]) = true := by
    rw [inRange_orElse (inRange_firstNum hsys _)]
    exact hshunt.num _
  rw [List.forall_mem_map]
  constructor
  · rintro ⟨⟨⟨⟨⟨⟨⟨hout, -⟩, -⟩, -⟩, -⟩, -⟩, -⟩, -⟩
    exact hrows.mp hout
  · intro hpow
    have hpower : inRange (((smartShunt (devices all .battery)).dcPower.orElse fun _ =>
        firstNum (devices all .system) ["Dc/Battery/Power"]).orElse fun _ =>
          (deviceAt (devices all .battery) (selectedBattery (devices all .system)
            (devices all .battery))).dcPower) = true := by
      rw [inRange_orElse, inRange_orElse (inRange_firstNum hsys _)]
      · rcases smartShunt_cases (devices all .battery) with hm | ⟨e, he, heq⟩
        · rw [hm]
          rfl
        · rw [heq]
          exact hpow.2 e he
      · unfold deviceAt
        cases he : entry (devices all .battery) (selectedBattery (devices all .system)
            (devices all .battery)) with
        | none => rfl
        | some d => exact hpow.2 _ (mem_of_entry he)
    exact ⟨⟨⟨⟨⟨⟨⟨hrows.mpr hpow, hreading _ _⟩, hreading _ _⟩, inRange_voltageSOC hsoc⟩,
      hreading _ _⟩,
      hreading _ _⟩, hpower⟩, hpower⟩

theorem finite_solarOverlay
    (h : ∀ f ∈ [Field.mpptChargers, .mpptIndividual, .pvInverters, .mpptTotal,
      .pvTotal, .pvInverterTotal, .solarTotal], out.val f = none) :
    (solarOverlay all out).finite = true ↔
      out.finite = true ∧ ∀ x ∈ solarDerived all, inRange x = true := by
  simp only [List.forall_mem_cons, List.not_mem_nil, false_imp_iff, implies_true, and_true] at h
  have hmppts := finite_mpptRows (hall.devices .solarcharger)
  have hpvs := finite_pvRows (hall.devices .pvinverter)
  unfold solarOverlay solarDerived
  dsimp only
  generalize hout₁ : (if (devices all .solarcharger).isEmpty = true then out else _) = out₁
  generalize hout₂ : (if (devices all .pvinverter).isEmpty = true then out₁ else _) = out₂
  have hnone₁ : ∀ f ∈ [Field.pvInverters, .mpptTotal, .pvTotal, .pvInverterTotal, .solarTotal],
      out₁.val f = none := by
    rw [← hout₁]
    split_ifs <;> simp [h]
  simp only [List.forall_mem_cons, List.not_mem_nil, false_imp_iff, implies_true,
    and_true] at hnone₁
  have hnone₂ : ∀ f ∈ [Field.mpptTotal, .pvTotal, .pvInverterTotal, .solarTotal],
      out₂.val f = none := by
    rw [← hout₂]
    split_ifs <;> simp [hnone₁]
  simp only [List.forall_mem_cons, List.not_mem_nil, false_imp_iff, implies_true,
    and_true] at hnone₂
  simp (disch := simp [hnone₂]) only [Overlay.finite_putIf, Bool.and_eq_true]
  have hrows₁ : out₁.finite = true ↔ out.finite = true ∧
      ∀ e ∈ devices all .solarcharger, inRange (mpptRow e.1 e.2).2 = true := by
    rw [← hout₁]
    split_ifs with hempty
    · rw [List.isEmpty_iff.mp hempty]
      simp
    · rw [Overlay.finite_put (by simp [h]), Overlay.finite_put h.1, Bool.and_eq_true,
        Bool.and_eq_true, and_assoc]
      exact and_congr_right fun _ => hmppts
  have hrows₂ : out₂.finite = true ↔ out₁.finite = true ∧
      ∀ e ∈ devices all .pvinverter, inRange (pvRow e.1 e.2).2 = true := by
    rw [← hout₂]
    split_ifs with hempty
    · rw [List.isEmpty_iff.mp hempty]
      simp
    · rw [Overlay.finite_put hnone₁.1, Bool.and_eq_true]
      exact and_congr_right fun _ => hpvs
  simp only [List.forall_mem_append, List.forall_mem_cons, List.forall_mem_map, List.not_mem_nil,
    false_imp_iff, implies_true, and_true]
  constructor
  · rintro ⟨⟨⟨⟨hout, hm⟩, -⟩, hp⟩, hs⟩
    obtain ⟨hout, hpv⟩ := hrows₂.mp hout
    obtain ⟨hout, hmp⟩ := hrows₁.mp hout
    exact ⟨hout, ⟨hmp, hpv⟩, hm, hp, hs⟩
  · rintro ⟨hout, ⟨hmp, hpv⟩, hm, hp, hs⟩
    exact ⟨⟨⟨⟨hrows₂.mpr ⟨hrows₁.mpr ⟨hout, hmp⟩, hpv⟩, hm⟩, hm⟩, hp⟩, hs⟩

omit hall in
theorem finite_loadsOverlay (h : ∀ f ∈ [Field.loads, .loadNames], out.val f = none) :
    (loadsOverlay all out).finite = true ↔
      out.finite = true ∧ ∀ x ∈ loadsDerived all, inRange x = true := by
  simp only [List.forall_mem_cons, List.not_mem_nil, false_imp_iff, implies_true, and_true] at h
  unfold loadsOverlay loadsDerived
  dsimp only
  rw [List.forall_mem_map]
  split_ifs with hempty
  · rw [List.isEmpty_iff.mp hempty]
    simp
  · rw [Overlay.finite_put (by simp [h]), Overlay.finite_put h.1, Bool.and_eq_true,
      Bool.and_eq_true,
      and_assoc]
    refine and_congr_right fun _ => ?_
    rw [and_iff_left (show Overlay.finiteValue .mapString _ = true from rfl)]
    exact finite_loads (nodup_devices all .acload)

theorem finite_waterOverlay (h : ∀ f ∈ [Field.waterLevel, .pumpSwitch, .waterValve, .pumpMode,
      .waterValveMode, .waterPumpMode], out.val f = none) :
    (waterOverlay all o out).finite = true ↔ out.finite = true := by
  simp only [List.forall_mem_cons, List.not_mem_nil, false_imp_iff, implies_true, and_true] at h
  have hlevel := (finite_deviceAt (hall.devices .tank) (itoa o.tankInstance)).isFloat_num ["Level"]
  unfold waterOverlay
  simp (disch := simp [h]) only [Overlay.finite_putIf, Bool.and_eq_true]
  constructor
  · rintro ⟨⟨⟨⟨⟨⟨hout, -⟩, -⟩, -⟩, -⟩, -⟩, -⟩
    exact hout
  · intro hout
    exact ⟨⟨⟨⟨⟨⟨hout, inRange_map hlevel fun n hn => F64.isFinite_mul_one hn⟩, all_bool _⟩,
      all_bool _⟩, all_int _⟩, all_int _⟩,
      all_int _⟩

omit hall in
theorem finite_applyESSOverlay (h : out.val .essMode = none) :
    (applyESSOverlay all out).finite = true ↔ out.finite = true := by
  unfold applyESSOverlay
  rw [Overlay.finite_putIf h, Bool.and_eq_true]
  exact ⟨fun hp => hp.1, fun hout => ⟨hout, all_essMode _⟩⟩

theorem finite_applyEVOverlay (h : ∀ f ∈ [Field.discoveredWaterEV, .evPresent, .evChargerPresent,
      .evPower, .carChargingPower, .evChargingPower, .evChargingKW, .carSOC], out.val f = none) :
    (applyEVOverlay all o out).finite = true ↔
      out.finite = true ∧ ∀ x ∈ evDerived all, inRange x = true := by
  simp only [List.forall_mem_cons, List.not_mem_nil, false_imp_iff, implies_true, and_true] at h
  have hrows : Overlay.finiteValue .sliceCerboDevice (GoSlice.ofList ([Kind.ev, .evcharger, .tank,
      .pump].flatMap fun kind => (sortedStringKeys (devices all kind)).map fun e =>
        inventoryRow kind e.1 e.2)) = true ↔ ∀ x ∈ evDerived all, inRange x = true := by
    show ([Kind.ev, .evcharger, .tank, .pump].flatMap fun kind =>
      (sortedStringKeys (devices all kind)).map fun e => inventoryRow kind e.1 e.2).all _ = true ↔ _
    rw [List.all_eq_true]
    unfold evDerived
    simp only [List.mem_flatMap, List.mem_map]
    constructor
    · rintro hall' x ⟨kind, hkind, e, he, rfl⟩
      have hrow := hall' _ ⟨kind, hkind, e, mem_sortedStringKeys.mpr he, rfl⟩
      rw [Bool.and_eq_true] at hrow
      exact hrow.2
    · rintro hx row ⟨kind, hkind, e, he, rfl⟩
      have he := mem_sortedStringKeys.mp he
      rw [Bool.and_eq_true]
      exact ⟨inRange_evSOC (hall.devices kind e he), hx _ ⟨kind, hkind, e, he, rfl⟩⟩
  unfold applyEVOverlay
  simp (disch := simp [h]) only [Overlay.finite_putIf, Overlay.finite_put, Bool.and_eq_true]
  constructor
  · rintro ⟨⟨⟨⟨⟨⟨⟨⟨hout, hinv⟩, -⟩, -⟩, -⟩, -⟩, -⟩, -⟩, -⟩
    exact ⟨hout, hrows.mp hinv⟩
  · rintro ⟨hout, hev⟩
    -- the devices that are shown are in the inventory
    have hpower : ∀ kind ∈ [Kind.ev, .evcharger, .tank, .pump], ∀ preferred,
        (selectEV (devices all kind) preferred).acPower.all F64.isFloat = true := by
      intro kind hkind preferred
      rcases selectEV_cases (devices all kind) preferred with hm | ⟨e, he, heq⟩
      · rw [hm]
        rfl
      · rw [heq]
        refine (hall.devices kind e he).isFloat_acPower (hev _ ?_)
        exact List.mem_flatMap.mpr ⟨kind, hkind, List.mem_map_of_mem he⟩
    have hsoc : ∀ kind preferred,
        inRange (evSOC (selectEV (devices all kind) preferred)) = true := by
      intro kind preferred
      rcases selectEV_cases (devices all kind) preferred with hm | ⟨e, he, heq⟩
      · rw [hm]
        rfl
      · rw [heq]
        exact inRange_evSOC (hall.devices kind e he)
    refine ⟨⟨⟨⟨⟨⟨⟨⟨hout, hrows.mpr hev⟩, rfl⟩, rfl⟩, ?_⟩, ?_⟩, ?_⟩, ?_⟩, ?_⟩
    · exact inRange_of_isFloat (hpower .ev (by decide) _)
    · exact inRange_of_isFloat (hpower .ev (by decide) _)
    · exact inRange_of_isFloat (hpower .evcharger (by decide) _)
    · exact inRange_map (hpower .evcharger (by decide) _) fun n hn =>
        F64.isFinite_div hn (by norm_num)
    · exact (inRange_orElse (inRange_ite (hsoc _ _))).trans (hsoc _ _)

end Parts

/-- The sums over phases and devices and the products of voltage and current that the reducer forms.
-/
def derived (all : LeafMap) : List (Option F64) :=
  gridDerived all ++ batteryDerived all ++ solarDerived all ++ loadsDerived all ++ evDerived all

/-- A part that outputs none of the members leaves them without an output. -/
theorem fresh {fs gs : List Field} {part : Overlay → Overlay}
    (hpart : ∀ (out : Overlay) {f : Field}, f ∉ gs → (part out).val f = out.val f)
    (hdisjoint : ∀ f ∈ fs, f ∉ gs) {out : Overlay} (h : ∀ f ∈ fs, out.val f = none) :
    ∀ f ∈ fs, (part out).val f = none :=
  fun f hf => (hpart out (hdisjoint f hf)).trans (h f hf)

/-- **The encoding.** Over finite readings the output is encoded when all sums and products are
finite, and only then. -/
theorem cerboOverlay_finite {all : LeafMap} (hall : FiniteLeaves all) (o : CerboOptions) :
    (cerboOverlay all o).finite = true ↔ ∀ x ∈ derived all, inRange x = true := by
  have hempty : Overlay.empty.finite = true := by decide
  unfold cerboOverlay derived
  rw [finite_applyESSOverlay, finite_applyEVOverlay o hall, finite_waterOverlay o hall,
    finite_loadsOverlay, finite_solarOverlay hall, finite_batteryOverlay hall,
    finite_vebusOverlay hall, finite_gridOverlay hall]
  · simp only [List.forall_mem_append, hempty, true_and, and_assoc]
  -- no part outputs a member of another
  · exact fun f _ => rfl
  · exact fresh (gridOverlay_val all) (by decide) fun f _ => rfl
  · exact fresh (vebusOverlay_val all) (by decide) (fresh (gridOverlay_val all) (by decide)
      fun f _ => rfl)
  · exact fresh (batteryOverlay_val all) (by decide) (fresh (vebusOverlay_val all) (by decide)
      (fresh (gridOverlay_val all) (by decide) fun f _ => rfl))
  · exact fresh (solarOverlay_val all) (by decide) (fresh (batteryOverlay_val all) (by decide)
      (fresh (vebusOverlay_val all) (by decide) (fresh (gridOverlay_val all) (by decide)
        fun f _ => rfl)))
  · exact fresh (loadsOverlay_val all) (by decide) (fresh (solarOverlay_val all) (by decide)
      (fresh (batteryOverlay_val all) (by decide) (fresh (vebusOverlay_val all) (by decide)
        (fresh (gridOverlay_val all) (by decide) fun f _ => rfl))))
  · exact fresh (waterOverlay_val all o) (by decide) (fresh (loadsOverlay_val all) (by decide)
      (fresh (solarOverlay_val all) (by decide) (fresh (batteryOverlay_val all) (by decide)
        (fresh (vebusOverlay_val all) (by decide) (fresh (gridOverlay_val all) (by decide)
          fun f _ => rfl)))))
  · rw [applyEVOverlay_val all o _ (by decide), waterOverlay_val all o _ (by decide),
      loadsOverlay_val all _ (by decide), solarOverlay_val all _ (by decide),
      batteryOverlay_val all _ (by decide), vebusOverlay_val all _ (by decide),
      gridOverlay_val all _ (by decide)]
    rfl

/-! ## The commit -/

namespace Client

variable {c c' : Client}

/-- Every output is marked as available and is what the state holds. -/
def Faithful (c c' : Client) : Prop :=
  ∀ f v, c.overlay.val f = some v → c'.state.available f.jsonName = true ∧ c'.state.field f = v

/-- The reading that the supported mode of the controller hides: a settings device that reports a
mode. -/
def essHidden (c : Client) : Bool :=
  c.selectableESSMode.isSome &&
    (sortedStringKeys (devices c.cerboLeaves .settings)).any fun e => (essModeOf e.2).isSome

/-- A value that is not finite is not what a cleared member holds. -/
theorem finiteValue_cleared (t : FieldType) : Overlay.finiteValue t t.cleared = true := by
  cases t <;> rfl

/-- **The commit is faithful** when no sum or product of readings leaves the finite range and no
supported mode of the controller hides a native one, and only then.

**Proof sketch.** If one output is not finite, the encoding fails, and every output is marked but
cleared; a cleared member holds no value that is not finite, so the commit is not faithful there. -/
theorem faithful_iff (hall : FiniteLeaves c.cerboLeaves) (h : c.applyCerboOverlays = some c') :
    c.Faithful c' ↔
      (∀ x ∈ derived c.cerboLeaves, inRange x = true) ∧ c.essHidden = false := by
  obtain ⟨c'', hc'', hov⟩ := c.applyCerboOverlays_spec
  obtain rfl := Option.some.inj (hc''.symm.trans h)
  rw [← cerboOverlay_finite hall c.options]
  change _ ↔ c.overlay.finite = true ∧ _
  have howned : ∀ {f v}, c.overlay.val f = some v → c''.cerboOwned.has f = true := by
    intro f v hv
    rw [hov.owned, hv, Option.isSome_some, Bool.or_true]
  have htel : ∀ {f v}, c.overlay.val f = some v → f ≠ .telemetryAvailable := by
    rintro f v hv rfl
    rw [overlay, cerboOverlay_val_eq_none _ _ (by decide)] at hv
    exact absurd hv (by simp)
  constructor
  · intro hfaithful
    constructor
    · by_contra hnot
      rw [Overlay.finite_iff, not_forall] at hnot
      obtain ⟨f, hf⟩ := hnot
      cases hv : c.overlay.val f with
      | none =>
        rw [hv] at hf
        exact hf rfl
      | some v =>
        rw [hv] at hf
        have hess : f ≠ .essMode := by
          rintro rfl
          exact hf rfl
        have hfield := hov.field f (htel hv) fun he => absurd he hess
        have hfinite : c.overlay.finite ≠ true := by
          intro hfin
          have hat := Overlay.finite_iff.mp hfin f
          rw [hv] at hat
          exact hf hat
        rw [howned hv, if_pos rfl, if_neg hfinite, (hfaithful f v hv).2] at hfield
        rw [hfield] at hf
        exact hf (finiteValue_cleared f.type)
    · rw [← Bool.not_eq_true]
      intro hhidden
      rw [essHidden, Bool.and_eq_true, List.any_eq_true] at hhidden
      obtain ⟨hsel, e, he, hmode⟩ := hhidden
      obtain ⟨mode, hmode'⟩ := Option.isSome_iff_exists.mp hsel
      have hsome : (c.overlay.val .essMode).isSome = true := by
        rw [overlay, cerboOverlay_essMode_eq, List.findSome?_isSome_iff]
        exact ⟨e, he, hmode⟩
      obtain ⟨m, hm⟩ := Option.isSome_iff_exists.mp hsome
      -- a native mode supports no selection, the mode of the controller does
      have heq : m = mode := (hfaithful .essMode m hm).2.symm.trans (hov.essMode mode hmode')
      have hno := cerboOverlay_essMode hm
      rw [heq, (Option.filter_eq_some_iff.mp hmode').2] at hno
      exact absurd hno (by simp)
  · rintro ⟨hfinite, hhidden⟩ f v hv
    refine ⟨?_, ?_⟩
    · rw [hov.avail f, howned hv, if_pos rfl, hv]
      rfl
    · have hsel : f = .essMode → c.selectableESSMode = none := by
        rintro rfl
        rw [← Option.not_isSome_iff_eq_none]
        intro hsel
        have hany : ((sortedStringKeys (devices c.cerboLeaves .settings)).any fun e =>
            (essModeOf e.2).isSome) = true := by
          rw [List.any_eq_true]
          rw [overlay, cerboOverlay_essMode_eq] at hv
          obtain ⟨e, he, hmode⟩ := List.exists_of_findSome?_eq_some hv
          exact ⟨e, he, by rw [hmode]; rfl⟩
        rw [essHidden, hsel, hany] at hhidden
        exact absurd hhidden (by simp)
      rw [hov.field f (htel hv) hsel, howned hv, if_pos rfl, if_pos hfinite, hv, Option.getD_some]

theorem finiteLeaves_of_entries {all : LeafMap}
    (h : (all.entries.all fun e => (number e.2).all F64.isFloat) = true) : FiniteLeaves all :=
  fun l v hv => List.all_eq_true.mp h ⟨l, v⟩ (AList.mem_lookup_iff.mp hv)

/-- A client with one battery and one tank. -/
def withBattery (voltage current : F64) : Client :=
  { state := State.zero
    cerboLeaves := ((AList.singleton ⟨.tank, "0", "Level"⟩ (.float64 50) : LeafMap).insert
      ⟨.battery, "1", "Dc/0/Voltage"⟩ (.float64 voltage)).insert
      ⟨.battery, "1", "Dc/0/Current"⟩ (.float64 current) }

theorem faithful_iff_battery : ∃ c', (withBattery 52 10).applyCerboOverlays = some c' ∧
    (withBattery 52 10).overlay.val .bp = some 520 ∧ (withBattery 52 10).Faithful c' := by
  obtain ⟨c', hc', -⟩ := (withBattery 52 10).applyCerboOverlays_spec
  refine ⟨c', hc', by decide +kernel, ?_⟩
  exact (faithful_iff (finiteLeaves_of_entries (by decide +kernel)) hc').mpr
    ⟨by decide +kernel, by decide +kernel⟩

/-- The power of the battery overflows, and the level of the tank is blank but marked. -/
theorem blank_after_overflow : ∃ c c' : Client, FiniteLeaves c.cerboLeaves ∧
    c.applyCerboOverlays = some c' ∧ c.overlay.val .waterLevel = some 50 ∧
    c'.state.available "water_level" = true ∧ c'.state.field .waterLevel = (0 : F64) := by
  obtain ⟨c', hc', hov⟩ := (withBattery (.fin (10 ^ 200)) (.fin (10 ^ 200))).applyCerboOverlays_spec
  have hval : (withBattery (.fin (10 ^ 200)) (.fin (10 ^ 200))).overlay.val .waterLevel =
      some 50 := by
    decide +kernel
  have howned : c'.cerboOwned.has .waterLevel = true := by
    rw [hov.owned, hval, Option.isSome_some, Bool.or_true]
  refine ⟨_, c', finiteLeaves_of_entries (by decide +kernel), hc', hval, ?_, ?_⟩
  · have havail := hov.avail .waterLevel
    rw [howned, if_pos rfl, hval] at havail
    exact havail
  · have hfinite : (withBattery (.fin (10 ^ 200)) (.fin (10 ^ 200))).overlay.finite = false := by
      decide +kernel
    have hfield := hov.field .waterLevel (by decide) (by decide)
    rw [howned, if_pos rfl, hfinite] at hfield
    exact hfield

end Client

end Dashboard
