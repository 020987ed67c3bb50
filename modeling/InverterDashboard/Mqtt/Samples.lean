import InverterDashboard.Mqtt.Outputs

set_option relaxedAutoImplicit false
set_option autoImplicit false

/-!
# Caches of nulls and zeros

The reducer probes a cache whose leaves are null but for one temporary zero. On such caches what is
output depends only on which leaves of enabled devices there are and which of them read a number:
no leaf is a text, every number is zero, and a `Connected` leaf always disables its device.

## Main definitions

* `Dashboard.LeafMap.Reads` — a leaf of an enabled device holds a number.
* `Dashboard.Answers` — a reported leaf of a device that is enabled.
* `Dashboard.Sample` — a cache of nulls and zeros over the reported leaves.
* `Dashboard.nulls`, `zeros`, `probe` — the caches of the reports and of their probes.

## Main results

* `Dashboard.firstNum_isSome_iff`, `mpptReading_isSome_iff`, `pvReading_isSome_iff`,
  `Sample.bankReading_isSome_iff`, `Sample.bankPower_isSome_iff` — when a reading is there.
* `Dashboard.reads_zeros_iff`, `reads_probe_iff`, `not_reads_nulls` — which leaves read a number.
-/

namespace Dashboard

open Go

/-! ## Readings -/

/-- A leaf of an enabled device holds a number. -/
def LeafMap.Reads (all : LeafMap) (l : Leaf) : Prop :=
  ∃ d, (l.inst, d) ∈ devices all l.kind ∧ (d.num [l.path]).isSome = true

/-- The devices of a kind are the enabled ones with a leaf, by their numbers. -/
theorem mem_devices_iff {all : LeafMap} {kind : Kind} {inst : String} {d : Device} :
    (inst, d) ∈ devices all kind ↔ d = deviceLeaves all kind inst ∧
      (∃ path, Leaf.mk kind inst path ∈ all) ∧ (atoi inst).isSome = true ∧ d.enabled = true := by
  unfold devices
  rw [List.mem_filter, List.mem_map]
  constructor
  · rintro ⟨⟨i, hi, he⟩, hd⟩
    obtain ⟨rfl, rfl⟩ := Prod.mk.inj he
    obtain ⟨⟨kind', inst', path⟩, hl, hinst⟩ := List.mem_filterMap.mp (List.mem_dedup.mp hi)
    split_ifs at hinst with hk
    obtain ⟨rfl, hn⟩ := hk
    obtain rfl : inst' = i := Option.some.inj hinst
    exact ⟨rfl, ⟨path, AList.mem_keys.mpr hl⟩, hn, hd⟩
  · rintro ⟨rfl, ⟨path, hl⟩, hn, hd⟩
    refine ⟨⟨inst, List.mem_dedup.mpr (List.mem_filterMap.mpr ?_), rfl⟩, hd⟩
    exact ⟨⟨kind, inst, path⟩, AList.mem_keys.mp hl, if_pos ⟨rfl, hn⟩⟩

/-- A device has a number when one of the paths holds one. -/
theorem Device.num_isSome_iff (d : Device) (paths : List String) :
    (d.num paths).isSome = true ↔ ∃ path ∈ paths, (d.num [path]).isSome = true := by
  unfold Device.num
  rw [List.findSome?_isSome_iff]
  simp only [List.findSome?_singleton]

/-- The paths of `acPower`. -/
def acPaths : List String := ["Ac/Power", "Ac/L1/Power", "Ac/L2/Power", "Ac/L3/Power"]

theorem Device.acPower_isSome_iff (d : Device) :
    d.acPower.isSome = true ↔ ∃ path ∈ acPaths, (d.num [path]).isSome = true := by
  have hsum : (d.sum ["Ac/L1/Power", "Ac/L2/Power", "Ac/L3/Power"]).isSome = true ↔
      ∃ path ∈ ["Ac/L1/Power", "Ac/L2/Power", "Ac/L3/Power"], (d.num [path]).isSome = true := by
    have houtput : d.sum ["Ac/L1/Power", "Ac/L2/Power", "Ac/L3/Power"] =
        outputSum (["Ac/L1/Power", "Ac/L2/Power", "Ac/L3/Power"].map fun path => d.num [path]) :=
      rfl
    rw [houtput, outputSum_isSome_iff]
    simp
  rw [Device.acPower, isSome_orElse, hsum]
  simp [acPaths]

theorem Device.dcPower_isSome_iff (d : Device) :
    d.dcPower.isSome = true ↔ (d.num ["Dc/0/Power"]).isSome = true ∨
      (d.num ["Dc/0/Voltage"]).isSome = true ∧ (d.num ["Dc/0/Current"]).isSome = true := by
  rw [Device.dcPower, isSome_orElse]
  cases d.num ["Dc/0/Voltage"] <;> cases d.num ["Dc/0/Current"] <;> simp

/-- The power of a charger. -/
theorem mpptRow_isSome_iff (id : String) (d : Device) : (mpptRow id d).2.isSome = true ↔
    (d.num ["Yield/Power"]).isSome = true ∨ d.dcPower.isSome = true := isSome_orElse _ _

section Readings

variable {all : LeafMap}

/-- The first number of a kind is there when a device reads one. -/
theorem firstNum_isSome_iff (kind : Kind) (paths : List String) :
    (firstNum (devices all kind) paths).isSome = true ↔
      ∃ i, ∃ path ∈ paths, all.Reads ⟨kind, i, path⟩ := by
  unfold firstNum
  rw [List.findSome?_isSome_iff]
  constructor
  · rintro ⟨⟨i, d⟩, he, hnum⟩
    obtain ⟨path, hpath, h⟩ := (Device.num_isSome_iff d paths).mp hnum
    exact ⟨i, path, hpath, d, mem_sortedStringKeys.mp he, h⟩
  · rintro ⟨i, path, hpath, d, hd, h⟩
    exact ⟨(i, d), mem_sortedStringKeys.mpr hd,
      (Device.num_isSome_iff d paths).mpr ⟨path, hpath, h⟩⟩

theorem firstNum_singleton_isSome_iff (kind : Kind) (path : String) :
    (firstNum (devices all kind) [path]).isSome = true ↔ ∃ i, all.Reads ⟨kind, i, path⟩ := by
  rw [firstNum_isSome_iff]
  simp only [List.mem_singleton, exists_eq_left]

/-- The device of an instance reads a number when its leaf does. -/
theorem deviceAt_num_isSome_iff (kind : Kind) (inst path : String) :
    ((deviceAt (devices all kind) inst).num [path]).isSome = true ↔
      all.Reads ⟨kind, inst, path⟩ := by
  unfold deviceAt LeafMap.Reads
  cases he : entry (devices all kind) inst with
  | none =>
    have hno : ∀ d, (inst, d) ∉ devices all kind := entry_eq_none_iff.mp he
    refine iff_of_false (by simp [Device.missing, Device.num]) ?_
    rintro ⟨d, hd, -⟩
    exact hno d hd
  | some d =>
    constructor
    · exact fun h => ⟨d, mem_of_entry he, h⟩
    · rintro ⟨d', hd', h⟩
      have := entry_of_mem (nodup_devices all kind) hd'
      rw [he] at this
      obtain rfl := Option.some.inj this
      exact h

/-- The consumption of a phase. -/
theorem consumptionReading_isSome_iff (p : Phase) :
    (consumptionReading all p).isSome = true ↔ ∃ i, ∃ path ∈
      ["Ac/Consumption/" ++ p.label ++ "/Power", "Ac/ConsumptionOnInput/" ++ p.label ++ "/Power",
        "Ac/ConsumptionOnOutput/" ++ p.label ++ "/Power"], all.Reads ⟨.system, i, path⟩ := by
  unfold consumptionReading consumptionPhase
  dsimp only
  rw [isSome_orElse, isSome_ite_add]
  simp only [firstNum_singleton_isSome_iff, List.exists_mem_cons_iff, List.not_mem_nil, false_and,
    exists_false, or_false, exists_or]

/-- A sum over the devices of a kind. -/
theorem outputSum_devices_isSome_iff (kind : Kind) (row : String → Device → Option F64) :
    (outputSum ((sortedStringKeys (devices all kind)).map fun e => row e.1 e.2)).isSome = true ↔
      ∃ i d, (i, d) ∈ devices all kind ∧ (row i d).isSome = true := by
  rw [outputSum_isSome_iff]
  constructor
  · rintro ⟨v, hv, h⟩
    obtain ⟨⟨i, d⟩, he, rfl⟩ := List.mem_map.mp hv
    exact ⟨i, d, mem_sortedStringKeys.mp he, h⟩
  · rintro ⟨i, d, hd, h⟩
    exact ⟨_, List.mem_map.mpr ⟨(i, d), mem_sortedStringKeys.mpr hd, rfl⟩, h⟩

/-- The devices of one instance are one. -/
theorem eq_of_mem_devices {kind : Kind} {inst : String} {d d' : Device}
    (h : (inst, d) ∈ devices all kind) (h' : (inst, d') ∈ devices all kind) : d = d' := by
  rw [(mem_devices_iff.mp h).1, (mem_devices_iff.mp h').1]

/-- The total of the solar chargers. -/
theorem mpptReading_isSome_iff :
    (mpptReading all).isSome = true ↔ (∃ i, all.Reads ⟨.system, i, "Dc/Pv/Power"⟩) ∨
      ∃ i, all.Reads ⟨.solarcharger, i, "Yield/Power"⟩ ∨
        all.Reads ⟨.solarcharger, i, "Dc/0/Power"⟩ ∨
        all.Reads ⟨.solarcharger, i, "Dc/0/Voltage"⟩ ∧
          all.Reads ⟨.solarcharger, i, "Dc/0/Current"⟩ := by
  rw [mpptReading, isSome_orElse, firstNum_singleton_isSome_iff, outputSum_devices_isSome_iff
    .solarcharger fun i d => (mpptRow i d).2]
  refine or_congr Iff.rfl (exists_congr fun i => ?_)
  simp only [mpptRow_isSome_iff, Device.dcPower_isSome_iff]
  constructor
  · rintro ⟨d, hd, h | h | ⟨hv, hc⟩⟩
    · exact Or.inl ⟨d, hd, h⟩
    · exact Or.inr (Or.inl ⟨d, hd, h⟩)
    · exact Or.inr (Or.inr ⟨⟨d, hd, hv⟩, d, hd, hc⟩)
  · rintro (⟨d, hd, h⟩ | ⟨d, hd, h⟩ | ⟨⟨d, hd, hv⟩, d', hd', hc⟩)
    · exact ⟨d, hd, Or.inl h⟩
    · exact ⟨d, hd, Or.inr (Or.inl h)⟩
    · obtain rfl := eq_of_mem_devices hd hd'
      exact ⟨d, hd, Or.inr (Or.inr ⟨hv, hc⟩)⟩

/-- The total of the PV inverters. -/
theorem pvReading_isSome_iff :
    (pvReading all).isSome = true ↔
      (∃ i, ∃ path ∈ systemPVPaths, all.Reads ⟨.system, i, path⟩) ∨
        ∃ i, ∃ path ∈ acPaths, all.Reads ⟨.pvinverter, i, path⟩ := by
  have hrow : ∀ i d, ((Dashboard.pvRow i d).2).isSome = true ↔
      ∃ path ∈ acPaths, (d.num [path]).isSome = true :=
    fun i d => Device.acPower_isSome_iff d
  rw [pvReading, isSome_orElse, outputSum_isSome_iff, outputSum_devices_isSome_iff
    .pvinverter fun i d => (Dashboard.pvRow i d).2]
  refine or_congr ?_ (exists_congr fun i => ?_)
  · constructor
    · rintro ⟨v, hv, h⟩
      obtain ⟨path, hpath, rfl⟩ := List.mem_map.mp hv
      obtain ⟨i, hi⟩ := (firstNum_singleton_isSome_iff .system path).mp h
      exact ⟨i, path, hpath, hi⟩
    · rintro ⟨i, path, hpath, h⟩
      exact ⟨_, List.mem_map_of_mem hpath, (firstNum_singleton_isSome_iff .system path).mpr ⟨i, h⟩⟩
  · simp only [hrow]
    constructor
    · rintro ⟨d, hd, path, hpath, h⟩
      exact ⟨path, hpath, d, hd, h⟩
    · rintro ⟨path, hpath, d, hd, h⟩
      exact ⟨d, hd, path, hpath, h⟩

/-- A leaf of the configured instance. -/
theorem configuredNum_isSome_iff (kind : Kind) (inst : ℤ) (path : String) :
    (configuredNum all kind inst path).isSome = true ↔ all.Reads ⟨kind, itoa inst, path⟩ :=
  deviceAt_num_isSome_iff kind (itoa inst) path

end Readings

/-! ## Samples -/

/-- A reported leaf of a device that no `Connected` report disables. -/
def Answers (ls : List Leaf) (l : Leaf) : Prop :=
  l ∈ ls ∧ Leaf.mk l.kind l.inst "Connected" ∉ ls

/-- A cache of nulls and zeros over the reported leaves. -/
structure Sample (all : LeafMap) (ls : List Leaf) : Prop where
  keys : ∀ l, l ∈ all ↔ l ∈ ls
  values : ∀ l v, all.lookup l = some v → v = .nil ∨ v = .float64 0
  numbers : ∀ l ∈ ls, (atoi l.inst).isSome = true

namespace Sample

variable {all : LeafMap} {ls : List Leaf} (h : Sample all ls)
include h

/-- Whatever a `Connected` leaf of a sample holds, it disables the device. -/
theorem enabled_iff (kind : Kind) (inst : String) :
    (deviceLeaves all kind inst).enabled = true ↔ Leaf.mk kind inst "Connected" ∉ ls := by
  rw [← h.keys, ← AList.lookup_isSome, Device.enabled, deviceLeaves]
  cases hv : all.lookup ⟨kind, inst, "Connected"⟩ with
  | none => simp
  | some v =>
    rcases h.values _ _ hv with rfl | rfl
    · simp [number]
    · exact iff_of_false (by decide) (by simp)

/-- The devices of a kind are those with an answer. -/
theorem mem_devices_iff {kind : Kind} {inst : String} {d : Device} :
    (inst, d) ∈ devices all kind ↔ d = deviceLeaves all kind inst ∧
      ∃ path, Answers ls ⟨kind, inst, path⟩ := by
  rw [Dashboard.mem_devices_iff]
  constructor
  · rintro ⟨rfl, ⟨path, hl⟩, -, hd⟩
    exact ⟨rfl, path, (h.keys _).mp hl, (h.enabled_iff kind inst).mp hd⟩
  · rintro ⟨rfl, path, hl, hconn⟩
    exact ⟨rfl, ⟨path, (h.keys _).mpr hl⟩, h.numbers _ hl, (h.enabled_iff kind inst).mpr hconn⟩

/-- There is a device exactly when a leaf of the kind answers. -/
theorem isEmpty_devices_iff (kind : Kind) :
    (devices all kind).isEmpty = false ↔ ∃ i path, Answers ls ⟨kind, i, path⟩ := by
  rw [List.isEmpty_eq_false_iff_exists_mem]
  constructor
  · rintro ⟨⟨i, d⟩, hd⟩
    exact ⟨i, (h.mem_devices_iff.mp hd).2⟩
  · rintro ⟨i, hi⟩
    exact ⟨(i, _), h.mem_devices_iff.mpr ⟨rfl, hi⟩⟩

/-- Only a zero is a number. -/
theorem number_isSome_iff {l : Leaf} :
    ((all.lookup l).bind number).isSome = true ↔ all.lookup l = some (.float64 0) := by
  cases hv : all.lookup l with
  | none => simp
  | some v =>
    rcases h.values _ _ hv with rfl | rfl
    · simp [number]
    · exact iff_of_true (by decide) rfl

/-- The answers that hold a zero read a number. -/
theorem reads_iff (l : Leaf) :
    all.Reads l ↔ Answers ls l ∧ all.lookup l = some (.float64 0) := by
  have hnum : ((deviceLeaves all l.kind l.inst).num [l.path]).isSome = true ↔
      all.lookup l = some (.float64 0) := by
    rw [← h.number_isSome_iff, Device.num, List.findSome?_singleton]
    rfl
  constructor
  · rintro ⟨d, hd, hread⟩
    obtain ⟨rfl, path, hans⟩ := h.mem_devices_iff.mp hd
    have hv := hnum.mp hread
    exact ⟨⟨(h.keys l).mp (AList.lookup_isSome.mp (by rw [hv]; rfl)), hans.2⟩, hv⟩
  · rintro ⟨hans, hv⟩
    exact ⟨_, h.mem_devices_iff.mpr ⟨rfl, l.path, hans⟩, hnum.mpr hv⟩

/-! ### Values -/

/-- A device of a sample holds nulls and zeros. -/
theorem value_of_mem_devices {kind : Kind} {inst path : String} {d : Device} {v : Any}
    (hd : (inst, d) ∈ devices all kind) (hv : d path = some v) : v = .nil ∨ v = .float64 0 := by
  obtain ⟨rfl, -⟩ := h.mem_devices_iff.mp hd
  exact h.values _ _ hv

/-- Every number of a sample is zero. -/
theorem num_eq_zero {kind : Kind} {inst : String} {d : Device} {paths : List String} {n : F64}
    (hd : (inst, d) ∈ devices all kind) (hn : d.num paths = some n) : n = 0 := by
  obtain ⟨path, -, hp⟩ := List.exists_of_findSome?_eq_some hn
  obtain ⟨v, hv, hnum⟩ := Option.bind_eq_some_iff.mp hp
  rcases h.value_of_mem_devices hd hv with rfl | rfl
  · cases hnum
  · exact (Option.some.inj hnum).symm

theorem firstNum_eq_zero {kind : Kind} {paths : List String} {n : F64}
    (hn : firstNum (devices all kind) paths = some n) : n = 0 := by
  obtain ⟨⟨i, d⟩, he, hnum⟩ := List.exists_of_findSome?_eq_some hn
  exact h.num_eq_zero (mem_sortedStringKeys.mp he) hnum

theorem configuredNum_eq_zero {kind : Kind} {inst : ℤ} {path : String} {n : F64}
    (hn : configuredNum all kind inst path = some n) : n = 0 := by
  unfold configuredNum deviceAt at hn
  cases he : entry (devices all kind) (itoa inst) with
  | none =>
    rw [he] at hn
    cases hn
  | some d =>
    rw [he] at hn
    exact h.num_eq_zero (mem_of_entry he) hn

/-- No leaf of a sample is a text. -/
theorem str_eq_empty {kind : Kind} {inst : String} {d : Device} (hd : (inst, d) ∈ devices all kind)
    (paths : List String) : d.str paths = "" := by
  have hnone : (paths.findSome? fun p => ((d p).bind Any.string?).bind fun s =>
      if trimSpace s = "" then none else some (trimSpace s)) = none := by
    rw [List.findSome?_eq_none_iff]
    intro p _
    cases hv : d p with
    | none => rfl
    | some v => rcases h.value_of_mem_devices hd hv with rfl | rfl <;> rfl
  rw [Device.str, hnone]
  rfl

/-- So no battery of a sample is a shunt. -/
theorem shuntDevice_eq : shuntDevice all = Device.missing := by
  have hnone : ((sortedStringKeys (devices all .battery)).filter fun e =>
      containsText (toLower (deviceName e.2 "")) "shunt") = [] := by
    rw [List.filter_eq_nil_iff]
    rintro ⟨i, d⟩ he
    have hname : deviceName d "" = "" := by
      unfold deviceName
      rw [h.str_eq_empty (mem_sortedStringKeys.mp he)]
      rfl
    rw [hname]
    decide
  unfold shuntDevice smartShunt
  dsimp only
  rw [hnone]
  rfl

/-- The active input is never a mains input. -/
theorem activeInput_eq_none (p : Phase) :
    activeInput (devices all .system) (devices all .vebus) p = none := by
  unfold activeInput
  cases hn : firstNum (devices all .system) ["Ac/ActiveIn/Source"] with
  | none => rfl
  | some n =>
    obtain rfl := h.firstNum_eq_zero hn
    rfl

/-! ### The grid -/

/-- A device of a sample has the leaves that answer. -/
theorem isSome_leaf_iff {kind : Kind} {inst path : String} {d : Device}
    (hd : (inst, d) ∈ devices all kind) :
    (d path).isSome = true ↔ Answers ls ⟨kind, inst, path⟩ := by
  obtain ⟨rfl, path', hans⟩ := h.mem_devices_iff.mp hd
  rw [deviceLeaves, AList.lookup_isSome, h.keys]
  exact ⟨fun hl => ⟨hl, hans.2⟩, fun hl => hl.1⟩

theorem firstLeaf_isSome_iff (kind : Kind) (path : String) :
    (firstLeaf (devices all kind) path).isSome = true ↔ ∃ i, Answers ls ⟨kind, i, path⟩ := by
  unfold firstLeaf
  rw [List.findSome?_isSome_iff]
  simp only [Option.isSome_map]
  constructor
  · rintro ⟨⟨i, d⟩, he, hleaf⟩
    exact ⟨i, (h.isSome_leaf_iff (mem_sortedStringKeys.mp he)).mp hleaf⟩
  · rintro ⟨i, hans⟩
    have hd := h.mem_devices_iff.mpr ⟨rfl, path, hans⟩
    exact ⟨_, mem_sortedStringKeys.mpr hd, (h.isSome_leaf_iff hd).mpr hans⟩

/-- Where every answer reads a number, so does the first one. -/
theorem firstLeaf_of_reads {kind : Kind} {path : String}
    (hans : ∃ i, Answers ls ⟨kind, i, path⟩)
    (hreads : ∀ i, Answers ls ⟨kind, i, path⟩ → all.Reads ⟨kind, i, path⟩) :
    ∃ n, firstLeaf (devices all kind) path = some (some n) := by
  obtain ⟨r, hr⟩ := Option.isSome_iff_exists.mp ((h.firstLeaf_isSome_iff kind path).mpr hans)
  obtain ⟨⟨i, d⟩, he, hleaf⟩ := List.exists_of_findSome?_eq_some hr
  have hd := mem_sortedStringKeys.mp he
  obtain ⟨v, hv, rfl⟩ := Option.map_eq_some_iff.mp hleaf
  have hans := (h.isSome_leaf_iff hd).mp (Option.isSome_of_eq_some hv)
  have hzero := ((h.reads_iff _).mp (hreads i hans)).2
  obtain ⟨rfl, -⟩ := h.mem_devices_iff.mp hd
  obtain rfl : v = .float64 0 := Option.some.inj (hv.symm.trans hzero)
  exact ⟨0, hr⟩

end Sample

/-- The leaf of the system with the grid power of a phase. -/
def gridPath (p : Phase) : String := "Ac/Grid/" ++ p.label ++ "/Power"

/-- The leaf of a meter with the power of a phase. -/
def meterPath (p : Phase) : String := "Ac/" ++ p.label ++ "/Power"

/-- The grid power of a phase was reported. -/
def GridSeen (ls : List Leaf) (p : Phase) : Prop :=
  (∃ i, Answers ls ⟨.system, i, gridPath p⟩) ∨ ∃ i, Answers ls ⟨.grid, i, meterPath p⟩

namespace Sample

variable {all : LeafMap} {ls : List Leaf} (h : Sample all ls)
include h

theorem phaseKnown_isSome_iff (p : Phase) :
    (phaseKnown (gridReading all p)).isSome = true ↔ GridSeen ls p := by
  rw [GridSeen, ← h.firstLeaf_isSome_iff, ← h.firstLeaf_isSome_iff, gridReading, gridPhase,
    h.activeInput_eq_none]
  change _ ↔ (firstLeaf _ ("Ac/Grid/" ++ p.label ++ "/Power")).isSome = true ∨
    (firstLeaf _ ("Ac/" ++ p.label ++ "/Power")).isSome = true
  cases firstLeaf (devices all .system) ("Ac/Grid/" ++ p.label ++ "/Power") with
  | some n => simp [phaseKnown]
  | none => cases firstLeaf (devices all .grid) ("Ac/" ++ p.label ++ "/Power") <;> simp [phaseKnown]

/-- The grid power of a phase is known where every report of it that counts reads a number. The
meters count only while the system has not reported the phase. -/
theorem gridReading_isSome {p : Phase} (hseen : GridSeen ls p)
    (hsys : ∀ i, Answers ls ⟨.system, i, gridPath p⟩ → all.Reads ⟨.system, i, gridPath p⟩)
    (hgrid : (∀ i, ¬Answers ls ⟨.system, i, gridPath p⟩) →
      ∀ i, Answers ls ⟨.grid, i, meterPath p⟩ → all.Reads ⟨.grid, i, meterPath p⟩) :
    (gridReading all p).2.isSome = true := by
  rw [gridReading, gridPhase]
  by_cases hs : ∃ i, Answers ls ⟨.system, i, gridPath p⟩
  · obtain ⟨n, hn⟩ := h.firstLeaf_of_reads hs hsys
    rw [show firstLeaf (devices all .system) ("Ac/Grid/" ++ p.label ++ "/Power") = _ from hn]
    rfl
  · have hnone : firstLeaf (devices all .system) ("Ac/Grid/" ++ p.label ++ "/Power") = none :=
      Option.not_isSome_iff_eq_none.mp fun hsome =>
        hs ((h.firstLeaf_isSome_iff .system (gridPath p)).mp hsome)
    obtain ⟨n, hn⟩ := h.firstLeaf_of_reads (hseen.resolve_left hs)
      (hgrid fun i hi => hs ⟨i, hi⟩)
    rw [hnone, show firstLeaf (devices all .grid) ("Ac/" ++ p.label ++ "/Power") = _ from hn]
    rfl

/-! ### The bank -/

end Sample

/-- The battery the bank falls back to: the instance 0 that a zero of systemcalc names, else the
only battery. -/
def BankInstance (reads : Leaf → Prop) (ls : List Leaf) (inst : String) : Prop :=
  (∃ i, reads ⟨.system, i, "Dc/Battery/Instance"⟩) ∧ inst = "0" ∨
    (¬∃ i, reads ⟨.system, i, "Dc/Battery/Instance"⟩) ∧
      ∀ i, (∃ path, Answers ls ⟨.battery, i, path⟩) ↔ i = inst

namespace Sample

variable {all : LeafMap} {ls : List Leaf} (h : Sample all ls)
include h

theorem selectedBattery_eq_iff {inst : String}
    (hon : ∃ path, Answers ls ⟨.battery, inst, path⟩) :
    selectedBattery (devices all .system) (devices all .battery) = inst ↔
      BankInstance all.Reads ls inst := by
  unfold BankInstance selectedBattery
  rw [← firstNum_singleton_isSome_iff]
  cases hn : firstNum (devices all .system) ["Dc/Battery/Instance"] with
  | some n =>
    obtain rfl := h.firstNum_eq_zero hn
    have hzero : itoa (F64.toInt 0) = "0" := by decide
    simp [hzero, eq_comm]
  | none =>
    have hmem : ∀ i, (∃ path, Answers ls ⟨.battery, i, path⟩) ↔
        i ∈ (devices all .battery).map Prod.fst := by
      intro i
      constructor
      · exact fun hi => List.mem_map_of_mem (h.mem_devices_iff.mpr ⟨rfl, hi⟩)
      · intro hi
        obtain ⟨⟨j, d⟩, hd, rfl⟩ := List.mem_map.mp hi
        exact (h.mem_devices_iff.mp hd).2
    have hempty : inst ≠ "" := by
      rintro rfl
      obtain ⟨path, hans⟩ := hon
      have hnumber : (atoi "").isSome = true := h.numbers _ hans.1
      exact absurd hnumber (by decide)
    have hnodup := nodup_devices all .battery
    simp only [Option.isSome_none, Bool.false_eq_true, false_and, false_or, not_false_eq_true,
      true_and, hmem]
    rw [hmem] at hon
    generalize devices all .battery = bats at hon hnodup
    match bats, hon, hnodup with
    | [e], hon, _ =>
      constructor
      · rintro rfl i
        simp
      · intro hall
        exact (hall e.1).mp (by simp)
    | e₁ :: e₂ :: bats, hon, hnodup =>
      refine iff_of_false (fun heq => hempty heq.symm) fun hall => ?_
      have h₁ := (hall e₁.1).mp (by simp)
      have h₂ := (hall e₂.1).mp (by simp)
      simp [h₁, h₂] at hnodup

/-- What holds of reporting batteries only holds of the selected battery when it holds of the
instance the bank falls back to. -/
theorem selectedBattery_iff {q : String → Prop}
    (hq : ∀ i, q i → ∃ path, Answers ls ⟨.battery, i, path⟩) :
    q (selectedBattery (devices all .system) (devices all .battery)) ↔
      ∃ b, BankInstance all.Reads ls b ∧ q b := by
  constructor
  · exact fun hread => ⟨_, (h.selectedBattery_eq_iff (hq _ hread)).mp rfl, hread⟩
  · rintro ⟨b, hb, hread⟩
    rwa [(h.selectedBattery_eq_iff (hq b hread)).mpr hb]

/-- A metric of the bank comes from systemcalc or from the selected battery. -/
theorem bankReading_isSome_iff (name : String) :
    (bankReading all name).isSome = true ↔
      (∃ i, all.Reads ⟨.system, i, "Dc/Battery/" ++ name⟩) ∨
        ∃ b, BankInstance all.Reads ls b ∧ all.Reads ⟨.battery, b, "Dc/0/" ++ name⟩ := by
  have hshunt : (Device.missing.num ["Dc/0/" ++ name]).isSome = false := by
    simp [Device.num, Device.missing]
  rw [bankReading, isSome_orElse, isSome_orElse, h.shuntDevice_eq, hshunt,
    firstNum_singleton_isSome_iff, bankDevice, deviceAt_num_isSome_iff,
    ← h.selectedBattery_iff fun i hi => ⟨_, ((h.reads_iff _).mp hi).1⟩]
  simp

/-- So does the power of the bank. -/
theorem bankPower_isSome_iff :
    (bankPower all).isSome = true ↔ (∃ i, all.Reads ⟨.system, i, "Dc/Battery/Power"⟩) ∨
      ∃ b, BankInstance all.Reads ls b ∧ (all.Reads ⟨.battery, b, "Dc/0/Power"⟩ ∨
        all.Reads ⟨.battery, b, "Dc/0/Voltage"⟩ ∧ all.Reads ⟨.battery, b, "Dc/0/Current"⟩) := by
  have hshunt : Device.missing.dcPower.isSome = false := by decide
  have hon : ∀ i, (all.Reads ⟨.battery, i, "Dc/0/Power"⟩ ∨
      all.Reads ⟨.battery, i, "Dc/0/Voltage"⟩ ∧ all.Reads ⟨.battery, i, "Dc/0/Current"⟩) →
      ∃ path, Answers ls ⟨.battery, i, path⟩ := by
    rintro i (hi | ⟨hi, -⟩)
    · exact ⟨_, ((h.reads_iff _).mp hi).1⟩
    · exact ⟨_, ((h.reads_iff _).mp hi).1⟩
  rw [bankPower, isSome_orElse, isSome_orElse, h.shuntDevice_eq, hshunt,
    firstNum_singleton_isSome_iff, ← h.selectedBattery_iff hon, bankDevice,
    Device.dcPower_isSome_iff]
  simp only [deviceAt_num_isSome_iff, Bool.false_eq_true, false_or]

/-- The estimate of the state of charge needs a voltage from systemcalc. -/
theorem socVoltage_isSome_iff :
    (socVoltage all).isSome = true ↔ ∃ i, all.Reads ⟨.system, i, "Dc/Battery/Voltage"⟩ := by
  have hshunt : (Device.missing.num ["Dc/0/Voltage"]).isSome = false := by
    simp [Device.num, Device.missing]
  rw [socVoltage, isSome_orElse, h.shuntDevice_eq, hshunt, firstNum_singleton_isSome_iff]
  simp

/-! ### Water and ESS -/

/-- The reading of a configured leaf is valid, since it is zero. -/
theorem configuredNum_bind_isSome_iff {α : Type} {reading : F64 → Option α}
    (hzero : (reading 0).isSome = true) (kind : Kind) (inst : ℤ) (path : String) :
    ((configuredNum all kind inst path).bind reading).isSome = true ↔
      all.Reads ⟨kind, itoa inst, path⟩ := by
  rw [← configuredNum_isSome_iff]
  cases hn : configuredNum all kind inst path with
  | none => simp
  | some n =>
    obtain rfl := h.configuredNum_eq_zero hn
    simpa using hzero

/-- A zero is a mode with a name, whatever the state of BatteryLife. -/
theorem essModeOf_isSome_iff {inst : String} {d : Device}
    (hd : (inst, d) ∈ devices all .settings) :
    (essModeOf d).isSome = true ↔ (d.num ["Settings/CGwacs/Hub4Mode"]).isSome = true := by
  unfold essModeOf
  cases hn : d.num ["Settings/CGwacs/Hub4Mode"] with
  | none => simp
  | some n =>
    obtain rfl := h.num_eq_zero hd hn
    have hwhole : wholeNumber 0 = true := by decide +kernel
    have hname : ∀ bl, essModeName (F64.toInt 0) bl = some "Unknown (0)" := fun _ => rfl
    simp [Option.filter, hwhole, hname]

/-- The mode is known exactly when a `Hub4Mode` leaf reads a number. -/
theorem essOutput_iff {f : Field} :
    ESSOutput all f ↔ f = .essMode ∧ ∃ i, all.Reads ⟨.settings, i, "Settings/CGwacs/Hub4Mode"⟩ := by
  refine and_congr Iff.rfl ?_
  constructor
  · rintro ⟨⟨i, d⟩, hd, hmode⟩
    exact ⟨i, d, hd, (h.essModeOf_isSome_iff hd).mp hmode⟩
  · rintro ⟨i, d, hd, hnum⟩
    exact ⟨(i, d), hd, (h.essModeOf_isSome_iff hd).mpr hnum⟩

/-! ### Vehicles -/

/-- A percentage of zero is valid. -/
theorem evSOC_isSome_iff {kind : Kind} {inst : String} {d : Device}
    (hd : (inst, d) ∈ devices all kind) :
    (evSOC d).isSome = true ↔ (d.num ["Soc"]).isSome = true := by
  unfold evSOC
  cases hn : d.num ["Soc"] with
  | none => simp
  | some n =>
    obtain rfl := h.num_eq_zero hd hn
    have hvalid : (F64.le 0 0 && F64.le 0 100) = true := by decide
    simp [Option.filter, hvalid]

end Sample

/-- The instance a preference allows: a negative one allows every instance. -/
def Preferred (preferred : ℤ) (inst : String) : Prop := 0 ≤ preferred → inst = itoa preferred

/-- The vehicle that is shown is missing or a device the preference allows. -/
theorem selectEV_preferred (ds : List (String × Device)) (preferred : ℤ) :
    selectEV ds preferred = Device.missing ∨
      ∃ e ∈ ds, Preferred preferred e.1 ∧ selectEV ds preferred = e.2 := by
  unfold selectEV
  split_ifs with hp
  · unfold deviceAt
    cases he : entry ds (itoa preferred) with
    | none => exact Or.inl rfl
    | some d => exact Or.inr ⟨_, mem_of_entry he, fun _ => rfl, rfl⟩
  · cases hf : (sortedStringKeys ds).find? fun e => (evSOC e.2).isSome || e.2.acPower.isSome with
    | none => exact Or.inl rfl
    | some e =>
      exact Or.inr ⟨e, mem_sortedStringKeys.mp (List.mem_of_find?_eq_some hf),
        fun h => absurd h hp, rfl⟩

/-- The only device with readings is shown when the preference allows it. -/
theorem selectEV_of_unique {ds : List (String × Device)} {preferred : ℤ} {e : String × Device}
    (hnodup : (ds.map Prod.fst).Nodup) (he : e ∈ ds) (hpref : Preferred preferred e.1)
    (hread : (evSOC e.2).isSome = true ∨ e.2.acPower.isSome = true)
    (hunique : ∀ e' ∈ ds, (evSOC e'.2).isSome = true ∨ e'.2.acPower.isSome = true → e' = e) :
    selectEV ds preferred = e.2 := by
  unfold selectEV
  split_ifs with hp
  · rw [deviceAt, ← hpref hp, entry_of_mem hnodup he]
    rfl
  · cases hf : (sortedStringKeys ds).find? fun e => (evSOC e.2).isSome || e.2.acPower.isSome with
    | none =>
      have hno := List.find?_eq_none.mp hf e (mem_sortedStringKeys.mpr he)
      exact absurd hread (by simpa using hno)
    | some e' =>
      have he' : e' = e := hunique e' (mem_sortedStringKeys.mp (List.mem_of_find?_eq_some hf))
        (by simpa using List.find?_some hf)
      rw [he']
      rfl

/-- The leaves of vehicles and charging stations that are shown. -/
structure VehicleLeaf (kind : Kind) (preferred : ℤ) (paths : List String) (l : Leaf) : Prop where
  kind_eq : l.kind = kind
  allowed : Preferred preferred l.inst
  path_mem : l.path ∈ paths

theorem exists_reads_of_selectEV_acPower {all : LeafMap} {kind : Kind} {preferred : ℤ}
    (hpower : (selectEV (devices all kind) preferred).acPower.isSome = true) :
    ∃ l, VehicleLeaf kind preferred acPaths l ∧ all.Reads l := by
  rcases selectEV_preferred (devices all kind) preferred with hmiss | ⟨⟨i, d⟩, hd, hpref, heq⟩
  · rw [hmiss] at hpower
    exact absurd hpower (by decide)
  · rw [heq] at hpower
    obtain ⟨path, hpath, hnum⟩ := (Device.acPower_isSome_iff d).mp hpower
    exact ⟨⟨kind, i, path⟩, ⟨rfl, hpref, hpath⟩, d, hd, hnum⟩

namespace Sample

variable {all : LeafMap} {ls : List Leaf} (h : Sample all ls)
include h

theorem exists_reads_of_selectEV_soc {kind : Kind} {preferred : ℤ}
    (hsoc : (evSOC (selectEV (devices all kind) preferred)).isSome = true) :
    ∃ l, VehicleLeaf kind preferred ["Soc"] l ∧ all.Reads l := by
  rcases selectEV_preferred (devices all kind) preferred with hmiss | ⟨⟨i, d⟩, hd, hpref, heq⟩
  · rw [hmiss] at hsoc
    exact absurd hsoc (by decide)
  · rw [heq] at hsoc
    exact ⟨⟨kind, i, "Soc"⟩, ⟨rfl, hpref, List.mem_singleton_self _⟩, d, hd,
      (h.evSOC_isSome_iff hd).mp hsoc⟩

/-- The device of the only leaf that reads a number is shown. -/
theorem selectEV_of_reads {kind : Kind} {preferred : ℤ} {l : Leaf}
    (hleaf : VehicleLeaf kind preferred ("Soc" :: acPaths) l) (honly : ∀ m, all.Reads m ↔ m = l) :
    selectEV (devices all kind) preferred = deviceLeaves all kind l.inst := by
  have hreading : ∀ e ∈ devices all kind,
      (evSOC e.2).isSome = true ∨ e.2.acPower.isSome = true ↔
        ∃ path ∈ "Soc" :: acPaths, (e.2.num [path]).isSome = true := by
    rintro ⟨i, d⟩ hd
    rw [h.evSOC_isSome_iff hd, Device.acPower_isSome_iff, List.exists_mem_cons_iff]
  obtain ⟨d, hd, hnum⟩ := (honly l).mpr rfl
  rw [hleaf.kind_eq] at hd
  have hd' : (l.inst, deviceLeaves all kind l.inst) = (l.inst, d) := by
    rw [(h.mem_devices_iff.mp hd).1]
  rw [show deviceLeaves all kind l.inst = d from (Prod.mk.inj hd').2]
  refine selectEV_of_unique (e := (l.inst, d)) (nodup_devices all kind) hd hleaf.allowed
    ((hreading _ hd).mpr ⟨l.path, hleaf.path_mem, hnum⟩) ?_
  rintro ⟨i, d'⟩ he hread
  obtain ⟨path, -, hnum'⟩ := (hreading _ he).mp hread
  have hl := (honly ⟨kind, i, path⟩).mp ⟨d', he, hnum'⟩
  obtain rfl : i = l.inst := by rw [← hl]
  rw [eq_of_mem_devices he hd]

theorem selectEV_acPower_isSome {kind : Kind} {preferred : ℤ} {l : Leaf}
    (hleaf : VehicleLeaf kind preferred acPaths l) (honly : ∀ m, all.Reads m ↔ m = l) :
    (selectEV (devices all kind) preferred).acPower.isSome = true := by
  obtain ⟨d, hd, hnum⟩ := (honly l).mpr rfl
  rw [hleaf.kind_eq] at hd
  rw [h.selectEV_of_reads ⟨hleaf.kind_eq, hleaf.allowed, List.mem_cons_of_mem _ hleaf.path_mem⟩
    honly, ← (h.mem_devices_iff.mp hd).1, Device.acPower_isSome_iff]
  exact ⟨l.path, hleaf.path_mem, hnum⟩

theorem selectEV_soc_isSome {kind : Kind} {preferred : ℤ} {l : Leaf}
    (hleaf : VehicleLeaf kind preferred ["Soc"] l) (honly : ∀ m, all.Reads m ↔ m = l) :
    (evSOC (selectEV (devices all kind) preferred)).isSome = true := by
  obtain ⟨d, hd, hnum⟩ := (honly l).mpr rfl
  rw [hleaf.kind_eq] at hd
  have hpath : l.path = "Soc" := List.mem_singleton.mp hleaf.path_mem
  rw [h.selectEV_of_reads ⟨hleaf.kind_eq, hleaf.allowed, by rw [hpath]; exact List.mem_cons_self⟩
    honly, ← (h.mem_devices_iff.mp hd).1, h.evSOC_isSome_iff hd, ← hpath]
  exact hnum

end Sample

/-! ## The caches of the reports -/

/-- The cache after null reports of the leaves. -/
def nulls (ls : List Leaf) : LeafMap := ls.foldl (fun all l => all.insert l .nil) ∅

/-- The cache with the number 0 in each of the leaves. -/
def zeros (ls : List Leaf) : LeafMap := ls.foldl (fun all l => all.insert l (.float64 0)) ∅

/-- The temporary sample: a zero on top of earlier nulls. -/
def probe (ls : List Leaf) (l : Leaf) : LeafMap := (nulls ls).insert l (.float64 0)

theorem lookup_foldl_insert (ls : List Leaf) (v : Any) (all : LeafMap) (l : Leaf) :
    (ls.foldl (fun all l => all.insert l v) all).lookup l =
      if l ∈ ls then some v else all.lookup l := by
  induction ls generalizing all with
  | nil => simp
  | cons l' ls ih =>
    rw [List.foldl_cons, ih]
    by_cases hl : l = l'
    · subst hl
      simp
    · simp [hl, AList.lookup_insert_ne hl]

theorem lookup_nulls (ls : List Leaf) (l : Leaf) :
    (nulls ls).lookup l = if l ∈ ls then some .nil else none := by
  rw [nulls, lookup_foldl_insert]
  rfl

theorem lookup_zeros (ls : List Leaf) (l : Leaf) :
    (zeros ls).lookup l = if l ∈ ls then some (.float64 0) else none := by
  rw [zeros, lookup_foldl_insert]
  rfl

/-- A cache whose leaves are all null or zero is a sample. -/
theorem sample_of_lookup {all : LeafMap} {ls : List Leaf} {z : Leaf → Bool}
    (hlookup : ∀ l, all.lookup l =
      if l ∈ ls then some (if z l then .float64 0 else .nil) else none)
    (hnum : ∀ l ∈ ls, (atoi l.inst).isSome = true) : Sample all ls where
  keys l := by
    rw [← AList.lookup_isSome, hlookup]
    split_ifs with hl <;> simp [hl]
  values l v hv := by
    rw [hlookup] at hv
    split_ifs at hv with hl hz
    · exact Or.inr (Option.some.inj hv).symm
    · exact Or.inl (Option.some.inj hv).symm
  numbers := hnum

section Reports

variable {ls : List Leaf}

theorem sample_nulls (hnum : ∀ l ∈ ls, (atoi l.inst).isSome = true) : Sample (nulls ls) ls :=
  sample_of_lookup (z := fun _ => false) (lookup_nulls ls) hnum

theorem sample_zeros (hnum : ∀ l ∈ ls, (atoi l.inst).isSome = true) : Sample (zeros ls) ls :=
  sample_of_lookup (z := fun _ => true) (lookup_zeros ls) hnum

theorem lookup_probe (ls : List Leaf) (l m : Leaf) : (probe ls l).lookup m =
    if m ∈ ls ++ [l] then some (if m = l then .float64 0 else .nil) else none := by
  by_cases hm : m = l
  · subst hm
    simp [probe]
  · rw [probe, AList.lookup_insert_ne hm, lookup_nulls]
    simp [hm]

theorem sample_probe {l : Leaf} (hnum : ∀ m ∈ ls ++ [l], (atoi m.inst).isSome = true) :
    Sample (probe ls l) (ls ++ [l]) :=
  sample_of_lookup (z := fun m => decide (m = l)) (fun m => by simp [lookup_probe]) hnum

/-- All the answers read the zeros. -/
theorem reads_zeros_iff (hnum : ∀ l ∈ ls, (atoi l.inst).isSome = true) (l : Leaf) :
    (zeros ls).Reads l ↔ Answers ls l := by
  rw [(sample_zeros hnum).reads_iff, lookup_zeros]
  refine and_iff_left_of_imp fun hans => ?_
  rw [if_pos hans.1]

/-- A null is never read. -/
theorem not_reads_nulls (hnum : ∀ l ∈ ls, (atoi l.inst).isSome = true) (l : Leaf) :
    ¬(nulls ls).Reads l := by
  rw [(sample_nulls hnum).reads_iff, lookup_nulls]
  rintro ⟨hans, hv⟩
  rw [if_pos hans.1] at hv
  cases hv

/-- Only the probed leaf is read, if it answers. -/
theorem reads_probe_iff {l : Leaf} (hnum : ∀ m ∈ ls ++ [l], (atoi m.inst).isSome = true)
    (m : Leaf) : (probe ls l).Reads m ↔ m = l ∧ Answers (ls ++ [l]) l := by
  rw [(sample_probe hnum).reads_iff, lookup_probe]
  constructor
  · rintro ⟨hans, hv⟩
    rw [if_pos hans.1] at hv
    split_ifs at hv with hm
    · subst hm
      exact ⟨rfl, hans⟩
    · cases hv
  · rintro ⟨rfl, hans⟩
    rw [if_pos hans.1, if_pos rfl]
    exact ⟨hans, rfl⟩

/-- The first leaf holds a number only where a device reads one. -/
theorem exists_reads_of_firstLeaf {all : LeafMap} {kind : Kind} {path : String} {n : F64}
    (h : firstLeaf (devices all kind) path = some (some n)) : ∃ i, all.Reads ⟨kind, i, path⟩ := by
  obtain ⟨⟨i, d⟩, he, hleaf⟩ := List.exists_of_findSome?_eq_some h
  obtain ⟨v, hv, hnum⟩ := Option.map_eq_some_iff.mp hleaf
  refine ⟨i, d, mem_sortedStringKeys.mp he, ?_⟩
  rw [Device.num, List.findSome?_singleton, show d path = some v from hv, Option.bind_some, hnum]
  rfl

/-- Without a reading no phase of a sample has a power. -/
theorem Sample.gridReading_eq_none {all : LeafMap} (h : Sample all ls)
    (hno : ∀ l, ¬all.Reads l) (p : Phase) : (gridReading all p).2 = none := by
  have hleaf : ∀ kind path n, firstLeaf (devices all kind) path ≠ some (some n) := by
    intro kind path n hn
    obtain ⟨i, hi⟩ := exists_reads_of_firstLeaf hn
    exact hno _ hi
  rw [gridReading, gridPhase, h.activeInput_eq_none]
  split
  · rename_i n hn
    cases n with
    | none => rfl
    | some n => exact absurd hn (hleaf _ _ n)
  · split
    · rename_i n hn
      cases n with
      | none => rfl
      | some n => exact absurd hn (hleaf _ _ n)
    · rfl

/-- Without a reading nothing is derived. -/
theorem Sample.not_isSome_of_derived {all : LeafMap} (h : Sample all ls)
    (hno : ∀ l, ¬all.Reads l) {x : Option F64} (hx : x ∈ derived all) : ¬x.isSome = true := by
  have hnum : ∀ kind, ∀ e ∈ devices all kind, ∀ path, ¬(e.2.num [path]).isSome = true :=
    fun kind e hd path hread => hno ⟨kind, e.1, path⟩ ⟨e.2, hd, hread⟩
  have hac : ∀ kind, ∀ e ∈ devices all kind, ¬e.2.acPower.isSome = true := by
    intro kind e hd
    rw [Device.acPower_isSome_iff]
    rintro ⟨path, -, hread⟩
    exact hnum kind e hd path hread
  have hdc : ∀ kind, ∀ e ∈ devices all kind, ¬e.2.dcPower.isSome = true := by
    intro kind e hd
    rw [Device.dcPower_isSome_iff, not_or]
    exact ⟨hnum kind e hd _, fun hread => hnum kind e hd _ hread.1⟩
  have hcons : ∀ p, ¬(consumptionReading all p).isSome = true := by
    intro p
    rw [consumptionReading_isSome_iff]
    rintro ⟨i, path, -, hread⟩
    exact hno _ hread
  have hsum : ∀ vs : List (Option F64), (∀ v ∈ vs, ¬v.isSome = true) →
      ¬(outputSum vs).isSome = true := by
    intro vs hvs
    rw [outputSum_isSome_iff]
    rintro ⟨v, hv, hsome⟩
    exact hvs v hv hsome
  have hmppt : ¬(mpptReading all).isSome = true := by
    rw [mpptReading_isSome_iff]
    simp [hno]
  have hpv : ¬(pvReading all).isSome = true := by
    rw [pvReading_isSome_iff]
    simp [hno]
  rcases List.mem_append.mp hx with hx | hx
  · rcases List.mem_append.mp hx with hx | hx
    · rcases List.mem_append.mp hx with hx | hx
      · rcases List.mem_append.mp hx with hx | hx
        · rcases List.mem_append.mp hx with hx | hx
          · obtain ⟨p, -, rfl⟩ := List.mem_map.mp hx
            exact hcons p
          · rcases List.mem_pair.mp hx with rfl | rfl
            · refine hsum _ fun v hv => ?_
              obtain ⟨p, -, rfl⟩ := List.mem_map.mp hv
              exact Option.not_isSome_iff_eq_none.mpr (h.gridReading_eq_none hno p)
            · refine hsum _ fun v hv => ?_
              obtain ⟨p, -, rfl⟩ := List.mem_map.mp hv
              exact hcons p
        · obtain ⟨e, he, rfl⟩ := List.mem_map.mp hx
          exact hdc .battery e he
      · unfold solarDerived at hx
        dsimp only at hx
        rw [mpptTotal_eq, pvTotal_eq] at hx
        rcases List.mem_append.mp hx with hx | hx
        · rcases List.mem_append.mp hx with hx | hx
          · obtain ⟨e, he, rfl⟩ := List.mem_map.mp hx
            rw [mpptRow_isSome_iff, not_or]
            exact ⟨hnum .solarcharger e he _, hdc .solarcharger e he⟩
          · obtain ⟨e, he, rfl⟩ := List.mem_map.mp hx
            exact hac .pvinverter e he
        · simp only [List.mem_cons, List.not_mem_nil, or_false] at hx
          rcases hx with rfl | rfl | rfl
          · exact hmppt
          · exact hpv
          · rw [isSome_ite_add]
            exact not_or.mpr ⟨hmppt, hpv⟩
    · obtain ⟨e, he, rfl⟩ := List.mem_map.mp hx
      exact hac .acload e he
  · obtain ⟨kind, -, hx⟩ := List.mem_flatMap.mp hx
    obtain ⟨e, he, rfl⟩ := List.mem_map.mp hx
    exact hac kind e he

/-- The output over nulls is encoded. -/
theorem finite_nulls (hnum : ∀ l ∈ ls, (atoi l.inst).isSome = true) (o : CerboOptions) :
    (cerboOverlay (nulls ls) o).finite = true := by
  have hfinite : FiniteLeaves (nulls ls) := by
    intro l v hv
    rw [lookup_nulls] at hv
    split_ifs at hv
    obtain rfl := Option.some.inj hv
    rfl
  rw [cerboOverlay_finite hfinite]
  intro x hx
  have hnone := (sample_nulls hnum).not_isSome_of_derived (not_reads_nulls hnum) hx
  rw [Option.not_isSome_iff_eq_none.mp hnone]
  rfl

end Reports

end Dashboard
