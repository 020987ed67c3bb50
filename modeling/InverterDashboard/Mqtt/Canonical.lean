import InverterDashboard.Mqtt.Overlay

set_option relaxedAutoImplicit false
set_option autoImplicit false

/-!
# The reducer reads the cache as a map

The cache is a map, and the reducer visits its devices in the order of their instance numbers. As
long as no two devices of a kind spell the same number, the order in which the leaves were stored
cannot be seen in the output.

## Main definitions

* `Dashboard.CanonicalID` — an instance in canonical decimal form.
* `Dashboard.LeafMap.Canonical`, `Dashboard.LeafMap.Same` — caches of such instances; caches with
  the same leaves.
* `Dashboard.LeafMap.DistinctNumbers` — devices of one kind have different numbers.

## Main results

* `Dashboard.sortedStringKeys_eq_of_perm` — sorting forgets the order of the devices.
* `Dashboard.cerboOverlay_eq_of_same` — the reducer depends on the leaves alone.
-/

namespace Dashboard

open Go

/-! ## Instances -/

/-- An instance in canonical decimal form: it is printed as it was written. -/
def CanonicalID (id : String) : Prop := ∀ n ∈ atoi id, itoa n = id

instance (id : String) : Decidable (CanonicalID id) :=
  inferInstanceAs (Decidable (∀ n ∈ atoi id, itoa n = id))

/-- Canonical instances of the same number are the same. -/
theorem CanonicalID.eq_of_atoi {a b : String} (ha : CanonicalID a) (hb : CanonicalID b) {n : ℤ}
    (hna : atoi a = some n) (hnb : atoi b = some n) : a = b := by
  rw [← ha n hna, hb n hnb]

namespace LeafMap

/-- Every instance of the cache is canonical. -/
def Canonical (all : LeafMap) : Prop := ∀ l ∈ all.keys, CanonicalID l.inst

/-- The two caches hold the same leaves. -/
def Same (a b : LeafMap) : Prop := ∀ l, a.lookup l = b.lookup l

theorem Same.mem_keys {a b : LeafMap} (h : a.Same b) (l : Leaf) : l ∈ a.keys ↔ l ∈ b.keys := by
  have ha : l ∈ a ↔ (a.lookup l).isSome := AList.lookup_isSome.symm
  have hb : l ∈ b ↔ (b.lookup l).isSome := AList.lookup_isSome.symm
  rw [← AList.mem_keys, ← AList.mem_keys, ha, hb, h l]

theorem Same.keys_perm {a b : LeafMap} (h : a.Same b) : a.keys.Perm b.keys :=
  (List.perm_ext_iff_of_nodup a.keys_nodup b.keys_nodup).mpr h.mem_keys

theorem Same.canonical {a b : LeafMap} (h : a.Same b) (ha : a.Canonical) : b.Canonical :=
  fun l hl => ha l ((h.mem_keys l).mpr hl)

end LeafMap

/-! ## Devices -/

/-- Caches with the same leaves have the same devices. -/
theorem devices_perm {a b : LeafMap} (h : a.Same b) (kind : Kind) :
    (devices a kind).Perm (devices b kind) := by
  have hleaves : deviceLeaves a kind = deviceLeaves b kind := by
    funext inst path
    exact h ⟨kind, inst, path⟩
  unfold devices
  rw [hleaves]
  exact (((h.keys_perm.filterMap _).dedup).map _).filter _

/-- The instance of a device is a number, and canonical in a canonical cache. -/
theorem inst_of_mem_devices {all : LeafMap} {kind : Kind} {e : String × Device}
    (h : e ∈ devices all kind) :
    (atoi e.1).isSome ∧ (all.Canonical → CanonicalID e.1) := by
  obtain ⟨id, hid, rfl⟩ := List.mem_map.mp (List.mem_of_mem_filter h)
  obtain ⟨l, hl, hinst⟩ := List.mem_filterMap.mp (List.mem_dedup.mp hid)
  split_ifs at hinst with hkind
  obtain rfl := Option.some.inj hinst
  exact ⟨hkind.2, fun hcanon => hcanon l hl⟩

/-! ## The order of the devices -/

/-- The number of an instance. -/
def instNumber {α : Type} (e : String × α) : ℤ := (atoi e.1).getD 0

/-- Between instances that are numbers, the comparison is that of the numbers. -/
theorem not_keyLess_iff {α : Type} {a b : String × α} (ha : (atoi a.1).isSome)
    (hb : (atoi b.1).isSome) : (!keyLess b.1 a.1) = true ↔ instNumber a ≤ instNumber b := by
  obtain ⟨x, hx⟩ := Option.isSome_iff_exists.mp ha
  obtain ⟨y, hy⟩ := Option.isSome_iff_exists.mp hb
  simp [keyLess, instNumber, hx, hy]

/-- The devices of each kind have different numbers. -/
def LeafMap.DistinctNumbers (all : LeafMap) : Prop :=
  ∀ kind, ∀ e ∈ devices all kind, ∀ e' ∈ devices all kind, instNumber e = instNumber e' → e.1 = e'.1

/-- Canonical instances are different numbers. -/
theorem LeafMap.Canonical.distinctNumbers {all : LeafMap} (h : all.Canonical) :
    all.DistinctNumbers := by
  intro kind e he e' he' heq
  obtain ⟨n, hn⟩ := Option.isSome_iff_exists.mp (inst_of_mem_devices he).1
  obtain ⟨n', hn'⟩ := Option.isSome_iff_exists.mp (inst_of_mem_devices he').1
  obtain rfl : n = n' := by simpa [instNumber, hn, hn'] using heq
  exact ((inst_of_mem_devices he).2 h).eq_of_atoi ((inst_of_mem_devices he').2 h) hn hn'

/-- Sorting forgets the order of devices whose instances are different numbers.

**Proof sketch.** On such devices the comparison is a linear order, and a list has one sorted
permutation. -/
theorem sortedStringKeys_eq_of_perm {α : Type} {ds ds' : List (String × α)} (hp : ds.Perm ds')
    (hnum : ∀ e ∈ ds, (atoi e.1).isSome)
    (hinj : ∀ e ∈ ds, ∀ e' ∈ ds, instNumber e = instNumber e' → e = e') :
    sortedStringKeys ds = sortedStringKeys ds' := by
  have hsort : ∀ l : List (String × α), (∀ e ∈ l, e ∈ ds) →
      sortedStringKeys l = l.insertionSort (fun a b => instNumber a ≤ instNumber b) := by
    intro l hl
    have hmap := List.map_insertionSort (fun a b : String × α => (!keyLess b.1 a.1) = true)
      (fun a b => instNumber a ≤ instNumber b) id l fun a ha b hb =>
        not_keyLess_iff (hnum a (hl a ha)) (hnum b (hl b hb))
    simpa [sortedStringKeys] using hmap
  have : Std.Total fun a b : String × α => instNumber a ≤ instNumber b :=
    ⟨fun a b => le_total (instNumber a) (instNumber b)⟩
  have : IsTrans (String × α) fun a b => instNumber a ≤ instNumber b :=
    ⟨fun _ _ _ => le_trans⟩
  rw [hsort ds fun e he => he, hsort ds' fun e he => hp.mem_iff.mpr he]
  refine List.Perm.eq_of_pairwise (fun a b ha hb hab hba => ?_)
    (List.pairwise_insertionSort _ ds) (List.pairwise_insertionSort _ ds') ?_
  · exact hinj a ((List.mem_insertionSort _).mp ha) b
      (hp.mem_iff.mpr ((List.mem_insertionSort _).mp hb)) (le_antisymm hab hba)
  · exact ((List.perm_insertionSort _ ds).trans hp).trans (List.perm_insertionSort _ ds').symm

/-! ## The reducer -/

section Same

variable {a b : LeafMap} (h : a.Same b) (ha : a.DistinctNumbers)
include h ha

theorem sortedStringKeys_devices (kind : Kind) :
    sortedStringKeys (devices a kind) = sortedStringKeys (devices b kind) :=
  sortedStringKeys_eq_of_perm (devices_perm h kind) (fun _ he => (inst_of_mem_devices he).1)
    fun e he e' he' heq =>
      List.inj_on_of_nodup_map (nodup_devices a kind) he he' (ha kind e he e' he' heq)

omit ha in
theorem isEmpty_devices (kind : Kind) : (devices a kind).isEmpty = (devices b kind).isEmpty := by
  have hp := devices_perm h kind
  rw [Bool.eq_iff_iff, List.isEmpty_iff, List.isEmpty_iff]
  exact ⟨fun he => List.perm_nil.mp (he ▸ hp.symm), fun he => List.perm_nil.mp (he ▸ hp)⟩

omit ha in
theorem deviceAt_devices (kind : Kind) (inst : String) :
    deviceAt (devices a kind) inst = deviceAt (devices b kind) inst := by
  rw [deviceAt, deviceAt, entry_eq_of_perm (devices_perm h kind) (nodup_devices b kind)]

theorem firstNum_devices (kind : Kind) (paths : List String) :
    firstNum (devices a kind) paths = firstNum (devices b kind) paths := by
  rw [firstNum, firstNum, sortedStringKeys_devices h ha]

theorem firstLeaf_devices (kind : Kind) (path : String) :
    firstLeaf (devices a kind) path = firstLeaf (devices b kind) path := by
  rw [firstLeaf, firstLeaf, sortedStringKeys_devices h ha]

/-- The only battery is selected, whichever cache lists it. -/
theorem selectedBattery_devices :
    selectedBattery (devices a .system) (devices a .battery) =
      selectedBattery (devices b .system) (devices b .battery) := by
  have hp := devices_perm h .battery
  unfold selectedBattery
  rw [firstNum_devices h ha]
  cases firstNum (devices b .system) ["Dc/Battery/Instance"] with
  | some n => rfl
  | none =>
    generalize devices a .battery = ds at hp
    generalize devices b .battery = ds' at hp
    have hlen := hp.length_eq
    match ds, ds', hp, hlen with
    | [], [], _, _ => rfl
    | [e], [e'], hp, _ => rw [List.singleton_perm_singleton.mp hp]
    | _ :: _ :: _, _ :: _ :: _, _, _ => rfl

theorem gridOverlay_eq_of_same (out : Overlay) : gridOverlay a out = gridOverlay b out := by
  unfold gridOverlay gridPhase activeInput consumptionPhase
  simp only [firstNum_devices h ha, firstLeaf_devices h ha, sortedStringKeys_devices h ha]

theorem vebusOverlay_eq_of_same (out : Overlay) : vebusOverlay a out = vebusOverlay b out := by
  unfold vebusOverlay
  simp only [firstNum_devices h ha]

theorem batteryOverlay_eq_of_same (out : Overlay) :
    batteryOverlay a out = batteryOverlay b out := by
  unfold batteryOverlay smartShunt
  simp only [firstNum_devices h ha, sortedStringKeys_devices h ha, selectedBattery_devices h ha,
    deviceAt_devices h, isEmpty_devices h]

theorem solarOverlay_eq_of_same (out : Overlay) : solarOverlay a out = solarOverlay b out := by
  unfold solarOverlay
  simp only [firstNum_devices h ha, sortedStringKeys_devices h ha, isEmpty_devices h]

theorem loadsOverlay_eq_of_same (out : Overlay) : loadsOverlay a out = loadsOverlay b out := by
  unfold loadsOverlay
  simp only [sortedStringKeys_devices h ha, isEmpty_devices h]

omit ha in
theorem waterOverlay_eq_of_same (o : CerboOptions) (out : Overlay) :
    waterOverlay a o out = waterOverlay b o out := by
  unfold waterOverlay configuredNum
  simp only [deviceAt_devices h]

theorem applyEVOverlay_eq_of_same (o : CerboOptions) (out : Overlay) :
    applyEVOverlay a o out = applyEVOverlay b o out := by
  unfold applyEVOverlay selectEV
  simp only [sortedStringKeys_devices h ha, isEmpty_devices h, deviceAt_devices h]

theorem applyESSOverlay_eq_of_same (out : Overlay) :
    applyESSOverlay a out = applyESSOverlay b out := by
  unfold applyESSOverlay
  rw [sortedStringKeys_devices h ha]

/-- The reducer depends on the leaves alone. -/
theorem cerboOverlay_eq_of_same (o : CerboOptions) : cerboOverlay a o = cerboOverlay b o := by
  unfold cerboOverlay
  rw [gridOverlay_eq_of_same h ha, vebusOverlay_eq_of_same h ha, batteryOverlay_eq_of_same h ha,
    solarOverlay_eq_of_same h ha, loadsOverlay_eq_of_same h ha, waterOverlay_eq_of_same h,
    applyEVOverlay_eq_of_same h ha, applyESSOverlay_eq_of_same h ha]

end Same

end Dashboard
