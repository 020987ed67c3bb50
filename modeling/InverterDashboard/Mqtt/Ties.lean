import InverterDashboard.Mqtt.Canonical
import InverterDashboard.Mqtt.Push

set_option relaxedAutoImplicit false
set_option autoImplicit false

/-!
# Instances that spell the same number

The devices of a kind are visited in the order of their instance numbers, and an instance may spell
its number in several ways. Two devices with the same number are tied: neither comes before the
other, so the order in which the map lists them decides which one is shown, selected or sampled.

## Main definitions

* `Dashboard.LeafMap.Deterministic` — the reducers depend on the leaves alone, and the comparison
  puts the devices of each kind in one order.

## Main results

* `Dashboard.nativePushSamples_eq_of_same` — without ties the samples depend on the leaves alone.
* `Dashboard.LeafMap.deterministic_iff` — a cache is reduced in one way if no two devices of a kind
  are tied, and only then.
-/

namespace Dashboard

open Go

/-! ## Samples -/

section Same

variable {a b : LeafMap} (h : a.Same b)
include h

theorem deviceLeaves_eq_of_same : deviceLeaves a = deviceLeaves b := by
  funext kind inst path
  exact h ⟨kind, inst, path⟩

theorem entry_devices (kind : Kind) (inst : String) :
    entry (devices a kind) inst = entry (devices b kind) inst :=
  entry_eq_of_perm (devices_perm h kind) (nodup_devices b kind) inst

theorem waterSamples_eq_of_same (changed : List String) (kind : String) (inst : ℤ) :
    waterSamples a changed kind inst = waterSamples b changed kind inst := by
  unfold waterSamples
  rw [deviceLeaves_eq_of_same h]

variable (ha : a.DistinctNumbers)
include ha

theorem pushCharger_eq_of_same (configured : ℤ) :
    pushCharger a configured = pushCharger b configured := by
  unfold pushCharger
  rw [sortedStringKeys_devices h ha]

theorem chargerSamples_eq_of_same (changed : List String) (configured : ℤ) :
    chargerSamples a changed configured = chargerSamples b changed configured := by
  unfold chargerSamples
  rw [pushCharger_eq_of_same h ha]
  simp only [entry_devices h]

/-- The only battery is sampled, whichever cache lists it. -/
theorem pushBattery_eq_of_same : pushBattery a = pushBattery b := by
  have hp := devices_perm h .battery
  unfold pushBattery
  rw [sortedStringKeys_devices h ha]
  dsimp only
  split
  · rfl
  · generalize devices a .battery = ds at hp
    generalize devices b .battery = ds' at hp
    have hlen := hp.length_eq
    match ds, ds', hp, hlen with
    | [], [], _, _ => rfl
    | [e], [e'], hp, _ => rw [List.singleton_perm_singleton.mp hp]
    | _ :: _ :: _, _ :: _ :: _, _, _ => rfl

theorem socSamples_eq_of_same (changed : List String) :
    socSamples a changed = socSamples b changed := by
  unfold socSamples pushSystem
  rw [sortedStringKeys_devices h ha, pushBattery_eq_of_same h ha]
  simp only [entry_devices h]

/-- The samples depend on the leaves alone. -/
theorem nativePushSamples_eq_of_same (o : CerboOptions) (changed : List String) :
    nativePushSamples a o changed = nativePushSamples b o changed := by
  unfold nativePushSamples
  rw [waterSamples_eq_of_same h, waterSamples_eq_of_same h, chargerSamples_eq_of_same h ha,
    socSamples_eq_of_same h ha]

end Same

/-! ## The comparison -/

/-- Between instances that are numbers, the comparison is that of the numbers. -/
theorem keyLess_iff {a b : String} {x y : ℤ} (ha : atoi a = some x) (hb : atoi b = some y) :
    keyLess a b = true ↔ x < y := by
  simp [keyLess, ha, hb]

/-- **The comparison is a strict total order** on a set of instances that are numbers, if they are
different numbers, and only then. -/
theorem keyLess_strictTotal_iff {s : Set String} (hnum : ∀ id ∈ s, (atoi id).isSome = true) :
    IsStrictTotalOrder s (fun a b => keyLess a b = true) ↔
      ∀ id ∈ s, ∀ id' ∈ s, atoi id = atoi id' → id = id' := by
  have hread : ∀ id : s, ∃ n, atoi id = some n := fun id =>
    Option.isSome_iff_exists.mp (hnum id id.2)
  constructor
  · intro hord id hid id' hid' heq
    obtain ⟨n, hn⟩ := hread ⟨id, hid⟩
    have hless : ∀ {a b : String}, atoi a = some n → atoi b = some n → ¬ keyLess a b = true :=
      fun ha hb hk => absurd ((keyLess_iff ha hb).mp hk) (lt_irrefl n)
    have hn' : atoi id' = some n := heq ▸ hn
    have hsame := hord.trichotomous (⟨id, hid⟩ : s) ⟨id', hid'⟩ (hless hn hn') (hless hn' hn)
    exact congrArg Subtype.val hsame
  · intro hinj
    refine {
      trichotomous := fun a b hab hba => ?_
      irrefl := fun a => ?_
      trans := fun a b c => ?_ }
    · obtain ⟨x, hx⟩ := hread a
      obtain ⟨y, hy⟩ := hread b
      rw [keyLess_iff hx hy] at hab
      rw [keyLess_iff hy hx] at hba
      have hxy : x = y := by omega
      exact Subtype.ext (hinj a a.2 b b.2 (by rw [hx, hy, hxy]))
    · obtain ⟨x, hx⟩ := hread a
      rw [keyLess_iff hx hx]
      exact lt_irrefl x
    · obtain ⟨x, hx⟩ := hread a
      obtain ⟨y, hy⟩ := hread b
      obtain ⟨z, hz⟩ := hread c
      rw [keyLess_iff hx hy, keyLess_iff hy hz, keyLess_iff hx hz]
      exact lt_trans

/-! ## The reducers -/

namespace LeafMap

/-- The ids of the devices of a kind. -/
def ids (all : LeafMap) (kind : Kind) : Set String := {id | id ∈ (devices all kind).map Prod.fst}

/-- The reducers depend on the leaves of the cache alone, however the maps are listed: they give the
same output for every cache with these leaves, the comparison is a strict total order on the ids of
each kind, and every list of the devices that is sorted by it is the one the reducers visit. -/
structure Deterministic (all : LeafMap) : Prop where
  overlay : ∀ b o, all.Same b → cerboOverlay all o = cerboOverlay b o
  samples : ∀ b o changed, all.Same b →
    nativePushSamples all o changed = nativePushSamples b o changed
  order : ∀ kind, IsStrictTotalOrder (all.ids kind) fun a b => keyLess a b = true
  sorted : ∀ kind ds, ds.Perm (devices all kind) →
    ds.Pairwise (fun a b => keyLess b.1 a.1 = false) → ds = sortedStringKeys (devices all kind)

/-- The ids of the devices are numbers. -/
theorem atoi_of_mem_ids {all : LeafMap} {kind : Kind} {id : String} (h : id ∈ all.ids kind) :
    (atoi id).isSome = true := by
  obtain ⟨e, he, rfl⟩ := List.mem_map.mp h
  exact (inst_of_mem_devices he).1

/-- Devices with different numbers are devices with different readings of their ids. -/
theorem distinctNumbers_iff {all : LeafMap} : all.DistinctNumbers ↔
    ∀ kind, ∀ id ∈ all.ids kind, ∀ id' ∈ all.ids kind, atoi id = atoi id' → id = id' := by
  constructor
  · intro h kind id hid id' hid' heq
    obtain ⟨e, he, rfl⟩ := List.mem_map.mp hid
    obtain ⟨e', he', rfl⟩ := List.mem_map.mp hid'
    exact h kind e he e' he' (by rw [instNumber, instNumber, heq])
  · intro h kind e he e' he' heq
    obtain ⟨n, hn⟩ := Option.isSome_iff_exists.mp (inst_of_mem_devices he).1
    obtain ⟨n', hn'⟩ := Option.isSome_iff_exists.mp (inst_of_mem_devices he').1
    obtain rfl : n = n' := by simpa [instNumber, hn, hn'] using heq
    exact h kind e.1 (List.mem_map_of_mem he) e'.1 (List.mem_map_of_mem he') (hn.trans hn'.symm)

/-- Without ties there is one sorted list. -/
theorem DistinctNumbers.sorted {all : LeafMap} (h : all.DistinctNumbers) {kind : Kind}
    {ds : List (String × Device)} (hp : ds.Perm (devices all kind))
    (hsorted : ds.Pairwise fun a b => keyLess b.1 a.1 = false) :
    ds = sortedStringKeys (devices all kind) := by
  have hnum : ∀ e ∈ ds, (atoi e.1).isSome := fun e he => (inst_of_mem_devices (hp.mem_iff.mp he)).1
  have hinj : ∀ e ∈ ds, ∀ e' ∈ ds, instNumber e = instNumber e' → e = e' := by
    intro e he e' he' heq
    have he := hp.mem_iff.mp he
    have he' := hp.mem_iff.mp he'
    exact List.inj_on_of_nodup_map (nodup_devices all kind) he he' (h kind e he e' he' heq)
  rw [← sortedStringKeys_eq_of_perm hp hnum hinj]
  have hpair : ds.Pairwise fun a b : String × Device => (!keyLess b.1 a.1) = true :=
    hsorted.imp fun hk => by rw [hk]; rfl
  exact (List.Pairwise.insertionSort_eq hpair).symm

/-- **Ties.** The reducers depend on the leaves of a cache alone if no two devices of a kind spell
the same number, and only then.

**Proof sketch.** Different numbers have one sorted list, so every part of the reducers visits the
same devices in the same order. Two spellings of one number are compared neither way. -/
theorem deterministic_iff (all : LeafMap) : all.Deterministic ↔ all.DistinctNumbers := by
  constructor
  · intro h
    rw [distinctNumbers_iff]
    exact fun kind => (keyLess_strictTotal_iff fun _ => atoi_of_mem_ids).mp (h.order kind)
  · intro h
    exact
      { overlay := fun b o hsame => cerboOverlay_eq_of_same hsame h o
        samples := fun b o changed hsame => nativePushSamples_eq_of_same hsame h o changed
        order := fun kind => (keyLess_strictTotal_iff fun _ => atoi_of_mem_ids).mpr
          (distinctNumbers_iff.mp h kind)
        sorted := fun kind ds => h.sorted }

/-- Two chargers that spell the number 5, with different powers. -/
def tied : LeafMap :=
  ((∅ : LeafMap).insert ⟨.evcharger, "5", "Ac/Power"⟩ (.float64 1000)).insert
    ⟨.evcharger, "05", "Ac/Power"⟩ (.float64 2000)

/-- The same leaves, listed the other way round. -/
def tiedReversed : LeafMap :=
  ((∅ : LeafMap).insert ⟨.evcharger, "05", "Ac/Power"⟩ (.float64 2000)).insert
    ⟨.evcharger, "5", "Ac/Power"⟩ (.float64 1000)

theorem same_tied : tied.Same tiedReversed := fun _ =>
  AList.perm_lookup (AList.insert_insert_of_ne ∅ (by decide))

/-- The shown power and the sampled charger differ, and neither id comes before the other. -/
theorem not_deterministic_tied : tied.Same tiedReversed ∧
    (cerboOverlay tied ⟨0, 0, 0, -1, -1⟩).val .evChargingPower ≠
    (cerboOverlay tiedReversed ⟨0, 0, 0, -1, -1⟩).val .evChargingPower ∧
    (nativePushSamples tied ⟨0, 0, 0, -1, -1⟩ []).map (·.id) ≠
    (nativePushSamples tiedReversed ⟨0, 0, 0, -1, -1⟩ []).map (·.id) ∧
    keyLess "5" "05" = false ∧ keyLess "05" "5" = false ∧ ¬ tied.Deterministic := by
  have hne : (cerboOverlay tied ⟨0, 0, 0, -1, -1⟩).val .evChargingPower ≠
      (cerboOverlay tiedReversed ⟨0, 0, 0, -1, -1⟩).val .evChargingPower := by decide
  refine ⟨same_tied, hne, by decide, by decide, by decide, fun h => hne ?_⟩
  rw [h.overlay tiedReversed ⟨0, 0, 0, -1, -1⟩ same_tied]

end LeafMap

end Dashboard
