import InverterDashboard.Lan.Pushing
import InverterDashboard.Mqtt.Canonical
import InverterDashboard.Push.Durable

set_option relaxedAutoImplicit false
set_option autoImplicit false

/-!
# Devices that disappear on LAN

A run with the push processor that remembers which sampled devices disappeared since their last
reading. A tombstone on any leaf removes the whole device from the cache, but a sample that
invalidates the baseline is made only if the changed path is the one that is sampled afterwards.

## Main definitions

* `Dashboard.SampleKind`, `Dashboard.sampledDevice` — the device a kind of sample is taken from.
* `Dashboard.Client.vanishes` — the device that a message removes or disconnects.
* `Dashboard.Invalidates` — the messages about it that reach its baseline.
* `Dashboard.Vanishing`, `Dashboard.Vanishing.step` — a run with the devices that disappeared.

## Main results

* `Dashboard.sampledIn_tombstone_iff` — whether a removal makes a sample of a kind.
* `Dashboard.Pushing.baseline_iff_of_vanishes` — one removal.
* `Dashboard.Vanishing.gone_of_reachable` — the run result.
-/

namespace Dashboard

open Go

/-! ## Sampled devices -/

/-- The kinds of samples. -/
inductive SampleKind where
  | pump | valve | ev | soc
  deriving DecidableEq

namespace SampleKind

/-- The name of a kind in a sample. -/
def name : SampleKind → String
  | .pump => "pump"
  | .valve => "valve"
  | .ev => "ev"
  | .soc => "soc"

/-- The kinds in the order of `NativePushSamples`. -/
def all : List SampleKind := [.pump, .valve, .ev, .soc]

theorem mem_all (k : SampleKind) : k ∈ all := by
  cases k <;> decide

theorem name_mem (k : SampleKind) : k.name ∈ Push.sampleKinds := by
  cases k <;> decide

theorem name_injective : Function.Injective name := by
  intro k k' h
  cases k <;> cases k' <;> first | rfl | exact absurd h (by decide)

end SampleKind

theorem Kind.name_injective : Function.Injective Kind.name := by
  intro k k' h
  cases k <;> cases k' <;> first | rfl | exact absurd h (by decide)

/-- The device that a kind of sample is taken from. -/
def sampledDevice (all : LeafMap) (o : CerboOptions) : SampleKind → Option (Kind × String)
  | .pump => some (.pump, itoa o.pumpInstance)
  | .valve => some (.pump, itoa o.valveInstance)
  | .ev => (pushCharger all o.evchargerInstance).map fun inst => (.evcharger, inst)
  | .soc =>
    match pushSystem all with
    | some e => some (.system, e.1)
    | none => (pushBattery all).map fun inst => (.battery, inst)

/-- The key of the baseline of a device. -/
def sampleKey (k : SampleKind) (d : Kind × String) : String := k.name ++ ":" ++ deviceID d.1 d.2

/-- The path of a leaf behind the portal. -/
def leafPath (d : Kind × String) (path : List String) : List String := d.1.name :: d.2 :: path

theorem isLeafOf_leafPath {d : Kind × String} {path : List String} {kind : Kind} {inst : String}
    {leaf : List String} :
    isLeafOf (leafPath d path) kind inst leaf = true ↔ d = (kind, inst) ∧ path = leaf := by
  unfold isLeafOf leafPath
  rw [beq_iff_eq, List.cons.injEq, List.cons.injEq, Kind.name_injective.eq_iff]
  obtain ⟨k, i⟩ := d
  rw [Prod.mk.injEq, and_assoc]

/-- There is a sample of a kind. -/
def SampledIn (l : List Push.Sample) (k : SampleKind) : Prop := ∃ σ ∈ l, σ.kind = k.name

theorem sampledIn_append {l l' : List Push.Sample} {k : SampleKind} :
    SampledIn (l ++ l') k ↔ SampledIn l k ∨ SampledIn l' k := by
  simp only [SampledIn, List.mem_append, or_and_right, exists_or]

section Samples

variable {d : Kind × String} {path : List String} {all : LeafMap} {o : CerboOptions}
    {k : SampleKind}

theorem sampledIn_addSample {kind service inst leaf value enabled minimum maximum} :
    SampledIn (addSample (leafPath d path) kind service inst leaf value enabled minimum maximum) k ↔
      kind = k.name ∧ d = (service, inst) ∧ (path = leaf ∨ path = ["Connected"]) := by
  have hne : leafPath d path ≠ [] := List.cons_ne_nil _ _
  unfold SampledIn addSample
  simp only [Bool.not_eq_eq_eq_not, Bool.not_true, Bool.eq_false_iff, ne_eq, hne, not_false_eq_true,
    true_and, isLeafOf_leafPath]
  by_cases h : ¬(d = (service, inst) ∧ path = leaf) ∧ ¬(d = (service, inst) ∧ path = ["Connected"])
  · rw [if_pos h]
    refine iff_of_false (by simp) ?_
    rintro ⟨-, hd, hp | hp⟩
    · exact h.1 ⟨hd, hp⟩
    · exact h.2 ⟨hd, hp⟩
  · rw [if_neg h]
    simp only [List.mem_singleton, exists_eq_left]
    have hpath : d = (service, inst) ∧ (path = leaf ∨ path = ["Connected"]) := by
      rw [not_and_or, not_not, not_not] at h
      rcases h with ⟨hd, hp⟩ | ⟨hd, hp⟩
      · exact ⟨hd, Or.inl hp⟩
      · exact ⟨hd, Or.inr hp⟩
    exact (and_iff_left hpath).symm

/-- A sample without a value, unless the changed leaf has one. -/
theorem value_of_mem_addSample {kind service inst leaf value enabled minimum maximum}
    {σ : Push.Sample}
    (h : σ ∈ addSample (leafPath d path) kind service inst leaf value enabled minimum maximum)
    (hnone : d = (service, inst) → path = leaf → value.bind number = none) : σ.value = none := by
  have hne : (leafPath d path == []) = false := rfl
  unfold addSample at h
  split_ifs at h with h'
  · cases h
  · rw [List.mem_singleton.mp h]
    dsimp only
    split_ifs with hfresh
    · rw [hne, Bool.false_or, Bool.and_eq_true, isLeafOf_leafPath] at hfresh
      rw [hnone hfresh.2.1 hfresh.2.2]
      rfl
    · rfl

theorem sampledIn_waterSamples {kind : String} {inst : ℤ} :
    SampledIn (waterSamples all (leafPath d path) kind inst) k ↔
      kind = k.name ∧ d = (.pump, itoa inst) ∧
        (path = [if (deviceLeaves all .pump (itoa inst) "State").isSome then "State"
        else "Status"] ∨
          path = ["Connected"]) := sampledIn_addSample

theorem sampledIn_chargerSamples {configured : ℤ} :
    SampledIn (chargerSamples all (leafPath d path) configured) k ↔
      k = .ev ∧ (pushCharger all configured).map (fun inst => (Kind.evcharger, inst)) = some d ∧
        (path = ["Ac", "Power"] ∨ path = ["Connected"]) := by
  have hname : "ev" = k.name ↔ k = .ev := by
    rw [show "ev" = SampleKind.ev.name from rfl, SampleKind.name_injective.eq_iff, eq_comm]
  unfold chargerSamples
  cases pushCharger all configured with
  | none => simp [SampledIn]
  | some inst =>
    rw [sampledIn_addSample, hname, Option.map_some, Option.some.injEq, eq_comm (a := d)]

theorem sampledIn_socSamples :
    SampledIn (socSamples all (leafPath d path)) k ↔
      k = .soc ∧
        match sampledDevice all o .soc with
        | some (.system, inst) =>
          d = (.system, inst) ∧ (path = ["Dc", "Battery", "Soc"] ∨ path = ["Connected"])
        | some e => d = e ∧ (path = ["Soc"] ∨ path = ["Connected"])
        | none => d.1 = .battery ∨ d.1 = .system := by
  have hname : "soc" = k.name ↔ k = .soc := by
    rw [show "soc" = SampleKind.soc.name from rfl, SampleKind.name_injective.eq_iff, eq_comm]
  unfold socSamples sampledDevice
  cases pushSystem all with
  | some e => exact sampledIn_addSample.trans (and_congr_left fun _ => hname)
  | none =>
    dsimp only
    cases pushBattery all with
    | some inst => exact sampledIn_addSample.trans (and_congr_left fun _ => hname)
    | none =>
      have hhead : (leafPath d path).head? = some "battery" ∨
          (leafPath d path).head? = some "system" ↔
          d.1 = .battery ∨ d.1 = .system := by
        show some d.1.name = some Kind.battery.name ∨ some d.1.name = some Kind.system.name ↔ _
        rw [Option.some.injEq, Option.some.injEq, Kind.name_injective.eq_iff,
          Kind.name_injective.eq_iff]
      have hlen : 2 ≤ (leafPath d path).length := Nat.le_add_left 2 path.length
      dsimp only [Option.map_none]
      by_cases h : d.1 = .battery ∨ d.1 = .system
      · rw [if_pos ⟨hlen, hhead.mpr h⟩]
        simp only [SampledIn, List.mem_singleton, exists_eq_left, hname, h, and_true]
      · rw [if_neg fun hcond => h (hhead.mp hcond.2)]
        simp [SampledIn, h]

theorem sampledIn_pathSamples (hinst : (atoi d.2).isSome = true) :
    SampledIn (pathSamples (leafPath d path)) k ↔
      k = .soc ∧ ["Dc", "Battery", "Instance"] <:+ path ∨
        path = ["Connected"] ∧
          (k = .ev ∧ d.1 = .evcharger ∨ k = .soc ∧ (d.1 = .battery ∨ d.1 = .system)) := by
  have hev : "ev" = k.name ↔ k = .ev := by
    rw [show "ev" = SampleKind.ev.name from rfl, SampleKind.name_injective.eq_iff, eq_comm]
  have hsoc : "soc" = k.name ↔ k = .soc := by
    rw [show "soc" = SampleKind.soc.name from rfl, SampleKind.name_injective.eq_iff, eq_comm]
  have hsuffix : ["Dc", "Battery", "Instance"].isSuffixOf (leafPath d path).tail = true ↔
      ["Dc", "Battery", "Instance"] <:+ path := by
    rw [List.isSuffixOf_iff_suffix, leafPath, List.tail_cons, List.suffix_cons_iff]
    refine or_iff_right fun h => ?_
    rw [← (List.cons.inj h).1] at hinst
    exact absurd hinst (by decide)
  unfold pathSamples
  rw [sampledIn_append]
  refine or_congr ?_ ?_
  · by_cases h : ["Dc", "Battery", "Instance"] <:+ path
    · rw [if_pos (hsuffix.mpr h)]
      simp only [SampledIn, List.mem_singleton, exists_eq_left, hsoc, h, and_true]
    · rw [if_neg fun hc => h (hsuffix.mp hc)]
      simp [SampledIn, h]
  · by_cases hp : path = ["Connected"]
    · subst hp
      have hcharger : d.1.name = "evcharger" ↔ d.1 = .evcharger := by
        rw [show "evcharger" = Kind.evcharger.name from rfl, Kind.name_injective.eq_iff]
      have hsource : d.1.name = "battery" ∨ d.1.name = "system" ↔
          d.1 = .battery ∨ d.1 = .system := by
        rw [show "battery" = Kind.battery.name from rfl, show "system" = Kind.system.name from rfl,
          Kind.name_injective.eq_iff, Kind.name_injective.eq_iff]
      show SampledIn (_ ++ _) k ↔ _
      rw [sampledIn_append]
      simp only [true_and]
      refine or_congr ?_ ?_
      · by_cases h : d.1 = .evcharger
        · rw [if_pos (hcharger.mpr h)]
          simp only [SampledIn, List.mem_singleton, exists_eq_left, hev, h, and_true]
        · rw [if_neg fun hc => h (hcharger.mp hc)]
          simp [SampledIn, h]
      · by_cases h : d.1 = .battery ∨ d.1 = .system
        · rw [if_pos (hsource.mpr h)]
          simp only [SampledIn, List.mem_singleton, exists_eq_left, hsoc, h, and_true]
        · rw [if_neg fun hc => h (hsource.mp hc)]
          simp [SampledIn, h]
    · refine iff_of_false ?_ fun h => hp h.1
      split
      · next kind inst heq =>
        exact absurd (List.cons.inj (List.cons.inj heq).2).2 hp
      · rintro ⟨σ, hσ, -⟩
        cases hσ

/-! ## The cache without a device -/

theorem deviceLeaves_eraseDevice {kind service : Kind} {inst i : String}
    (h : (kind, i) ≠ (service, inst)) :
    deviceLeaves (all.eraseDevice service inst) kind i = deviceLeaves all kind i := by
  funext p
  unfold deviceLeaves
  rw [LeafMap.lookup_eraseDevice, if_neg]
  rintro ⟨hk, hi⟩
  exact h (Prod.ext hk hi)

theorem deviceLeaves_eraseDevice_self {service : Kind} {inst : String} :
    deviceLeaves (all.eraseDevice service inst) service inst = Device.missing := by
  funext p
  unfold deviceLeaves
  rw [LeafMap.lookup_eraseDevice, if_pos ⟨rfl, rfl⟩]
  rfl

/-- Devices of other kinds stay. -/
theorem devices_eraseDevice_of_ne {kind service : Kind} {inst : String} (h : kind ≠ service) :
    devices (all.eraseDevice service inst) kind = devices all kind := by
  have hleaves : ∀ i, deviceLeaves (all.eraseDevice service inst) kind i =
      deviceLeaves all kind i :=
    fun i => deviceLeaves_eraseDevice fun hd => h (Prod.ext_iff.mp hd).1
  have hkeys : ((all.eraseDevice service inst).keys.filterMap fun l =>
      if l.kind = kind ∧ (atoi l.inst).isSome then some l.inst else none) =
      all.keys.filterMap fun l => if l.kind = kind ∧ (atoi l.inst).isSome then some l.inst
      else none := by
    show ((all.entries.filter _).map Sigma.fst).filterMap _ =
      (all.entries.map Sigma.fst).filterMap _
    rw [List.filterMap_map, List.filterMap_map, List.filterMap_filter]
    refine List.filterMap_congr fun e _ => ?_
    by_cases hk : e.1.kind = kind
    · have hne : (e.1.kind == service) = false := beq_eq_false_iff_ne.mpr (hk ▸ h)
      simp [hne]
    · simp [hk]
  unfold devices
  rw [hkeys]
  simp only [hleaves]

/-- A device that stays was there, and is another one. -/
theorem mem_devices_of_eraseDevice {service : Kind} {inst : String} {e : String × Device}
    (h : e ∈ devices (all.eraseDevice service inst) service) :
    e ∈ devices all service ∧ e.1 ≠ inst := by
  unfold devices at h ⊢
  rw [List.mem_filter, List.mem_map] at h ⊢
  obtain ⟨⟨i, hi, rfl⟩, henabled⟩ := h
  rw [List.mem_dedup, List.mem_filterMap] at hi
  obtain ⟨l, hl, hli⟩ := hi
  split_ifs at hli with hk
  obtain rfl := Option.some.inj hli
  have hlookup : ((all.eraseDevice service inst).lookup l).isSome = true :=
    AList.lookup_isSome.mpr (AList.mem_keys.mp hl)
  rw [LeafMap.lookup_eraseDevice] at hlookup
  split_ifs at hlookup with hsame
  · cases hlookup
  · have hne : l.inst ≠ inst := fun hi => hsame ⟨hk.1, hi⟩
    have hleaves : deviceLeaves (all.eraseDevice service inst) service l.inst =
        deviceLeaves all service l.inst :=
      deviceLeaves_eraseDevice fun hd => hne (Prod.ext_iff.mp hd).2
    dsimp only at henabled ⊢
    rw [hleaves] at henabled
    refine ⟨⟨⟨l.inst, ?_, by rw [hleaves]⟩, by rw [hleaves]; exact henabled⟩, hne⟩
    rw [List.mem_dedup, List.mem_filterMap]
    exact ⟨l, AList.mem_keys.mpr (AList.lookup_isSome.mp hlookup), if_pos hk⟩

/-- The device of a sample with a number is not a removed one. -/
theorem lookup_of_mem_devices {kind : Kind} {e : String × Device} (h : e ∈ devices all kind) :
    e.2 = deviceLeaves all kind e.1 := by
  obtain ⟨i, -, rfl⟩ := List.mem_map.mp (List.mem_of_mem_filter h)
  rfl

theorem pushCharger_eraseDevice {configured : ℤ} {inst : String} (h : configured < 0) :
    pushCharger (all.eraseDevice .evcharger inst) configured ≠ some inst := by
  unfold pushCharger
  rw [if_pos h]
  intro hsome
  obtain ⟨e, he, rfl⟩ := Option.map_eq_some_iff.mp hsome
  exact (mem_devices_of_eraseDevice (mem_sortedStringKeys.mp (List.mem_of_find?_eq_some he))).2 rfl

theorem pushSystem_eraseDevice {inst : String} {e : String × Device}
    (h : pushSystem (all.eraseDevice .system inst) = some e) : e.1 ≠ inst :=
  (mem_devices_of_eraseDevice (mem_sortedStringKeys.mp (List.mem_of_find?_eq_some h))).2

theorem pushSystem_eraseDevice_battery {inst : String} :
    pushSystem (all.eraseDevice .battery inst) = pushSystem all := by
  unfold pushSystem
  rw [devices_eraseDevice_of_ne (by decide)]

/-- Without the selected battery no battery is selected, unless a system still selects it. -/
theorem pushBattery_eraseDevice {inst : String} (h : pushBattery all = some inst) :
    pushBattery (all.eraseDevice .battery inst) = some inst ∨
      pushBattery (all.eraseDevice .battery inst) = none := by
  unfold pushBattery at h ⊢
  rw [devices_eraseDevice_of_ne (by decide : Kind.system ≠ .battery)]
  dsimp only at h ⊢
  split at h
  · exact Or.inl h
  · right
    split at h
    · next e he =>
      obtain rfl := Option.some.inj h
      have hnil : devices (all.eraseDevice .battery e.1) .battery = [] := by
        refine List.eq_nil_iff_forall_not_mem.mpr fun e' he' => ?_
        obtain ⟨hmem, hne⟩ := mem_devices_of_eraseDevice he'
        rw [he, List.mem_singleton] at hmem
        exact hne (hmem ▸ rfl)
      rw [hnil]
    · cases h

/-- The source of the state of charge is a system, or a battery if no system exposes it. -/
theorem sampledDevice_soc_cases (h : sampledDevice all o .soc = some d) :
    (∃ e, pushSystem all = some e ∧ d = (.system, e.1)) ∨
      pushSystem all = none ∧ ∃ inst, pushBattery all = some inst ∧ d = (.battery, inst) := by
  have hsel : (match pushSystem all with
      | some e => some (Kind.system, e.1)
      | none => (pushBattery all).map fun inst => (.battery, inst)) = some d := h
  cases hs : pushSystem all with
  | some e =>
    rw [hs] at hsel
    exact Or.inl ⟨e, rfl, (Option.some.inj hsel).symm⟩
  | none =>
    rw [hs] at hsel
    obtain ⟨inst, hb, hd⟩ := Option.map_eq_some_iff.mp hsel
    exact Or.inr ⟨rfl, inst, hb, hd.symm⟩

theorem sampledDevice_soc_of_none (h : pushSystem all = none) :
    sampledDevice all o .soc = (pushBattery all).map fun inst => (.battery, inst) := by
  show (match pushSystem all with
    | some e => some (Kind.system, e.1)
    | none => (pushBattery all).map fun inst => (.battery, inst)) = _
  rw [h]

theorem sampledDevice_soc_of_some {e : String × Device} (h : pushSystem all = some e) :
    sampledDevice all o .soc = some (.system, e.1) := by
  show (match pushSystem all with
    | some e => some (Kind.system, e.1)
    | none => (pushBattery all).map fun inst => (.battery, inst)) = _
  rw [h]

/-! ## Which removals are sampled -/

/-- The messages about a removed device that reach the baseline of a kind: they invalidate the leaf
that is sampled once the device is gone, or leave no source. -/
def Invalidates (all : LeafMap) (o : CerboOptions) (k : SampleKind) (d : Kind × String)
    (path : List String) : Prop :=
  path = ["Connected"] ∨
    match k with
    | .pump | .valve => path = ["Status"]
    | .ev => 0 ≤ o.evchargerInstance ∧ path = ["Ac", "Power"]
    | .soc => ["Dc", "Battery", "Instance"] <:+ path ∨ d.1 = .battery ∧ path = ["Soc"] ∨
      sampledDevice (all.eraseDevice d.1 d.2) o .soc = none

theorem sampledIn_native_iff (changed : List String) :
    SampledIn (nativePushSamples all o changed) k ↔
      (((SampledIn (waterSamples all changed "pump" o.pumpInstance) k ∨
        SampledIn (waterSamples all changed "valve" o.valveInstance) k) ∨
        SampledIn (chargerSamples all changed o.evchargerInstance) k) ∨
        SampledIn (socSamples all changed) k) ∨ SampledIn (pathSamples changed) k := by
  rw [nativePushSamples, sampledIn_append, sampledIn_append, sampledIn_append, sampledIn_append]

/-- The changed path of `Connected` is sampled for the kind of its device. -/
theorem sampledIn_connected {all₀ : LeafMap} (hinst : (atoi d.2).isSome = true)
    (hsel : sampledDevice all₀ o k = some d) :
    SampledIn (nativePushSamples all o (leafPath d ["Connected"])) k := by
  rw [sampledIn_native_iff]
  cases k with
  | pump =>
    obtain rfl := Option.some.inj hsel
    exact Or.inl (Or.inl (Or.inl (Or.inl (sampledIn_waterSamples.mpr ⟨rfl, rfl, Or.inr rfl⟩))))
  | valve =>
    obtain rfl := Option.some.inj hsel
    exact Or.inl (Or.inl (Or.inl (Or.inr (sampledIn_waterSamples.mpr ⟨rfl, rfl, Or.inr rfl⟩))))
  | ev =>
    obtain ⟨inst, -, rfl⟩ := Option.map_eq_some_iff.mp hsel
    exact Or.inr ((sampledIn_pathSamples hinst).mpr (Or.inr ⟨rfl, Or.inl ⟨rfl, rfl⟩⟩))
  | soc =>
    refine Or.inr ((sampledIn_pathSamples hinst).mpr (Or.inr ⟨rfl, Or.inr ⟨rfl, ?_⟩⟩))
    rcases sampledDevice_soc_cases hsel with ⟨e, -, rfl⟩ | ⟨-, inst, -, rfl⟩
    · exact Or.inr rfl
    · exact Or.inl rfl

/-- **Tombstones.** A tombstone of the sampled device is sampled exactly if it invalidates.

**Proof sketch.** By the kind. What is sampled behind the tombstone is looked up in the cache
without the device, so its own leaves select nothing any more. -/
theorem sampledIn_tombstone_iff (hinst : (atoi d.2).isSome = true)
    (hsel : sampledDevice all o k = some d) :
    SampledIn (nativePushSamples (all.eraseDevice d.1 d.2) o (leafPath d path)) k ↔
      Invalidates all o k d path := by
  by_cases hp : path = ["Connected"]
  · subst hp
    exact iff_of_true (sampledIn_connected hinst hsel) (Or.inl rfl)
  rw [sampledIn_native_iff, sampledIn_waterSamples, sampledIn_waterSamples,
    sampledIn_chargerSamples, sampledIn_socSamples (o := o), sampledIn_pathSamples hinst]
  simp only [hp, or_false, false_and]
  unfold Invalidates
  rw [or_iff_right hp]
  cases k with
  | pump =>
    obtain rfl := Option.some.inj hsel
    simp [SampleKind.name, deviceLeaves_eraseDevice_self, Device.missing]
  | valve =>
    obtain rfl := Option.some.inj hsel
    simp [SampleKind.name, deviceLeaves_eraseDevice_self, Device.missing]
  | ev =>
    obtain ⟨inst, hcharger, rfl⟩ := Option.map_eq_some_iff.mp hsel
    simp only [SampleKind.name, reduceCtorEq, false_and, or_false, true_and, String.reduceEq,
      false_or]
    by_cases hneg : o.evchargerInstance < 0
    · refine iff_of_false ?_ fun h => absurd hneg (not_lt.mpr h.1)
      rintro ⟨hsome, -⟩
      obtain ⟨inst', hinst', heq⟩ := Option.map_eq_some_iff.mp hsome
      obtain rfl := (Prod.mk.inj heq).2
      exact pushCharger_eraseDevice hneg hinst'
    · have hsame : pushCharger (all.eraseDevice .evcharger inst) o.evchargerInstance =
          some inst := by
        unfold pushCharger at hcharger ⊢
        rw [if_neg hneg] at hcharger ⊢
        exact hcharger
      rw [hsame, Option.map_some]
      simp [not_lt.mp hneg]
  | soc =>
    simp only [SampleKind.name, reduceCtorEq, false_and, or_false, true_and, String.reduceEq,
      false_or]
    rw [or_comm]
    refine or_congr_right ?_
    rcases sampledDevice_soc_cases hsel with ⟨e, he, rfl⟩ | ⟨hs, inst, hb, rfl⟩
    · simp only [reduceCtorEq, false_and, false_or]
      cases hs : pushSystem (all.eraseDevice .system e.1) with
      | some e' =>
        rw [sampledDevice_soc_of_some hs]
        have hne := pushSystem_eraseDevice hs
        simp [Ne.symm hne]
      | none =>
        rw [sampledDevice_soc_of_none hs]
        cases pushBattery (all.eraseDevice .system e.1) with
        | none => simp
        | some inst => simp
    · rw [sampledDevice_soc_of_none (pushSystem_eraseDevice_battery.trans hs)]
      rcases pushBattery_eraseDevice hb with hb' | hb'
      · rw [hb']
        simp
      · rw [hb']
        simp

theorem value_of_mem_pathSamples {changed : List String} {σ : Push.Sample}
    (h : σ ∈ pathSamples changed) : σ.value = none := by
  unfold pathSamples at h
  rcases List.mem_append.mp h with h | h
  · split_ifs at h
    · rw [List.mem_singleton.mp h]
    · cases h
  · split at h
    · rcases List.mem_append.mp h with h | h
      · split_ifs at h
        · rw [List.mem_singleton.mp h]
        · cases h
      · split_ifs at h
        · rw [List.mem_singleton.mp h]
        · cases h
    · cases h

/-- **No values.** A message about `Connected` or a device without leaves brings no reading. -/
theorem value_of_mem_native
    (hgone : path = ["Connected"] ∨ deviceLeaves all d.1 d.2 = Device.missing) {σ : Push.Sample}
    (h : σ ∈ nativePushSamples all o (leafPath d path)) : σ.value = none := by
  have hwater : ∀ {kind : String} {inst : ℤ},
      σ ∈ waterSamples all (leafPath d path) kind inst → σ.value = none := by
    intro kind inst hσ
    refine value_of_mem_addSample hσ fun hd hpath => ?_
    rcases hgone with hp | hmissing
    · rw [hpath] at hp
      split_ifs at hp <;> exact absurd hp (by decide)
    · rw [hd] at hmissing
      rw [hmissing]
      rfl
  have hdevice : ∀ {kind : Kind} {inst : String} {leaf : List String},
      leaf ≠ ["Connected"] → d = (kind, inst) → path = leaf → ∀ text,
        deviceLeaves all kind inst text = none := by
    intro kind inst leaf hleaf hd hpath text
    rcases hgone with hp | hmissing
    · exact absurd (hpath.symm.trans hp) hleaf
    · rw [hd] at hmissing
      rw [hmissing]
      rfl
  have hentry : ∀ {kind : Kind} {inst text : String}, deviceLeaves all kind inst text = none →
      (((entry (devices all kind) inst).bind fun e => e text).bind number) = none := by
    intro kind inst text hnone
    cases he : entry (devices all kind) inst with
    | none => rfl
    | some e =>
      have hleaves : e = deviceLeaves all kind inst := lookup_of_mem_devices (mem_of_entry he)
      rw [Option.bind_some, hleaves, hnone]
      rfl
  rw [nativePushSamples, List.mem_append, List.mem_append, List.mem_append, List.mem_append] at h
  rcases h with (((h | h) | h) | h) | h
  · exact hwater h
  · exact hwater h
  · unfold chargerSamples at h
    split at h
    · cases h
    · exact value_of_mem_addSample h fun hd hpath =>
        hentry (hdevice (by decide) hd hpath "Ac/Power")
  · unfold socSamples at h
    split at h
    · next inst e he =>
      refine value_of_mem_addSample h fun hd hpath => ?_
      have hleaves := lookup_of_mem_devices (mem_sortedStringKeys.mp (List.mem_of_find?_eq_some he))
      dsimp only at hleaves
      rw [hleaves, hdevice (by decide) hd hpath]
      rfl
    · split at h
      · split_ifs at h
        · rw [List.mem_singleton.mp h]
        · cases h
      · exact value_of_mem_addSample h fun hd hpath => hentry (hdevice (by decide) hd hpath "Soc")
  · exact value_of_mem_pathSamples h

end Samples

namespace Client

/-! ## Messages about a device that disappears -/

/-- A payload that disconnects: `Connected` is not 1. -/
def disconnects (payload : Payload) : Bool :=
  match parseCerboPayload payload with
  | some v => !(number v).any fun n => n.eq 1
  | none => false

/-- The device that an accepted device message removes or disconnects, and the changed path. -/
def vanishes (c : Client) (session : ℕ) : Message → Option ((Kind × String) × List String)
  | .native ("N" :: portal :: kindName :: inst :: rest) payload =>
    if c.admitsNative session ("N" :: portal :: kindName :: inst :: rest) payload ∧
        hasInnerLevel ("N" :: portal :: kindName :: inst :: rest) "Alarms" = false ∧
        (atoi inst).isSome ∧
        (payload = .empty ∨ rest = ["Connected"] ∧ disconnects payload = true) then
      (Kind.ofName? kindName).map fun kind =>
        ((kind, inst), if rest = [] then ["Connected"] else rest)
    else none
  | _ => none

/-- `Connected` accepts every value: what is not 0 or 1 counts as unknown. -/
theorem acceptsValue_connected (v : Any) :
    acceptsValue "Connected" (normaliseConnected "Connected" v) = true := by
  unfold normaliseConnected
  split_ifs with h
  · rfl
  · have hsome : (number v).isSome = true := by
      cases hn : number v with
      | some n => rfl
      | none =>
        rw [hn] at h
        exact absurd ⟨rfl, rfl⟩ h
    cases v with
    | string s => cases hsome
    | nil => rfl
    | _ => exact hsome

/-- The message is accepted, and a tombstone leaves the cache without the device. -/
theorem handleCerboDevice_of_vanishes (c : Client) {portal kindName inst : String}
    {rest : List String} {kind : Kind} {payload : Payload} (now : Time)
    (hkind : Kind.ofName? kindName = some kind) (hportal : c.portalID ≠ "" → portal = c.portalID)
    (hinst : (atoi inst).isSome = true)
    (hcase : payload = .empty ∨ rest = ["Connected"] ∧ disconnects payload = true) :
    ∃ c', c.handleCerboDevice ("N" :: portal :: kindName :: inst :: rest) payload now =
        some (c', true) ∧ c'.options = c.options ∧
      (payload = .empty → c'.cerboLeaves = c.cerboLeaves.eraseDevice kind inst) := by
  have hguard : ¬ ((c.portalID ≠ "" ∧ portal ≠ c.portalID) ∨ (atoi inst).isNone = true) := by
    rintro (⟨hne, hp⟩ | hnone)
    · exact hp (hportal hne)
    · rw [Option.isNone_iff_eq_none] at hnone
      rw [hnone] at hinst
      cases hinst
  have hchanged : ∀ c',
      c.handleCerboDevice ("N" :: portal :: kindName :: inst :: rest) payload now ≠
      some (c', false) := by
    intro c' h
    simp only [handleCerboDevice, hkind, if_neg hguard] at h
    by_cases hempty : payload = .empty
    · rw [if_pos hempty] at h
      obtain ⟨c'', h', -⟩ := c.initCerboMaps.removeDevice_spec kind inst
      cases h'.symm.trans h
    · rw [if_neg hempty] at h
      obtain ⟨rfl, hdis⟩ := hcase.resolve_left hempty
      unfold handleLeaf at h
      cases hv : parseCerboPayload payload with
      | none =>
        rw [disconnects, hv] at hdis
        cases hdis
      | some v =>
        rw [hv] at h
        dsimp only at h
        rw [if_pos ⟨List.cons_ne_nil _ _, acceptsValue_connected v⟩] at h
        obtain ⟨c'', -, heq⟩ := Option.map_eq_some_iff.mp h
        cases heq
  obtain ⟨c', changed, h, hcases⟩ :=
    c.handleCerboDevice_spec ("N" :: portal :: kindName :: inst :: rest) payload now
  rcases hcases with ⟨rfl, -⟩ | ⟨rfl, c₁, hst, hov⟩
  · exact absurd h (hchanged c')
  · refine ⟨c', h, (hst.sameTransport.trans hov.sameTransport).options, fun hempty => ?_⟩
    obtain ⟨portal', kindName', kind', inst', rest', hparts, hkind', -, hleaves⟩ := hst.leaves
    obtain ⟨-, hparts⟩ := List.cons.inj hparts
    obtain ⟨-, hparts⟩ := List.cons.inj hparts
    obtain ⟨hname, hparts⟩ := List.cons.inj hparts
    obtain ⟨hinst', -⟩ := List.cons.inj hparts
    have hsame := Option.some.inj (hkind.symm.trans (hname ▸ hkind'))
    rw [hsame, hinst']
    have hcache : c'.cerboLeaves = c₁.cerboLeaves := by rw [hov.frame]
    rcases hleaves with ⟨-, hl⟩ | ⟨v, -, hv, -⟩
    · exact hcache.trans hl
    · rw [hempty] at hv
      cases hv

/-- A vanishing device is sampled in a cache without it, or for its `Connected` leaf, and no sample
has a value. -/
theorem pushOf_of_vanishes {c : Client} (r : NativeScalars) (parse : String → Push.Instant)
    {session : ℕ} (retained : Bool) {m : Message} (now : Time) {d : Kind × String}
    {path : List String} (hsource : c.pushSource = some .mqtt) (hlan : c.gatewayMode = false)
    (h : c.vanishes session m = some (d, path)) :
    ∃ ob, c.pushOf r parse session retained m now = some ob ∧ ob.notifications = none ∧
      ob.complete = false ∧ (∀ σ ∈ ob.samples, σ.value = none) ∧
      ∀ k, sampledDevice c.cerboLeaves c.options k = some d →
        (SampledIn ob.samples k ↔ Invalidates c.cerboLeaves c.options k d path) := by
  unfold vanishes at h
  split at h
  swap
  · cases h
  next portal kindName inst rest payload =>
  by_cases hcond : c.admitsNative session ("N" :: portal :: kindName :: inst :: rest) payload ∧
      hasInnerLevel ("N" :: portal :: kindName :: inst :: rest) "Alarms" = false ∧
      (atoi inst).isSome ∧
      (payload = .empty ∨ rest = ["Connected"] ∧ disconnects payload = true)
  swap
  · rw [if_neg hcond] at h
    cases h
  · rw [if_pos hcond] at h
    obtain ⟨hadm, halarm, hinst, hcase⟩ := hcond
    obtain ⟨kind, hkind, heq⟩ := Option.map_eq_some_iff.mp h
    obtain ⟨rfl, rfl⟩ := Prod.mk.inj heq
    have hname := Kind.name_of_ofName? hkind
    have hadm' := hadm
    simp only [admitsNative, Bool.and_eq_true, Bool.or_eq_true, beq_iff_eq, List.getD_cons_succ,
      List.getD_cons_zero] at hadm'
    obtain ⟨⟨⟨⟨⟨⟨hsession, -⟩, -⟩, -⟩, -⟩, -⟩, -⟩ := hadm'
    have hskip : ¬ (c.mqttSession ≠ session ∨ c.pushSource ≠ some .mqtt ∨
        c.gatewayMode = true) := by
      rintro (hne | hne | hg)
      · exact hne hsession
      · exact hne hsource
      · rw [hlan] at hg
        cases hg
    have hlen : ¬ ("N" :: portal :: kindName :: inst :: rest).length = 3 := by
      simp
    have hplatform : ¬ (("N" :: portal :: kindName :: inst :: rest).getD 2 "" = "platform" ∧
        hasInnerLevel ("N" :: portal :: kindName :: inst :: rest) "Notifications" = true) := by
      rintro ⟨hp, -⟩
      have hp' : kindName = "platform" := hp
      have hnone : Kind.ofName? "platform" = none := by decide
      rw [hp', hnone] at hkind
      cases hkind
    obtain ⟨c', hc', hoptions, hcache⟩ := handleCerboDevice_of_vanishes
      ({ c with portalID := portal } : Client) now hkind (fun _ => rfl) hinst hcase
    have hpath : changedPath ("N" :: portal :: kindName :: inst :: rest) payload =
        leafPath (kind, inst) (if rest = [] then ["Connected"] else rest) := by
      unfold changedPath leafPath
      rw [hname]
      by_cases hrest : rest = []
      · have hempty : payload = .empty := by
          refine hcase.resolve_right fun hc => ?_
          rw [hrest] at hc
          cases hc.1
        simp [hrest, hempty]
      · have hlong : ¬ (payload = .empty ∧
            ("N" :: portal :: kind.name :: inst :: rest).length = 4) := by
          rintro ⟨-, hl⟩
          exact hrest (List.length_eq_zero_iff.mp (by simpa using hl))
        rw [if_neg hlong, if_neg hrest]
        rfl
    refine ⟨c'.devicePush ("N" :: portal :: kindName :: inst :: rest) payload true retained,
      ?_, rfl,
      rfl, ?_, ?_⟩
    · rw [pushOf, if_neg hskip]
      rw [if_pos hadm]
      show nativePush ({ c with portalID := portal } : Client) r parse _ payload retained now = _
      rw [nativePush, if_neg hlen, if_neg hplatform, halarm, if_neg Bool.false_ne_true, hc']
      rfl
    · intro σ hσ
      obtain ⟨τ, hτ, rfl⟩ := List.mem_map.mp hσ
      rw [hpath] at hτ
      refine value_of_mem_native ?_ hτ
      rcases hcase with hempty | ⟨rfl, -⟩
      · rw [hcache hempty]
        exact Or.inr deviceLeaves_eraseDevice_self
      · exact Or.inl rfl
    · intro k hsel
      have hsamples : (c'.devicePush ("N" :: portal :: kindName :: inst :: rest) payload true
          retained).samples = nativePushSamples c'.cerboLeaves c.options (leafPath (kind, inst)
            (if rest = [] then ["Connected"] else rest)) := by
        show List.map _ _ = _
        rw [hpath, hoptions]
        exact List.map_id _
      rw [hsamples]
      by_cases hempty : payload = .empty
      · rw [hcache hempty]
        exact sampledIn_tombstone_iff (d := (kind, inst)) hinst hsel
      · obtain ⟨rfl, -⟩ := hcase.resolve_left hempty
        exact iff_of_true (sampledIn_connected hinst hsel) (Or.inl rfl)

end Client

/-! ## One removal -/

instance (all : LeafMap) (o : CerboOptions) (k : SampleKind) (d : Kind × String)
    (path : List String) : Decidable (Invalidates all o k d path) :=
  match k with
  | .pump | .valve => inferInstanceAs (Decidable (path = ["Connected"] ∨ path = ["Status"]))
  | .ev => inferInstanceAs (Decidable
      (path = ["Connected"] ∨ 0 ≤ o.evchargerInstance ∧ path = ["Ac", "Power"]))
  | .soc => inferInstanceAs (Decidable (path = ["Connected"] ∨
      ["Dc", "Battery", "Instance"] <:+ path ∨ d.1 = .battery ∧ path = ["Soc"] ∨
        sampledDevice (all.eraseDevice d.1 d.2) o .soc = none))

/-- **One removal.** The sampled device that a message removes or disconnects has no baseline
afterwards exactly if it had none or the message invalidates. -/
theorem Pushing.baseline_iff_of_vanishes {s : Pushing} (h : s.Inv) (L : Push.Libs)
    (r : NativeScalars) (parse : String → Push.Instant) (i : PushInput) {session : ℕ}
    (hbound : session ∈ s.lan.bound) {retained : Bool} {m : Message} {k : SampleKind}
    {d : Kind × String} {path : List String}
    (hsel : sampledDevice s.lan.client.cerboLeaves s.lan.client.options k = some d)
    (hv : s.lan.client.vanishes session m = some (d, path)) :
    (s.processorAfter L r parse i (.deliver session retained m)).baseline (sampleKey k d) = none ↔
      s.processor.baseline (sampleKey k d) = none ∨
        Invalidates s.lan.client.cerboLeaves s.lan.client.options k d path := by
  obtain ⟨ob, hob, hnotifications, hcomplete, hvalues, hsampled⟩ :=
    Client.pushOf_of_vanishes r parse retained s.lan.now
      (h.source (List.ne_nil_of_mem hbound)) h.sessions.lan hv
  have hdead : ∀ σ ∈ ob.samples, σ.kind ∈ Push.sampleKinds ∧
      Push.Processor.liveValue ob.retained σ = none := by
    intro σ hσ
    refine ⟨Client.mem_sampleKinds_of_pushOf hob σ hσ, ?_⟩
    unfold Push.Processor.liveValue
    rw [hvalues σ hσ]
  simp only [Pushing.processorAfter]
  rw [hob, ← hsampled k hsel]
  exact h.holds.baseline_observe_iff L i.fails hnotifications hcomplete hdead i.now
    (τ := ⟨k.name, deviceID d.1 d.2, none⟩) k.name_mem

/-! ## The run -/

/-- A run on LAN with the sampled devices that disappeared since their last live reading. -/
structure Vanishing where
  push : Pushing
  gone : SampleKind → Kind × String → Bool

namespace Vanishing

/-- The message removes or disconnects the device that a kind is sampled from. -/
def removes (s : Vanishing) (session : ℕ) (m : Message) (k : SampleKind) (d : Kind × String) :
    Bool :=
  sampledDevice s.push.lan.client.cerboLeaves s.push.lan.client.options k == some d &&
    (s.push.lan.client.vanishes session m).any fun v => v.1 == d

/-- The observation has a live reading of a device. -/
def reads (ob : Option Push.Observation) (k : SampleKind) (d : Kind × String) : Bool :=
  ob.any fun ob => ob.samples.any fun σ =>
    σ.key == sampleKey k d && (Push.Processor.liveValue ob.retained σ).isSome

/-- The devices that are gone behind an event. -/
def goneAfter (s : Vanishing) (r : NativeScalars) (parse : String → Push.Instant) :
    LanEvent → SampleKind → Kind × String → Bool
  | .deliver session retained m, k, d =>
    s.removes session m k d ||
      s.gone k d &&
        !reads (s.push.lan.client.pushOf r parse session retained m s.push.lan.now) k d
  | _, k, d => s.gone k d

/-- One event. -/
def step (L : Push.Libs) (r : NativeScalars) (parse : String → Push.Instant) (s : Vanishing)
    (e : LanEvent × PushInput) : Option Vanishing :=
  (s.push.step L r parse e).map fun push => ⟨push, s.goneAfter r parse e.1⟩

/-- The start of a run. -/
def Init (s : Vanishing) : Prop := s.push.Init ∧ s.gone = fun _ _ => false

/-- The message that removes or disconnects a sampled device with a baseline invalidates it. -/
def Keeps (s : Vanishing) : LanEvent × PushInput → Prop
  | (.deliver session _ m, _) =>
    ∀ v ∈ s.push.lan.client.vanishes session m, ∀ k ∈ SampleKind.all,
      sampledDevice s.push.lan.client.cerboLeaves s.push.lan.client.options k = some v.1 →
      s.push.processor.baseline (sampleKey k v.1) ≠ none →
      Invalidates s.push.lan.client.cerboLeaves s.push.lan.client.options k v.1 v.2
  | _ => True

/-- The devices that are gone have no baseline. -/
structure Inv (s : Vanishing) : Prop where
  push : s.push.Inv
  gone : ∀ k d, s.gone k d = true → s.push.processor.baseline (sampleKey k d) = none

theorem inv_of_init {s : Vanishing} (h : s.Init) : s.Inv := by
  obtain ⟨hpush, hgone⟩ := h
  refine ⟨Pushing.inv_of_init hpush, fun k d hkd => ?_⟩
  rw [hgone] at hkd
  cases hkd

/-- What is not read stays without a baseline. -/
theorem baseline_of_not_reads (L : Push.Libs) (fails : ℕ → Bool) {p : Push.Processor}
    {ob : Option Push.Observation} (now : Push.Instant) {k : SampleKind} {d : Kind × String}
    (hreads : reads ob k d = false) (h : p.baseline (sampleKey k d) = none) :
    (match ob with
      | some ob => (p.observe L fails ob now).processor
      | none => p).baseline (sampleKey k d) = none := by
  cases ob with
  | none => exact h
  | some ob =>
    refine Push.Processor.baseline_observe_eq_none L fails now (fun σ hσ hkey => ?_) h
    have hnot := List.any_eq_false.mp (Option.any_some.symm.trans hreads) σ hσ
    rw [hkey, beq_self_eq_true, Bool.true_and] at hnot
    exact Option.not_isSome_iff_eq_none.mp hnot

/-- A reset keeps what has no baseline without one. -/
theorem baseline_resetWith {p : Push.Processor} (i : PushInput) (connected : Bool) {key : String}
    (h : p.baseline key = none) : (Pushing.resetWith p i connected).baseline key = none := by
  unfold Pushing.resetWith
  cases i.epoch with
  | none => exact h
  | some epoch => rfl

/-- **Step.** -/
theorem inv_step {L : Push.Libs} {r : NativeScalars} {parse : String → Push.Instant}
    {s s' : Vanishing} {e : LanEvent × PushInput} (h : s.Inv) (hok : s.Keeps e)
    (hs : s.step L r parse e = some s') : s'.Inv := by
  obtain ⟨push, hpush, rfl⟩ := Option.map_eq_some_iff.mp hs
  refine ⟨Pushing.inv_step h.push hpush, fun k d hkd => ?_⟩
  obtain ⟨e, i⟩ := e
  obtain ⟨lan, hlan, rfl⟩ := Option.map_eq_some_iff.mp hpush
  show (s.push.processorAfter L r parse i e).baseline (sampleKey k d) = none
  cases e with
  | deliver session retained m =>
    have hbound : session ∈ s.push.lan.bound := by
      by_contra hno
      rw [Lan.step, if_neg hno] at hlan
      cases hlan
    rcases (Bool.or_eq_true _ _).mp hkd with hremoves | hstays
    · obtain ⟨hsel, hany⟩ := (Bool.and_eq_true _ _).mp hremoves
      obtain ⟨⟨d', path⟩, hv, hd⟩ := (Option.any_eq_true _ _).mp hany
      obtain rfl : d' = d := beq_iff_eq.mp hd
      rw [Pushing.baseline_iff_of_vanishes h.push L r parse i hbound (beq_iff_eq.mp hsel) hv]
      by_cases hb : s.push.processor.baseline (sampleKey k d') = none
      · exact Or.inl hb
      · exact Or.inr (hok _ hv k k.mem_all (beq_iff_eq.mp hsel) hb)
    · obtain ⟨hgone, hreads⟩ := (Bool.and_eq_true _ _).mp hstays
      exact baseline_of_not_reads L i.fails i.now (by simpa using hreads) (h.gone k d hgone)
  | tick ms => exact h.gone k d hkd
  | expire => exact h.gone k d hkd
  | opened => exact h.gone k d hkd
  | lost => exact baseline_resetWith i false (h.gone k d hkd)
  | subscribe o =>
    show (if s.push.lan.client.canSubscribe then Pushing.resetWith s.push.processor i true
      else s.push.processor).baseline (sampleKey k d) = none
    split_ifs
    · exact baseline_resetWith i true (h.gone k d hkd)
    · exact h.gone k d hkd

/-- **Devices that disappear.** In every run on LAN in which each message that removes or
disconnects a sampled device with a baseline invalidates it, a device that disappeared since its
last live reading has no baseline. -/
theorem gone_of_reachable {L : Push.Libs} {r : NativeScalars} {parse : String → Push.Instant}
    {s : Vanishing} (h : Transition.Reachable (Vanishing.step L r parse) Keeps Init s)
    {k : SampleKind} {d : Kind × String} (hgone : s.gone k d = true) :
    s.push.processor.baseline (sampleKey k d) = none :=
  (h.invariant (I := Inv) (fun _ hs => inv_of_init hs)
    fun _ _ _ hi hok hs => inv_step hi hok hs).gone k d hgone

/-! ## Two runs -/

instance (s : Vanishing) (e : LanEvent × PushInput) : Decidable (s.Keeps e) :=
  match e with
  | (.deliver session _ m, _) => inferInstanceAs (Decidable
      (∀ v ∈ s.push.lan.client.vanishes session m, ∀ k ∈ SampleKind.all,
        sampledDevice s.push.lan.client.cerboLeaves s.push.lan.client.options k = some v.1 →
        s.push.processor.baseline (sampleKey k v.1) ≠ none →
        Invalidates s.push.lan.client.cerboLeaves s.push.lan.client.options k v.1 v.2))
  | (.tick _, _) | (.expire, _) | (.opened, _) | (.lost, _) | (.subscribe _, _) => isTrue trivial

/-- The pump is read and its topic with the given path is cleared. -/
def cleared (path : List String) : List (LanEvent × PushInput) :=
  [.opened, .subscribe ⟨true, true⟩,
    .deliver 1 false (.native ["N", "c0", "pump", "0", "State"]
      (.json (.obj [("value", .num (.ofInt 0))]))),
    .deliver 1 false (.native (["N", "c0", "pump", "0"] ++ path) .empty)].map
    fun e => (e, ⟨0, some "epoch", fun _ => false⟩)

/-- The pump of the configuration disappeared. -/
def pumpGone (s : Vanishing) : Bool := s.gone .pump (.pump, "0")

/-- A client on LAN whose portal is configured, with a new processor. -/
def fresh : Vanishing := ⟨⟨Lan.configured, {}⟩, fun _ _ => false⟩

theorem init_fresh : fresh.Init := ⟨⟨Lan.init_configured, rfl⟩, rfl⟩

theorem gone_of_reachable_cleared : ∃ s : Vanishing,
    Transition.Reachable (Vanishing.step Push.Service.sampleLibs Lan.noScalars fun _ => 0)
      Keeps Init s ∧
      s.gone .pump (.pump, "0") = true ∧
      s.push.processor.baseline (sampleKey .pump (.pump, "0")) = none := by
  obtain ⟨s, hs, hp⟩ := Transition.Reachable.exists_of_run
    (Vanishing.step Push.Service.sampleLibs Lan.noScalars fun _ => 0) Keeps (cleared []) pumpGone
    init_fresh (by decide +kernel) (by decide +kernel)
  exact ⟨s, hs, hp, gone_of_reachable hs hp⟩

/-- Clearing the state of the pump removes the pump, but not its baseline. -/
theorem not_gone_of_reachable_cleared : ∃ s : Vanishing,
    Transition.Reachable (Vanishing.step Push.Service.sampleLibs Lan.noScalars fun _ => 0)
      (fun _ _ => True) Init s ∧
      s.gone .pump (.pump, "0") = true ∧
      s.push.processor.baseline (sampleKey .pump (.pump, "0")) ≠ none := by
  obtain ⟨s, hs, hp⟩ := Transition.Reachable.exists_of_run
    (Vanishing.step Push.Service.sampleLibs Lan.noScalars fun _ => 0) (fun _ _ => True)
    (cleared ["State"]) (fun s => pumpGone s &&
      (s.push.processor.baseline (sampleKey .pump (.pump, "0"))).isSome) init_fresh
    (Transition.Allowed.of_forall (fun _ _ => trivial) _) (by decide +kernel)
  obtain ⟨hgone, hbase⟩ := (Bool.and_eq_true _ _).mp hp
  exact ⟨s, hs, hgone, Option.isSome_iff_ne_none.mp hbase⟩

end Vanishing

end Dashboard
