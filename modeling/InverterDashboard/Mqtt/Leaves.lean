import InverterDashboard.Go.Text
import InverterDashboard.Go.Json

set_option relaxedAutoImplicit false
set_option autoImplicit false

/-!
# The cache of native Cerbo readings

Native readings are cached by service kind, device instance and leaf path, as they arrive on
`N/<portal>/<kind>/<instance>/<path>`. In the source the cache is a map from the kind to a map
from `<instance>/<path>`; here a key has the three parts. A null reading stays in the cache to
tell an unavailable measurement from an unknown one.

## Main definitions

* `Dashboard.Kind`, `Dashboard.Leaf`, `Dashboard.LeafMap` — the cache.
* `Dashboard.Device`, `Dashboard.devices` — the leaves of a device, and the enabled devices of a
  kind.
* `Dashboard.sortedStringKeys` — the order in which reducers visit devices.
* `Dashboard.Device.num`, `str`, `sum`, `acPower`, `dcPower`, `firstNum`, `firstLeaf` — readings.
-/

namespace Dashboard

open Go

/-- The service kinds of the native reducer (`supportedKind`). -/
inductive Kind where
  | system | grid | battery | solarcharger | pvinverter | vebus | acload | tank | pump | ev
  | evcharger | settings
  deriving DecidableEq

namespace Kind

/-- The name of a kind in topics. -/
def name : Kind → String
  | .system => "system"
  | .grid => "grid"
  | .battery => "battery"
  | .solarcharger => "solarcharger"
  | .pvinverter => "pvinverter"
  | .vebus => "vebus"
  | .acload => "acload"
  | .tank => "tank"
  | .pump => "pump"
  | .ev => "ev"
  | .evcharger => "evcharger"
  | .settings => "settings"

/-- Every supported kind. -/
def all : List Kind :=
  [.system, .grid, .battery, .solarcharger, .pvinverter, .vebus, .acload, .tank, .pump, .ev,
    .evcharger, .settings]

/-- `supportedKind`: the kind a topic level names. -/
def ofName? (s : String) : Option Kind := all.find? fun k => k.name == s

/-- A topic level names the kind it stands for. -/
theorem name_of_ofName? {kindName : String} {kind : Kind} (h : ofName? kindName = some kind) :
    kindName = kind.name := by
  have hname : kind.name = kindName := by simpa using List.find?_some h
  exact hname.symm

end Kind

/-- A key of the cache. -/
structure Leaf where
  kind : Kind
  inst : String
  path : String
  deriving DecidableEq

/-- The cached readings. -/
abbrev LeafMap : Type := AList fun _ : Leaf => Any

/-- `number`: the finite number a value is. Strings and booleans are no readings. -/
def number : Any → Option F64
  | .float64 x => if x.isFinite then some x else none
  | .int i => some (F64.ofInt i)
  | _ => none

/-- The leaves of one device by path (`leaves`). -/
abbrev Device : Type := String → Option Any

namespace Device

/-- The device without leaves: what a missing map entry reads as. -/
def missing : Device := fun _ => none

/-- The first of the paths that holds a number. -/
def num (d : Device) (paths : List String) : Option F64 :=
  paths.findSome? fun p => (d p).bind number

/-- The first of the paths that holds a text with more than white space, trimmed. -/
def str (d : Device) (paths : List String) : String :=
  (paths.findSome? fun p => ((d p).bind Any.string?).bind fun s =>
    if trimSpace s = "" then none else some (trimSpace s)).getD ""

/-- The sum of the paths that hold a number, if there is one. -/
def sum (d : Device) (paths : List String) : Option F64 :=
  paths.foldl (fun total p =>
    match d.num [p] with
    | some n => some ((total.getD 0).add n)
    | none => total) none

/-- The AC power: the total leaf, else the sum over the phases. -/
def acPower (d : Device) : Option F64 :=
  (d.num ["Ac/Power"]).orElse fun _ => d.sum ["Ac/L1/Power", "Ac/L2/Power", "Ac/L3/Power"]

/-- The DC power: its leaf, else voltage times current. -/
def dcPower (d : Device) : Option F64 :=
  (d.num ["Dc/0/Power"]).orElse fun _ => do
    let v ← d.num ["Dc/0/Voltage"]
    let i ← d.num ["Dc/0/Current"]
    return v.mul i

/-- A device is enabled unless its `Connected` leaf is there and not 1. -/
def enabled (d : Device) : Bool :=
  match d "Connected" with
  | none => true
  | some v => (number v).any fun n => n.eq 1

end Device

/-- The leaves of a device in the cache. -/
def deviceLeaves (all : LeafMap) (kind : Kind) (inst : String) : Device := fun path =>
  all.lookup ⟨kind, inst, path⟩

/-- `devices`: the enabled devices of a kind by instance; instances are decimal numbers. -/
def devices (all : LeafMap) (kind : Kind) : List (String × Device) :=
  let ids := (all.keys.filterMap fun l =>
    if l.kind = kind ∧ (atoi l.inst).isSome then some l.inst else none).dedup
  (ids.map fun id => (id, deviceLeaves all kind id)).filter fun e => e.2.enabled

/-- The comparison of `sortedStringKeys`: by value when both are numbers. -/
def keyLess (a b : String) : Bool :=
  match atoi a, atoi b with
  | some x, some y => decide (x < y)
  | _, _ => decide (a < b)

/-- `sortedStringKeys`, with the devices beside their keys. -/
def sortedStringKeys {α : Type} (ds : List (String × α)) : List (String × α) :=
  ds.insertionSort fun a b => !keyLess b.1 a.1

/-- The device of an instance; a missing one has no leaves. -/
def deviceAt (ds : List (String × Device)) (inst : String) : Device :=
  (entry ds inst).getD Device.missing

/-- The name of a device. -/
def deviceName (d : Device) (fallback : String) : String :=
  let s := d.str ["CustomName", "ProductName"]
  if s = "" then fallback else s

/-- `firstNum`: the first number in instance order. -/
def firstNum (ds : List (String × Device)) (paths : List String) : Option F64 :=
  (sortedStringKeys ds).findSome? fun e => e.2.num paths

/-- `firstLeaf`: the first device that has the leaf, with the number it holds. The outer
`none` is a leaf that no device has. -/
def firstLeaf (ds : List (String × Device)) (path : String) : Option (Option F64) :=
  (sortedStringKeys ds).findSome? fun e => (e.2 path).map number

/-- Only leaves of the same kind and instance make up a device. -/
theorem deviceAt_devices_eq (all : LeafMap) (kind : Kind) (inst path : String) :
    deviceAt (devices all kind) inst path = none ∨
      deviceAt (devices all kind) inst path = all.lookup ⟨kind, inst, path⟩ := by
  unfold deviceAt
  cases h : entry (devices all kind) inst with
  | none => exact Or.inl rfl
  | some d =>
    right
    have hmem := mem_of_entry h
    obtain ⟨id, -, hid⟩ := List.mem_map.mp (List.mem_of_mem_filter hmem)
    obtain ⟨rfl, rfl⟩ := Prod.mk.inj hid
    rfl

theorem mem_sortedStringKeys {α : Type} {ds : List (String × α)} {e : String × α} :
    e ∈ sortedStringKeys ds ↔ e ∈ ds := List.mem_insertionSort _

/-- The instances of a kind are listed once. -/
theorem nodup_devices (all : LeafMap) (kind : Kind) : ((devices all kind).map Prod.fst).Nodup := by
  unfold devices
  refine List.Nodup.sublist (List.filter_sublist.map _) ?_
  rw [List.map_map]
  exact (List.nodup_dedup _).map fun _ _ h => h

/-- The cache without readings has no devices. -/
@[simp] theorem devices_empty (kind : Kind) : devices ∅ kind = [] := rfl

end Dashboard
