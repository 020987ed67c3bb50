import InverterDashboard.Go.Json
import InverterDashboard.Lib.MapFill
import InverterDashboard.Lib.Transition

set_option relaxedAutoImplicit false
set_option autoImplicit false

/-!
# The dashboard's settings and their file

The settings are one map, seeded with the defaults of the process and overwritten by the file when
the program starts. A patch is checked against the list of the allowed keys, merged into the map,
and written to the file by way of a temporary one; memory follows only where the file was replaced.

The text of a file is its JSON syntax tree, and `none` where there is no readable JSON text. The
file is the one of `storagePath`, whose variable does not change while the program runs.

## Main definitions

* `Dashboard.Settings.allowed`, `typeOK` — the keys of the settings and their checks.
* `Dashboard.Settings.Environment`, `defaults`, `Store.init` — the start of the program.
* `Dashboard.Settings.Outcomes`, `Store.applyWithReplacer` — a patch, with the outcome of each
  operation on files.
* `Dashboard.Settings.Store.overrides`, `Store.masked` — what `main` and the browser are given.
* `Dashboard.Settings.Store.step` — restarts with any environment, and patches.

## Main results

* `Dashboard.Settings.Store.tidy_of_reachable` — every allowed key has a value, that passes the
  check of its key or is the port the environment gave.
* `Dashboard.Settings.applyWithReplacer_cases` — a patch leaves everything, or replaces memory and
  file together.
-/

namespace Dashboard.Settings

open Go

/-! ## The keys -/

/-- The types a setting may have. -/
inductive Kind where
  | string
  | bool
  | int
  deriving DecidableEq

/-- The keys a patch may name, with their types. -/
def allowed : List (String × Kind) :=
  [("camera_topic", .string),
   ("show_ev", .bool),
   ("show_washer", .bool),
   ("show_dryer", .bool),
   ("show_dishwasher", .bool),
   ("show_home_section", .bool),
   ("show_ha_covers", .bool),
   ("show_ha_media", .bool),
   ("show_ha_scenes", .bool),
   ("show_ha_weather", .bool),
   ("show_daily_stats", .bool),
   ("show_header_toggles", .bool),
   ("show_batteries", .bool),
   ("show_solar_production", .bool),
   ("show_active_loads", .bool),
   ("show_ha_sensors", .bool),
   ("show_ha_numbers", .bool),
   ("mqtt_host", .string),
   ("mqtt_port", .int),
   ("ha_url", .string),
   ("ha_token", .string)]

/-- The keys whose values are masked. -/
def secretKeys : List String := ["ha_token"]

/-- Whether a value has the type of its key; a port is also in range. -/
def typeOK (key : String) (v : Any) : Bool :=
  match entry allowed key, v with
  | some .string, .string _ => true
  | some .int, .int n => decide (1 ≤ n) && decide (n ≤ 65535)
  | some .int, .float64 x => x.isFinite && F64.eq x x.trunc && F64.le 1 x && F64.le x 65535
  | some .bool, .bool _ => true
  | _, _ => false

/-! ## The start of the program -/

/-- What the configuration of the process passes to `Init`. The port is an `int`. -/
structure Environment where
  camera : String
  host : String
  port : ℤ
  inRange : -(2 : ℤ) ^ 63 ≤ port ∧ port < (2 : ℤ) ^ 63

/-- The settings that have a default, with it. -/
def defaultEntries (e : Environment) : List (String × Any) :=
  [("camera_topic", .string e.camera),
   ("mqtt_host", .string e.host),
   ("mqtt_port", .int e.port),
   ("ha_url", .string ""),
   ("ha_token", .string ""),
   ("show_ev", .bool true),
   ("show_washer", .bool true),
   ("show_dryer", .bool true),
   ("show_dishwasher", .bool true),
   ("show_home_section", .bool true),
   ("show_ha_covers", .bool true),
   ("show_ha_media", .bool true),
   ("show_ha_scenes", .bool true),
   ("show_ha_weather", .bool true),
   ("show_daily_stats", .bool true),
   ("show_header_toggles", .bool true),
   ("show_batteries", .bool true),
   ("show_solar_production", .bool true),
   ("show_active_loads", .bool true),
   ("show_ha_sensors", .bool true),
   ("show_ha_numbers", .bool true)]

/-- The settings before the file is read. -/
def defaults (e : Environment) : StrMap Any :=
  MapFill.fill Prod.fst (fun r : String × Any => some r.2) (defaultEntries e) ∅

/-- `stored[k]` after `json.Unmarshal` of the file into a map. A text that is no object, or that
does not decode, stores nothing. -/
def stored (file : Option Json) (k : String) : Option Any :=
  match file.bind Json.toAny with
  | some (.object fields) => entry fields k
  | _ => none

/-- The settings of a program that starts on a file: the defaults, overwritten by what the file
stores under an allowed key with the right type. -/
def load (e : Environment) (file : Option Json) : StrMap Any :=
  MapFill.fill Prod.fst (fun r : String × Kind => (stored file r.1).filter (typeOK r.1)) allowed
    (defaults e)

/-- The package's variables and the file. -/
structure Store where
  env : Environment
  current : StrMap Any
  file : Option Json

/-- `Init`: the program starts on the file it finds. -/
def Store.init (e : Environment) (file : Option Json) : Store := ⟨e, load e file, file⟩

/-! ## Writing -/

/-- The literal `json.Marshal` writes for a finite `float64`: all of them are multiples of a power
of two, and have finitely many decimals. -/
def decimal (q : ℚ) : Number :=
  let digits := Nat.log2 q.den
  ⟨decide (q < 0), q.num.natAbs * 5 ^ digits, [], if digits = 0 then none else some (-digits)⟩

/-- `json.Marshal` on a value. Lists and maps are no settings: `typeOK` refuses them. -/
def marshal : Any → Option Json
  | .nil => some .null
  | .bool b => some (.bool b)
  | .float64 (.fin q) => some (.num (decimal q))
  | .int n => some (.num (Number.ofInt n))
  | .string s => some (.str s)
  | _ => none

/-- The members of the object that `json.Marshal` writes for the entries of a map. -/
def marshalFields : List (String × Any) → Option (List (String × Json))
  | [] => some []
  | (k, v) :: m => do
    let j ← marshal v
    let fields ← marshalFields m
    return (k, j) :: fields

/-- `json.MarshalIndent` of the settings, in the order of their keys. -/
def encode (m : StrMap Any) : Option Json :=
  (marshalFields (sortedEntries (m.entries.map fun e => (e.1, e.2)))).map Json.obj

/-- Why a patch was not accepted, or not written with certainty. -/
inductive ApplyError where
  | errUnknown (key : String)
  | errType (key : String)
  | encode
  | createDirectory
  | create
  | write
  | sync
  | close
  | replace
  deriving DecidableEq

/-- The text of an error, before that of the failure it wraps. -/
def ApplyError.text : ApplyError → String
  | .errUnknown key => "unknown setting: " ++ key
  | .errType key => "setting " ++ key ++ " has wrong type"
  | .encode => "encode dashboard settings: "
  | .createDirectory => "create settings directory: "
  | .create => "create dashboard settings: "
  | .write => "write dashboard settings: "
  | .sync => "sync dashboard settings: "
  | .close => "close dashboard settings: "
  | .replace => "replace dashboard settings: "

/-- `IsValidationError`. -/
def ApplyError.isValidation : ApplyError → Bool
  | .errUnknown _ => true
  | .errType _ => true
  | _ => false

/-- Which operations on files fail, and what the replacement reports: whether the file was
replaced, and whether there was an error. -/
structure Outcomes where
  mkdirAll : Bool
  createTemp : Bool
  write : Bool
  sync : Bool
  close : Bool
  replaced : Bool
  replace : Bool

/-- The check of one entry of a patch. -/
def checkEntry (e : (_ : String) × Any) : Option ApplyError :=
  if (entry allowed e.1).isNone then some (.errUnknown e.1)
  else if typeOK e.1 e.2 then none
  else some (.errType e.1)

/-- The placeholder that stands for the secret in the public settings. -/
def isMask (key : String) : Any → Bool
  | .string s => decide (key = "ha_token") && decide (s = "***")
  | _ => false

/-- The current settings overwritten by a patch. A placeholder is no replacement. -/
def merged (current patch : StrMap Any) : StrMap Any :=
  MapFill.fill Sigma.fst
    (fun e : (_ : String) × Any => if isMask e.1 e.2 then none else some e.2) patch.entries current

/-- The operations up to the replacement: the first one that fails. -/
def Outcomes.failure (explicit : Bool) (o : Outcomes) : Option ApplyError :=
  if explicit && o.mkdirAll then some .createDirectory
  else if o.createTemp then some .create
  else if o.write then some .write
  else if o.sync then some .sync
  else if o.close then some .close
  else none

/-- `applyWithReplacer`. The entries of a patch are checked in the order in which they are
visited. `explicit` tells that a variable of the environment names the file. -/
def Store.applyWithReplacer (explicit : Bool) (s : Store) (patch : StrMap Any) (o : Outcomes) :
    Store × Option ApplyError :=
  match patch.entries.findSome? checkEntry with
  | some err => (s, some err)
  | none =>
    let next := merged s.current patch
    match encode next with
    | none => (s, some .encode)
    | some data =>
      match o.failure explicit with
      | some err => (s, some err)
      | none =>
        -- memory follows the visible file, also when its durability is not confirmed
        let s' := if o.replaced then { s with current := next, file := some data } else s
        (s', if o.replace then some .replace else none)

/-! ## Reading -/

/-- `v == w` on interface values that hold scalars: the dynamic types are compared too. -/
def sameInterface : Any → Any → Bool
  | .nil, .nil => true
  | .bool a, .bool b => a == b
  | .float64 x, .float64 y => F64.eq x y
  | .int a, .int b => a == b
  | .string a, .string b => a == b
  | _, _ => false

/-- `envDefaults[defaultKey(k)]`. -/
def Environment.default? (e : Environment) (k : String) : Option Any :=
  if k = "mqtt_host" then some (.string e.host)
  else if k = "mqtt_port" then some (.int e.port)
  else none

/-- The value of a connection setting, unless it is empty or the default of the environment. -/
def Store.override (s : Store) (k : String) : Option Any :=
  (s.current.lookup k).filter fun v =>
    !sameInterface v (.string "") && !v.isNil && !(s.env.default? k).any (sameInterface v)

/-- `Overrides`. -/
def Store.overrides (s : Store) : List (String × Any) :=
  ["mqtt_host", "mqtt_port", "ha_url", "ha_token"].filterMap fun k =>
    (s.override k).map fun v => (k, v)

/-- The placeholder of a secret that is set. -/
def maskOf (v : Option Any) : Any :=
  if (v.bind Any.string?).getD "" = "" then .string "" else .string "***"

/-- `Masked`: the settings as the browser sees them. -/
def Store.masked (s : Store) : StrMap Any :=
  secretKeys.foldl (fun out k => out.insert k (maskOf (out.lookup k))) s.current

/-! ## Runs -/

/-- What happens to the settings: the program starts again, in any environment, or a patch is
applied. -/
inductive Event where
  | restart (e : Environment)
  | apply (patch : StrMap Any) (o : Outcomes)

/-- One event. -/
def Store.step (explicit : Bool) (s : Store) : Event → Option Store
  | .restart e => some (.init e s.file)
  | .apply patch o => some (s.applyWithReplacer explicit patch o).1

/-- The program started for the first time, on any file. -/
def Store.Init (s : Store) : Prop := ∃ e file, s = .init e file

/-! ## Checks -/

/-- Only the port is a number. -/
theorem eq_port_of_int {k : String} (h : entry allowed k = some .int) : k = "mqtt_port" := by
  have hall : ∀ e ∈ allowed, e.2 = .int → e.1 = "mqtt_port" := by decide
  exact hall _ (mem_of_entry h) rfl

/-- The numbers among the values. -/
def number? : Any → Option ℚ
  | .int n => some n
  | .float64 (.fin q) => some q
  | _ => none

/-- The check of a finite `float64` port. -/
theorem portOK_fin (q : ℚ) : typeOK "mqtt_port" (.float64 (.fin q)) = true ↔
    ∃ n : ℤ, 1 ≤ n ∧ n ≤ 65535 ∧ q = n := by
  have hone : (1 : F64) = .fin 1 := by simp [OfNat.ofNat]
  have htop : (65535 : F64) = .fin 65535 := by simp [OfNat.ofNat]
  have hport : entry allowed "mqtt_port" = some .int := by decide
  simp only [typeOK, hport, hone, htop, Bool.and_eq_true, F64.fin_le_fin, F64.isFinite, F64.trunc,
    F64.eq, decide_eq_true_eq, true_and]
  constructor
  · rintro ⟨⟨hint, hlow⟩, hhigh⟩
    rw [hint] at hlow hhigh
    exact ⟨F64.truncRat q, by exact_mod_cast hlow, by exact_mod_cast hhigh, hint⟩
  · rintro ⟨n, hlow, hhigh, rfl⟩
    have hpos : ¬ (n : ℚ) < 0 := by
      rw [not_lt]
      exact_mod_cast (by omega : (0 : ℤ) ≤ n)
    have htrunc : F64.truncRat (n : ℚ) = n := by
      simp only [F64.truncRat, if_neg hpos, Int.floor_intCast]
    rw [htrunc]
    exact ⟨⟨rfl, by exact_mod_cast hlow⟩, by exact_mod_cast hhigh⟩

/-- A number passes as a port in range, whatever its type. -/
theorem typeOK_number {k : String} {v : Any} {q : ℚ} (hv : number? v = some q) :
    typeOK k v = true ↔ k = "mqtt_port" ∧ ∃ n : ℤ, 1 ≤ n ∧ n ≤ 65535 ∧ q = n := by
  have hport : entry allowed "mqtt_port" = some .int := by decide
  by_cases hk : k = "mqtt_port"
  · subst hk
    cases v with
    | int m =>
      obtain rfl : (m : ℚ) = q := Option.some.inj hv
      simp only [typeOK, hport, Bool.and_eq_true, decide_eq_true_eq, true_and, Int.cast_inj]
      exact ⟨fun h => ⟨m, h.1, h.2, rfl⟩, fun ⟨n, h₁, h₂, h₃⟩ => h₃ ▸ ⟨h₁, h₂⟩⟩
    | float64 x =>
      cases x with
      | fin r =>
        obtain rfl : r = q := Option.some.inj hv
        simp [portOK_fin]
      | inf s => cases hv
      | nan => cases hv
    | _ => cases hv
  · -- another key does not want a number
    have hne : entry allowed k ≠ some .int := fun h => hk (eq_port_of_int h)
    have hfalse : typeOK k v = false := by
      unfold typeOK
      split
      · cases hv
      · next h => exact absurd h hne
      · next h => exact absurd h hne
      · cases hv
      · rfl
    simp [hfalse, hk]

/-- A value that passes is a string, a Boolean, or a number. -/
theorem typeOK_cases {k : String} {v : Any} (h : typeOK k v = true) :
    (∃ s, v = .string s) ∨ (∃ b, v = .bool b) ∨ ∃ q, number? v = some q := by
  unfold typeOK at h
  split at h
  · exact Or.inl ⟨_, rfl⟩
  · exact Or.inr (Or.inr ⟨_, rfl⟩)
  · next x _ =>
    cases x with
    | fin q => exact Or.inr (Or.inr ⟨q, rfl⟩)
    | inf s => simp [F64.isFinite] at h
    | nan => simp [F64.isFinite] at h
  · exact Or.inr (Or.inl ⟨_, rfl⟩)
  · cases h

/-- A value passes only under an allowed key. -/
theorem allowed_of_typeOK {k : String} {v : Any} (h : typeOK k v = true) :
    k ∈ allowed.map Prod.fst := by
  cases hk : entry allowed k with
  | none => simp [typeOK, hk] at h
  | some kind => exact List.mem_map.mpr ⟨_, mem_of_entry hk, rfl⟩

/-! ## Values that are the same -/

/-- The same value, where numbers are compared by what they are and not by their type. -/
def SameValue (v w : Any) : Prop := v = w ∨ ∃ q, number? v = some q ∧ number? w = some q

theorem SameValue.refl (v : Any) : SameValue v v := Or.inl rfl

theorem SameValue.symm {v w : Any} (h : SameValue v w) : SameValue w v := by
  rcases h with rfl | ⟨q, hv, hw⟩
  · exact .refl _
  · exact Or.inr ⟨q, hw, hv⟩

theorem SameValue.trans {u v w : Any} (h : SameValue u v) (h' : SameValue v w) :
    SameValue u w := by
  rcases h with rfl | ⟨q, hu, hv⟩
  · exact h'
  · rcases h' with rfl | ⟨r, hv', hw⟩
    · exact Or.inr ⟨q, hu, hv⟩
    · exact Or.inr ⟨q, hu, Option.some.inj (hv.symm.trans hv') ▸ hw⟩

/-- The check does not tell an `int` from a `float64`. -/
theorem SameValue.typeOK {v w : Any} (h : SameValue v w) (k : String) :
    Settings.typeOK k v = Settings.typeOK k w := by
  rcases h with rfl | ⟨q, hv, hw⟩
  · rfl
  · rw [Bool.eq_iff_iff, typeOK_number hv, typeOK_number hw]

/-- The same string is the same value. -/
theorem SameValue.eq_string {v : Any} {s : String} (h : SameValue v (.string s)) :
    v = .string s := by
  rcases h with rfl | ⟨q, -, hw⟩
  · rfl
  · cases hw

/-! ## What the maps hold -/

theorem nodup_allowed : (allowed.map Prod.fst).Nodup := by decide

/-- Every allowed key has a default, and nothing else has. -/
theorem defaultEntries_perm (e : Environment) :
    ((defaultEntries e).map Prod.fst).Perm (allowed.map Prod.fst) := by
  have h : ((defaultEntries ⟨"", "", 0, by norm_num⟩).map Prod.fst).Perm
      (allowed.map Prod.fst) := by decide
  exact h

/-- Every default passes the check of its key, but the port the environment gives. -/
theorem defaultEntries_ok (e : Environment) : ∀ r ∈ defaultEntries e,
    typeOK r.1 r.2 = true ∨ r.1 = "mqtt_port" ∧ r.2 = .int e.port := by
  simp only [defaultEntries, List.forall_mem_cons]
  exact ⟨.inl rfl, .inl rfl, .inr ⟨trivial, trivial⟩, .inl rfl, .inl rfl, .inl rfl, .inl rfl,
    .inl rfl,
    .inl rfl, .inl rfl, .inl rfl, .inl rfl, .inl rfl, .inl rfl, .inl rfl, .inl rfl, .inl rfl,
    .inl rfl, .inl rfl, .inl rfl, .inl rfl, by simp⟩

theorem lookup_defaults (e : Environment) (k : String) :
    (defaults e).lookup k = entry (defaultEntries e) k := by
  have hn : ((defaultEntries e).map Prod.fst).Nodup :=
    (defaultEntries_perm e).nodup_iff.mpr nodup_allowed
  by_cases hk : k ∈ (defaultEntries e).map Prod.fst
  · obtain ⟨r, hr, rfl⟩ := List.mem_map.mp hk
    rw [defaults, MapFill.lookup_fill_of_mem hn hr, entry_of_mem hn hr]
    rfl
  · rw [defaults, MapFill.lookup_fill_of_notMem hk, AList.lookup_empty, eq_comm,
      entry_eq_none_iff]
    exact fun v hv => hk (List.mem_map.mpr ⟨_, hv, rfl⟩)

/-- After a start: what the file stores with the right type, and the default elsewhere. -/
theorem lookup_load (e : Environment) (file : Option Json) (k : String) :
    (load e file).lookup k =
      ((stored file k).filter (typeOK k)).or ((defaults e).lookup k) := by
  by_cases hk : k ∈ allowed.map Prod.fst
  · obtain ⟨r, hr, rfl⟩ := List.mem_map.mp hk
    rw [load, MapFill.lookup_fill_of_mem nodup_allowed hr]
  · have hnone : (stored file k).filter (typeOK k) = none := by
      rw [Option.filter_eq_none_iff]
      exact fun v _ hv => hk (allowed_of_typeOK hv)
    rw [load, MapFill.lookup_fill_of_notMem hk, hnone, Option.none_or]

/-- After a patch: what it gives, unless that is the placeholder, and the old value elsewhere. -/
theorem lookup_merged (current patch : StrMap Any) (k : String) :
    (merged current patch).lookup k =
      ((patch.lookup k).filter fun v => !isMask k v).or (current.lookup k) := by
  have hn : (patch.entries.map Sigma.fst).Nodup := patch.nodupKeys
  by_cases hk : k ∈ patch.entries.map Sigma.fst
  · obtain ⟨⟨k, v⟩, hr, rfl⟩ := List.mem_map.mp hk
    have hv : patch.lookup k = some v := AList.mem_lookup_iff.mpr hr
    rw [merged, MapFill.lookup_fill_of_mem hn hr]
    dsimp only
    rw [hv]
    cases hm : isMask k v <;> simp [Option.filter, hm]
  · have hv : patch.lookup k = none := List.dlookup_eq_none.mpr hk
    rw [merged, MapFill.lookup_fill_of_notMem hk, hv]
    rfl

/-- The settings are complete, and each has a value of its type. -/
structure Tidy (e : Environment) (m : StrMap Any) : Prop where
  keys : ∀ k, k ∈ m ↔ k ∈ allowed.map Prod.fst
  values : ∀ k v, m.lookup k = some v →
    typeOK k v = true ∨ k = "mqtt_port" ∧ v = .int e.port

theorem tidy_defaults (e : Environment) : Tidy e (defaults e) where
  keys k := by
    rw [← AList.lookup_isSome, lookup_defaults, ← (defaultEntries_perm e).mem_iff]
    constructor
    · intro h
      obtain ⟨v, hv⟩ := Option.isSome_iff_exists.mp h
      exact List.mem_map.mpr ⟨_, mem_of_entry hv, rfl⟩
    · intro h
      obtain ⟨r, hr, rfl⟩ := List.mem_map.mp h
      rw [entry_of_mem ((defaultEntries_perm e).nodup_iff.mpr nodup_allowed) hr]
      rfl
  values k v h := by
    rw [lookup_defaults] at h
    exact defaultEntries_ok e _ (mem_of_entry h)

/-- Values that pass the checks may be written over tidy settings. -/
theorem Tidy.fill {e : Environment} {m m' : StrMap Any} {f : String → Option Any}
    (h : Tidy e m) (hf : ∀ k v, f k = some v → typeOK k v = true)
    (hm : ∀ k, m'.lookup k = (f k).or (m.lookup k)) : Tidy e m' where
  keys k := by
    rw [← AList.lookup_isSome, hm, Option.isSome_or, Bool.or_eq_true, AList.lookup_isSome, h.keys]
    refine ⟨fun hk => hk.elim (fun hk => ?_) id, Or.inr⟩
    obtain ⟨v, hv⟩ := Option.isSome_iff_exists.mp hk
    exact allowed_of_typeOK (hf k v hv)
  values k v hv := by
    rw [hm] at hv
    rcases Option.or_eq_some_iff.mp hv with hv | ⟨-, hv⟩
    · exact Or.inl (hf k v hv)
    · exact h.values k v hv

theorem tidy_load (e : Environment) (file : Option Json) : Tidy e (load e file) :=
  (tidy_defaults e).fill (fun _ _ h => (Option.filter_eq_some_iff.mp h).2) (lookup_load e file)

/-! ## Patches -/

/-- The check of an entry is that of its type. -/
theorem checkEntry_eq_none {e : (_ : String) × Any} :
    checkEntry e = none ↔ typeOK e.1 e.2 = true := by
  unfold checkEntry
  cases hk : entry allowed e.1 with
  | none => simp [typeOK, hk]
  | some kind => cases h : typeOK e.1 e.2 <;> simp

/-- A patch is accepted when all its values pass. -/
theorem accepted_iff {patch : StrMap Any} : patch.entries.findSome? checkEntry = none ↔
    ∀ k v, patch.lookup k = some v → typeOK k v = true := by
  rw [List.findSome?_eq_none_iff]
  constructor
  · intro h k v hv
    exact checkEntry_eq_none.mp (h ⟨k, v⟩ (AList.mem_lookup_iff.mp hv))
  · rintro h ⟨k, v⟩ hv
    exact checkEntry_eq_none.mpr (h k v (AList.mem_lookup_iff.mpr hv))

theorem Tidy.merged {e : Environment} {m patch : StrMap Any} (h : Tidy e m)
    (hpatch : ∀ k v, patch.lookup k = some v → typeOK k v = true) :
    Tidy e (Settings.merged m patch) :=
  h.fill (fun k v hv => hpatch k v (Option.filter_eq_some_iff.mp hv).1) (lookup_merged m patch)

/-! ## The text of the settings -/

/-- The literal of an integer denotes it. -/
theorem value_ofInt (n : ℤ) : (Number.ofInt n).value = n := by
  have habs : (n.natAbs : ℚ) = |(n : ℚ)| := by rw [Nat.cast_natAbs, Int.cast_abs]
  simp only [Number.value, Number.ofInt, Number.fracValue, Option.getD_none, zpow_zero, add_zero,
    mul_one, habs, decide_eq_true_eq]
  split_ifs with h
  · rw [abs_of_neg (by exact_mod_cast h)]
    ring
  · rw [abs_of_nonneg (by exact_mod_cast not_lt.mp h)]
    ring

/-- An integer is written without a point, also when it is a `float64`. -/
theorem decimal_intCast (n : ℤ) : decimal n = Number.ofInt n := by
  have hlog : Nat.log2 1 = 0 := by decide
  simp [decimal, Number.ofInt, hlog]

/-- An `int` is read back as the `float64` of the same value. -/
theorem toAny_ofInt {n : ℤ} (h : -(2 : ℤ) ^ 63 ≤ n ∧ n < (2 : ℤ) ^ 63) :
    (Json.num (Number.ofInt n)).toAny = some (.float64 (.fin n)) := by
  have hB : (2 ^ 63 : ℚ) < F64.overflowBound := by decide +kernel
  have hlow : -(2 ^ 63 : ℚ) ≤ n := by exact_mod_cast h.1
  have hhigh : (n : ℚ) < 2 ^ 63 := by exact_mod_cast h.2
  have hfin : F64.ofRat n = .fin n := by
    rw [F64.ofRat, if_neg (by linarith), if_neg (by linarith)]
  simp only [Json.toAny, value_ofInt, hfin]

/-- Tidy values are written, and the text is read back as the same value. -/
theorem Tidy.marshal {e : Environment} {m : StrMap Any} (h : Tidy e m) {k : String} {v : Any}
    (hv : m.lookup k = some v) :
    ∃ j w, Settings.marshal v = some j ∧ j.toAny = some w ∧ SameValue v w := by
  have hport : ∀ n : ℤ, number? v = some (n : ℚ) → -(2 : ℤ) ^ 63 ≤ n ∧ n < (2 : ℤ) ^ 63 →
      ∃ j w, Settings.marshal v = some j ∧ j.toAny = some w ∧ SameValue v w := by
    intro n hn hrange
    refine ⟨_, _, ?_, toAny_ofInt hrange, Or.inr ⟨n, hn, rfl⟩⟩
    cases v with
    | int m => rw [Settings.marshal, Int.cast_inj.mp (Option.some.inj hn)]
    | float64 x =>
      cases x with
      | fin q => rw [Settings.marshal, Option.some.inj hn, decimal_intCast]
      | inf s => cases hn
      | nan => cases hn
    | _ => cases hn
  rcases h.values k v hv with hok | ⟨-, rfl⟩
  · rcases typeOK_cases hok with ⟨s, rfl⟩ | ⟨b, rfl⟩ | ⟨q, hq⟩
    · exact ⟨_, _, rfl, rfl, .refl _⟩
    · exact ⟨_, _, rfl, rfl, .refl _⟩
    · obtain ⟨-, n, hlow, hhigh, rfl⟩ := (typeOK_number hq).mp hok
      exact hport n hq (by omega)
  · exact hport e.port rfl e.inRange

/-- What is found among the members that are written, when every value can be. -/
theorem marshalFields_spec {l : List (String × Any)}
    (h : ∀ e ∈ l, (Settings.marshal e.2).isSome = true) :
    ∃ fields, marshalFields l = some fields ∧ fields.map Prod.fst = l.map Prod.fst ∧
      ∀ k, entry fields k = (entry l k).bind Settings.marshal := by
  induction l with
  | nil => exact ⟨[], rfl, rfl, fun _ => rfl⟩
  | cons e l ih =>
    obtain ⟨k, v⟩ := e
    obtain ⟨fields, hf, hkeys, hentry⟩ := ih fun e he => h e (List.mem_cons_of_mem _ he)
    obtain ⟨j, hj⟩ := Option.isSome_iff_exists.mp (h _ List.mem_cons_self)
    dsimp only at hj
    refine ⟨(k, j) :: fields, by simp [marshalFields, hf, hj], by simp [hkeys], fun k' => ?_⟩
    simp only [entry, List.lookup_cons] at hentry ⊢
    cases hk : k' == k with
    | true => simp [hj]
    | false => exact hentry k'

/-- What is found after reading members back. -/
theorem toAnyFields_spec {fields : List (String × Json)}
    (h : ∀ e ∈ fields, e.2.toAny.isSome = true) :
    ∃ es, Json.toAnyFields fields = some es ∧ es.map Prod.fst = fields.map Prod.fst ∧
      ∀ k, entry es k = (entry fields k).bind Json.toAny := by
  induction fields with
  | nil => exact ⟨[], rfl, rfl, fun _ => rfl⟩
  | cons e fields ih =>
    obtain ⟨k, j⟩ := e
    obtain ⟨es, hes, hkeys, hentry⟩ := ih fun e he => h e (List.mem_cons_of_mem _ he)
    obtain ⟨v, hv⟩ := Option.isSome_iff_exists.mp (h _ List.mem_cons_self)
    dsimp only at hv
    refine ⟨(k, v) :: es, by simp [Json.toAnyFields, hes, hv], by simp [hkeys], fun k' => ?_⟩
    simp only [entry, List.lookup_cons] at hentry ⊢
    cases hk : k' == k with
    | true => simp [hv]
    | false => exact hentry k'

/-- The keys of a map are different. -/
theorem nodup_entries (m : StrMap Any) :
    ((m.entries.map fun e => (e.1, e.2)).map Prod.fst).Nodup := by
  rw [List.map_map]
  exact m.nodupKeys

/-- The entries of a map are found as in the map. -/
theorem entry_entries (m : StrMap Any) (k : String) :
    entry (m.entries.map fun e => (e.1, e.2)) k = m.lookup k := by
  have hn := nodup_entries m
  cases h : m.lookup k with
  | some v => exact entry_of_mem hn (List.mem_map.mpr ⟨⟨k, v⟩, AList.mem_lookup_iff.mp h, rfl⟩)
  | none =>
    rw [entry_eq_none_iff]
    intro v hv
    obtain ⟨e, he, heq⟩ := List.mem_map.mp hv
    cases heq
    have hsome : m.lookup e.1 = some e.2 := AList.mem_lookup_iff.mpr he
    rw [hsome] at h
    cases h

/-- **The text of tidy settings** has the text of each value under its key, and is read back as
the same values.

**Proof sketch.** The entries are written in another order, which finding does not see. Keys are
written once, so that reading keeps them all. -/
theorem Tidy.encode {e : Environment} {m : StrMap Any} (h : Tidy e m) :
    ∃ fields, Settings.encode m = some (.obj fields) ∧
      (∀ k, entry fields k = (m.lookup k).bind Settings.marshal) ∧
      ∀ k, stored (some (.obj fields)) k = (entry fields k).bind Json.toAny := by
  have hperm : (sortedEntries (m.entries.map fun e => (e.1, e.2))).Perm
      (m.entries.map fun e => (e.1, e.2)) := List.perm_insertionSort _ _
  have hn := nodup_entries m
  have hn' := (hperm.map Prod.fst).nodup_iff.mpr hn
  have hfind : ∀ k, entry (sortedEntries (m.entries.map fun e => (e.1, e.2))) k = m.lookup k :=
    fun k => (entry_eq_of_perm hperm hn k).trans (entry_entries m k)
  have hvalues : ∀ r ∈ sortedEntries (m.entries.map fun e => (e.1, e.2)),
      m.lookup r.1 = some r.2 := fun r hr => hfind r.1 ▸ entry_of_mem hn' hr
  have hwrites : ∀ r ∈ sortedEntries (m.entries.map fun e => (e.1, e.2)),
      (Settings.marshal r.2).isSome = true := by
    intro r hr
    obtain ⟨j, w, hj, -⟩ := h.marshal (hvalues r hr)
    simp [hj]
  obtain ⟨fields, hf, hkeys, hentry⟩ := marshalFields_spec hwrites
  have hnf : (fields.map Prod.fst).Nodup := hkeys ▸ hn'
  refine ⟨fields, by rw [Settings.encode, hf]; rfl, fun k => by rw [hentry, hfind], fun k => ?_⟩
  have hdecodes : ∀ r ∈ fields, r.2.toAny.isSome = true := by
    intro r hr
    have hr' := entry_of_mem hnf hr
    rw [hentry, hfind] at hr'
    obtain ⟨v, hv, hj⟩ := Option.bind_eq_some_iff.mp hr'
    obtain ⟨j, w, hj', hw, -⟩ := h.marshal hv
    obtain rfl : j = r.2 := Option.some.inj (hj'.symm.trans hj)
    simp [hw]
  obtain ⟨es, hes, hkeys', hentry'⟩ := toAnyFields_spec hdecodes
  simp only [stored, Option.bind_some, Json.toAny, hes, Option.map_some,
    lastWins_of_nodup (hkeys'.symm ▸ hnf), hentry']

/-- Tidy settings are read back by value. -/
theorem Tidy.stored_encode {e : Environment} {m : StrMap Any} (h : Tidy e m) {file : Json}
    (hfile : Settings.encode m = some file) {k : String} {v : Any} (hv : m.lookup k = some v) :
    ∃ w, stored (some file) k = some w ∧ SameValue v w := by
  obtain ⟨fields, hf, hentry, hstored⟩ := h.encode
  obtain rfl : file = .obj fields := Option.some.inj (hfile.symm.trans hf)
  obtain ⟨j, w, hj, hw, hsame⟩ := h.marshal hv
  exact ⟨w, by rw [hstored, hentry, hv, Option.bind_some, hj, Option.bind_some, hw], hsame⟩

/-! ## What a patch does -/

/-- Every operation up to the replacement succeeds, and the file is replaced. -/
def Outcomes.done (explicit : Bool) (o : Outcomes) : Bool :=
  (o.failure explicit).isNone && o.replaced

/-- A patch that is refused, or whose replacement is not done, leaves everything. -/
theorem applyWithReplacer_of_not_done {explicit : Bool} {s : Store} {patch : StrMap Any}
    {o : Outcomes} (h : ¬ (patch.entries.findSome? checkEntry = none ∧ o.done explicit = true)) :
    (s.applyWithReplacer explicit patch o).1 = s := by
  unfold Store.applyWithReplacer
  cases hcheck : patch.entries.findSome? checkEntry with
  | some err => rfl
  | none =>
    dsimp only
    cases encode (merged s.current patch) with
    | none => rfl
    | some data =>
      dsimp only
      cases hfail : o.failure explicit with
      | some err => rfl
      | none =>
        have hrep : o.replaced = false := by simpa [hcheck, hfail, Outcomes.done] using h
        rw [hrep]
        rfl

/-- A patch that is accepted and whose replacement is done moves memory and file together. -/
theorem applyWithReplacer_of_done {explicit : Bool} {s : Store} {patch : StrMap Any}
    {o : Outcomes} (hs : Tidy s.env s.current)
    (hcheck : patch.entries.findSome? checkEntry = none) (hdone : o.done explicit = true) :
    s.applyWithReplacer explicit patch o =
      (⟨s.env, merged s.current patch, encode (merged s.current patch)⟩,
        if o.replace then some .replace else none) := by
  obtain ⟨fields, hf, -⟩ := (hs.merged (accepted_iff.mp hcheck)).encode
  simp only [Outcomes.done, Bool.and_eq_true, Option.isNone_iff_eq_none] at hdone
  simp only [Store.applyWithReplacer, hcheck, hf, hdone.1, hdone.2, if_true]

/-- A patch leaves the environment. -/
theorem env_apply {explicit : Bool} {s : Store} (hs : Tidy s.env s.current) (patch : StrMap Any)
    (o : Outcomes) : (s.applyWithReplacer explicit patch o).1.env = s.env := by
  by_cases hc : patch.entries.findSome? checkEntry = none ∧ o.done explicit = true
  · rw [applyWithReplacer_of_done hs hc.1 hc.2]
  · rw [applyWithReplacer_of_not_done hc]

/-- A patch keeps settings tidy. -/
theorem tidy_apply {explicit : Bool} {s : Store} (hs : Tidy s.env s.current) (patch : StrMap Any)
    (o : Outcomes) : Tidy (s.applyWithReplacer explicit patch o).1.env
      (s.applyWithReplacer explicit patch o).1.current := by
  by_cases hc : patch.entries.findSome? checkEntry = none ∧ o.done explicit = true
  · rw [applyWithReplacer_of_done hs hc.1 hc.2]
    exact hs.merged (accepted_iff.mp hc.1)
  · rw [applyWithReplacer_of_not_done hc]
    exact hs

/-! ## Reachable settings -/

/-- **Run.** The settings stay complete and well-typed, but for the port of the environment. -/
theorem Store.tidy_of_reachable {explicit : Bool} {s : Store}
    (h : Transition.Reachable (Store.step explicit) (fun _ _ => True) Store.Init s) :
    Tidy s.env s.current := by
  refine h.invariant (I := fun s => Tidy s.env s.current) ?_ ?_
  · rintro _ ⟨e, file, rfl⟩
    exact tidy_load e file
  · intro s e s' hs _ hstep
    cases e with
    | restart e =>
      obtain rfl := Option.some.inj hstep
      exact tidy_load e s.file
    | apply patch o =>
      obtain rfl := Option.some.inj hstep
      exact tidy_apply hs patch o

end Dashboard.Settings
