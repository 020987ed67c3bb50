import InverterDashboard.Settings.Store

set_option relaxedAutoImplicit false
set_option autoImplicit false

/-!
# Patches that are all or nothing, and the way back from the browser

A patch either leaves memory and file as they are, or replaces both by the same settings; a program
that starts on the file in the same environment has the settings that are in memory. The browser
gets the settings with the secret masked. Sending them back changes nothing, as long as the port
passes its own check: the port of the environment is exported without having passed it.

## Main definitions

* `Dashboard.Settings.Mirrors` — a file holds the text of every setting, and nothing else.
* `Dashboard.Settings.Store.InSync` — a start on the file gives what is in memory.
* `Dashboard.Settings.Store.RoundTrips` — a patch is accepted and changes no value.

## Main results

* `Dashboard.Settings.allOrNothing_of_reachable` — patches, for every outcome of the operations on
  files.
* `Dashboard.Settings.roundTrips_iff_of_reachable` — when the masked settings can be sent back.
-/

namespace Dashboard.Settings

open Go

/-! ## Errors -/

/-- A refused patch names a key of it that is unknown, or whose value has the wrong type. -/
theorem refused_of_isValidation {explicit : Bool} {s : Store} {patch : StrMap Any} {o : Outcomes}
    {err : ApplyError} (herr : (s.applyWithReplacer explicit patch o).2 = some err)
    (hvalid : err.isValidation = true) :
    ∃ k v, patch.lookup k = some v ∧
      (err = .errUnknown k ∧ k ∉ allowed.map Prod.fst ∨
        err = .errType k ∧ k ∈ allowed.map Prod.fst ∧ typeOK k v = false) := by
  unfold Store.applyWithReplacer at herr
  cases hcheck : patch.entries.findSome? checkEntry with
  | some err' =>
    simp only [hcheck, Option.some.injEq] at herr
    obtain ⟨⟨k, v⟩, hmem, he⟩ := List.exists_of_findSome?_eq_some hcheck
    refine ⟨k, v, AList.mem_lookup_iff.mpr hmem, ?_⟩
    rw [herr] at he
    unfold checkEntry at he
    split_ifs at he with hk hok
    · refine Or.inl ⟨(Option.some.inj he).symm, fun hmem => ?_⟩
      obtain ⟨r, hr, rfl⟩ := List.mem_map.mp hmem
      simp [entry_of_mem nodup_allowed hr] at hk
    · obtain ⟨kind, hkind⟩ := Option.ne_none_iff_exists'.mp (by simpa using hk)
      exact Or.inr ⟨(Option.some.inj he).symm, List.mem_map.mpr ⟨_, mem_of_entry hkind, rfl⟩,
        by simpa using hok⟩
  | none =>
    -- the other errors come from the operations on files
    simp only [hcheck] at herr
    cases henc : encode (merged s.current patch) with
    | none =>
      simp only [henc, Option.some.injEq] at herr
      exact absurd hvalid (by simp [← herr, ApplyError.isValidation])
    | some data =>
      simp only [henc] at herr
      cases hfail : o.failure explicit with
      | some err' =>
        simp only [hfail, Option.some.injEq] at herr
        unfold Outcomes.failure at hfail
        split_ifs at hfail <;>
          exact absurd hvalid (by simp [← herr, ← Option.some.inj hfail, ApplyError.isValidation])
      | none =>
        simp only [hfail] at herr
        split_ifs at herr
        exact absurd hvalid (by simp [← Option.some.inj herr, ApplyError.isValidation])

/-! ## All or nothing -/

/-- An environment with a broker. -/
def brokerEnvironment : Environment := ⟨"frigate/+/events", "Cerbo", 1883, by norm_num⟩

/-- A patch of one setting. -/
def hidesVehicle : StrMap Any := AList.singleton "show_ev" (.bool false)

/-- The file is replaced, but its directory could not be flushed. -/
def unflushed : Outcomes := ⟨false, false, false, false, false, true, true⟩

/-- The file holds the text of every setting under its key, and nothing else. -/
def Mirrors (file : Option Json) (m : StrMap Any) : Prop :=
  ∃ fields, file = some (.obj fields) ∧
    ∀ k, Option.Rel (fun v j => marshal v = some j) (m.lookup k) (entry fields k)

/-- Tidy settings are mirrored by their text. -/
theorem Tidy.mirrors {e : Environment} {m : StrMap Any} (h : Tidy e m) :
    Mirrors (Settings.encode m) m := by
  obtain ⟨fields, hf, hentry, -⟩ := h.encode
  refine ⟨fields, hf, fun k => ?_⟩
  rw [hentry]
  cases hv : m.lookup k with
  | none => exact .none
  | some v =>
    obtain ⟨j, w, hj, -⟩ := h.marshal hv
    rw [Option.bind_some, hj]
    exact .some hj

/-- A start on the file, in the environment of the running program, gives the settings in memory:
the same values, where the value in memory passes the check of its key. -/
def Store.InSync (s : Store) : Prop :=
  ∀ k v, s.current.lookup k = some v → typeOK k v = true →
    ∃ w, (load s.env s.file).lookup k = some w ∧ SameValue v w

theorem inSync_init (e : Environment) (file : Option Json) : (Store.init e file).InSync :=
  fun _ v hv _ => ⟨v, hv, .refl v⟩

/-- Settings are loaded as they were written. -/
theorem Tidy.inSync {e : Environment} {m : StrMap Any} (h : Tidy e m) :
    (Store.mk e m (Settings.encode m)).InSync := by
  intro k v hv hok
  obtain ⟨fields, hf, -⟩ := h.encode
  obtain ⟨w, hw, hsame⟩ := h.stored_encode hf hv
  refine ⟨w, ?_, hsame⟩
  dsimp only
  rw [lookup_load, hf, hw, Option.filter_some, if_pos (hsame.typeOK k ▸ hok), Option.some_or]

theorem inSync_apply {explicit : Bool} {s : Store} (hs : Tidy s.env s.current) (h : s.InSync)
    (patch : StrMap Any) (o : Outcomes) : (s.applyWithReplacer explicit patch o).1.InSync := by
  by_cases hc : patch.entries.findSome? checkEntry = none ∧ o.done explicit = true
  · rw [applyWithReplacer_of_done hs hc.1 hc.2]
    exact (hs.merged (accepted_iff.mp hc.1)).inSync
  · rw [applyWithReplacer_of_not_done hc]
    exact h

/-- **Run.** Memory and file agree in every reachable state. -/
theorem inSync_of_reachable {explicit : Bool} {s : Store}
    (h : Transition.Reachable (Store.step explicit) (fun _ _ => True) Store.Init s) :
    Tidy s.env s.current ∧ s.InSync := by
  refine h.invariant (I := fun s => Tidy s.env s.current ∧ s.InSync) ?_ ?_
  · rintro _ ⟨e, file, rfl⟩
    exact ⟨tidy_load e file, inSync_init e file⟩
  · intro s e s' hs _ hstep
    cases e with
    | restart e =>
      obtain rfl := Option.some.inj hstep
      exact ⟨tidy_load e s.file, inSync_init e s.file⟩
    | apply patch o =>
      obtain rfl := Option.some.inj hstep
      exact ⟨tidy_apply hs.1 patch o, inSync_apply hs.1 hs.2 patch o⟩

/-- **Settings writes are all or nothing.** A patch with an unknown key or a value of the wrong
type, or whose replacement is not done, leaves memory and file. One that is replaced, with or
without an error, gives memory the patched settings and the file their text. In both cases a start
on the file in the same environment gives the settings in memory, under every key whose value
passes.

**Proof sketch.** Tidy settings can all be written, and their text is read back by value. A value
that passes does so after reading back too, so the start takes it over the default. -/
theorem allOrNothing_of_reachable {explicit : Bool} {s : Store}
    (h : Transition.Reachable (Store.step explicit) (fun _ _ => True) Store.Init s)
    (patch : StrMap Any) (o : Outcomes) :
    ((∃ k v, patch.lookup k = some v ∧ (k ∉ allowed.map Prod.fst ∨ typeOK k v = false)) ∨
        o.done explicit = false → (s.applyWithReplacer explicit patch o).1 = s) ∧
      ((∀ k v, patch.lookup k = some v → k ∈ allowed.map Prod.fst ∧ typeOK k v = true) →
        o.done explicit = true →
        (∀ k, (s.applyWithReplacer explicit patch o).1.current.lookup k =
          ((patch.lookup k).filter fun v => !isMask k v).or (s.current.lookup k)) ∧
        Mirrors (s.applyWithReplacer explicit patch o).1.file
          (s.applyWithReplacer explicit patch o).1.current) ∧
      ∀ k v, (s.applyWithReplacer explicit patch o).1.current.lookup k = some v →
        typeOK k v = true →
        ∃ w, (load s.env (s.applyWithReplacer explicit patch o).1.file).lookup k = some w ∧
          SameValue v w := by
  obtain ⟨htidy, hsync⟩ := inSync_of_reachable h
  refine ⟨fun hbad => applyWithReplacer_of_not_done ?_, fun hgood hdone => ?_, ?_⟩
  · rintro ⟨hcheck, hdone⟩
    rcases hbad with ⟨k, v, hv, hk | hk⟩ | hnot
    · exact hk (allowed_of_typeOK (accepted_iff.mp hcheck k v hv))
    · rw [accepted_iff.mp hcheck k v hv] at hk
      cases hk
    · rw [hdone] at hnot
      cases hnot
  · have hok : ∀ k v, patch.lookup k = some v → typeOK k v = true :=
      fun k v hv => (hgood k v hv).2
    rw [applyWithReplacer_of_done htidy (accepted_iff.mpr hok) hdone]
    exact ⟨lookup_merged s.current patch, (htidy.merged hok).mirrors⟩
  · have henv : (s.applyWithReplacer explicit patch o).1.env = s.env := env_apply htidy patch o
    rw [← henv]
    exact inSync_apply htidy hsync patch o

/-- A patch whose replacement is done, although the directory is not flushed, and then one that
names an unknown key. -/
theorem allOrNothing_of_reachable_unflushed :
    ((∃ k v, hidesVehicle.lookup k = some v ∧ (k ∉ allowed.map Prod.fst ∨ typeOK k v = false)) ∨
        unflushed.done false = false →
        ((Store.init brokerEnvironment none).applyWithReplacer false hidesVehicle unflushed).1 =
          Store.init brokerEnvironment none) ∧
      ((Store.init brokerEnvironment none).applyWithReplacer false hidesVehicle unflushed).2 =
        some .replace ∧
      ∃ w, (load brokerEnvironment ((Store.init brokerEnvironment none).applyWithReplacer false
        hidesVehicle unflushed).1.file).lookup "show_ev" = some w ∧ SameValue (.bool false) w := by
  have hreach : Transition.Reachable (Store.step false) (fun _ _ => True) Store.Init
      (Store.init brokerEnvironment none) := .start ⟨brokerEnvironment, none, rfl⟩
  obtain ⟨hleft, -, hload⟩ := allOrNothing_of_reachable hreach hidesVehicle unflushed
  exact ⟨hleft, by decide, hload "show_ev" (.bool false) rfl rfl⟩

/-! ## The way back from the browser -/

/-- With every operation on files successful, a patch is accepted and changes no value. -/
def Store.RoundTrips (explicit : Bool) (s : Store) (patch : StrMap Any) : Prop :=
  ∀ o : Outcomes, o.done explicit = true → o.replace = false →
    (s.applyWithReplacer explicit patch o).2 = none ∧
      ∀ k, Option.Rel SameValue (s.current.lookup k)
        ((s.applyWithReplacer explicit patch o).1.current.lookup k)

/-- The port in memory is in range, or it is not the one the environment gave. -/
def Store.PortKnown (s : Store) : Prop :=
  1 ≤ s.env.port ∧ s.env.port ≤ 65535 ∨
    s.current.lookup "mqtt_port" ≠ some (.int s.env.port)

/-- What the browser is given under each key. -/
theorem lookup_masked (s : Store) (k : String) : s.masked.lookup k =
    if k = "ha_token" then some (maskOf (s.current.lookup "ha_token"))
    else s.current.lookup k := by
  unfold Store.masked secretKeys
  simp only [List.foldl_cons, List.foldl_nil]
  split_ifs with hk
  · rw [hk, AList.lookup_insert]
  · rw [AList.lookup_insert_ne hk]

/-- Only the secret has a placeholder. -/
theorem isMask_of_ne {k : String} (hk : k ≠ "ha_token") (v : Any) : isMask k v = false := by
  cases v with
  | string s => simp [isMask, hk]
  | _ => rfl

/-- The secret is a string. -/
theorem Tidy.token {e : Environment} {m : StrMap Any} (h : Tidy e m) :
    ∃ t, m.lookup "ha_token" = some (.string t) := by
  obtain ⟨v, hv⟩ := Option.isSome_iff_exists.mp
    (AList.lookup_isSome.mpr ((h.keys "ha_token").mpr (by decide)))
  have hkind : entry allowed "ha_token" = some .string := by decide
  rcases h.values _ _ hv with hok | ⟨hk, -⟩
  · cases v with
    | string t => exact ⟨t, hv⟩
    | _ => simp [typeOK, hkind] at hok
  · exact absurd hk (by decide)

/-- With a known port, everything in memory passes the check of its key. -/
theorem Tidy.typeOK {s : Store} (h : Tidy s.env s.current) (hport : s.PortKnown) {k : String}
    {v : Any} (hv : s.current.lookup k = some v) : Settings.typeOK k v = true := by
  rcases h.values k v hv with hok | ⟨rfl, rfl⟩
  · exact hok
  · rcases hport with hrange | hne
    · exact (typeOK_number rfl).mpr ⟨rfl, s.env.port, hrange.1, hrange.2, rfl⟩
    · exact absurd hv hne

/-- A patch of the values the browser was given passes, with a known port. -/
theorem accepted_masked {s : Store} (h : Tidy s.env s.current) (hport : s.PortKnown)
    {patch : StrMap Any} (hp : ∀ k, Option.Rel SameValue (s.masked.lookup k) (patch.lookup k)) :
    ∀ k v, patch.lookup k = some v → typeOK k v = true := by
  intro k v hv
  have hrel := hp k
  rw [hv, lookup_masked] at hrel
  split_ifs at hrel with hk
  · subst hk
    cases hrel with
    | some hsame =>
      rw [← hsame.typeOK]
      unfold maskOf
      split_ifs <;> rfl
  · cases hcur : s.current.lookup k with
    | none =>
      rw [hcur] at hrel
      cases hrel
    | some w =>
      rw [hcur] at hrel
      cases hrel with
      | some hsame => exact hsame.typeOK k ▸ h.typeOK hport hcur

/-- Writing the values the browser was given changes no value: the placeholder is passed over, and
an empty secret is written as it is. -/
theorem same_merged_masked {s : Store} (h : Tidy s.env s.current) {patch : StrMap Any}
    (hp : ∀ k, Option.Rel SameValue (s.masked.lookup k) (patch.lookup k)) (k : String) :
    Option.Rel SameValue (s.current.lookup k) ((merged s.current patch).lookup k) := by
  have hrel := hp k
  rw [lookup_merged]
  rw [lookup_masked] at hrel
  split_ifs at hrel with hk
  · subst hk
    obtain ⟨t, ht⟩ := h.token
    rw [ht] at hrel ⊢
    cases hv : patch.lookup "ha_token" with
    | none =>
      rw [hv] at hrel
      cases hrel
    | some v =>
      rw [hv] at hrel
      cases hrel with
      | some hsame =>
        by_cases hempty : t = ""
        · subst hempty
          obtain rfl : v = .string "" := hsame.symm.eq_string
          exact .some (.refl _)
        · have hmask : maskOf (some (.string t)) = .string "***" := by
            simp [maskOf, Any.string?, hempty]
          rw [hmask] at hsame
          obtain rfl : v = .string "***" := hsame.symm.eq_string
          exact .some (.refl _)
  · cases hv : patch.lookup k with
    | none =>
      rw [hv] at hrel
      rw [Option.filter_none, Option.none_or]
      cases hcur : s.current.lookup k with
      | none => exact .none
      | some w => exact .some (.refl w)
    | some v =>
      rw [hv] at hrel
      rw [Option.filter_some, if_pos (by simp [isMask_of_ne hk]), Option.some_or]
      exact hrel

/-- **When the settings survive the way to the browser and back.** In every reachable state, the
masked settings are accepted as a patch and change no value if and only if the port in memory is in
range or is not the one the environment gave. The same holds of every patch with the same values,
such as the masked settings after JSON has made a `float64` of the port.

**Proof sketch.** Everything in memory passes its check but, possibly, the port of the environment,
which no check has seen. Where all values pass, each is written over itself. -/
theorem roundTrips_iff_of_reachable {explicit : Bool} {s : Store}
    (h : Transition.Reachable (Store.step explicit) (fun _ _ => True) Store.Init s) :
    (s.RoundTrips explicit s.masked ↔ s.PortKnown) ∧
      ∀ patch : StrMap Any,
        (∀ k, Option.Rel SameValue (s.masked.lookup k) (patch.lookup k)) →
          (s.RoundTrips explicit patch ↔ s.PortKnown) := by
  have htidy := Store.tidy_of_reachable h
  have hiff : ∀ patch : StrMap Any,
      (∀ k, Option.Rel SameValue (s.masked.lookup k) (patch.lookup k)) →
        (s.RoundTrips explicit patch ↔ s.PortKnown) := by
    intro patch hp
    constructor
    · intro hround
      by_contra hport
      simp only [Store.PortKnown, not_or, not_not] at hport
      -- an operation after the check would succeed, so that the check has passed
      have herr := (hround ⟨false, false, false, false, false, true, false⟩
        (by cases explicit <;> rfl) rfl).1
      have hcheck : patch.entries.findSome? checkEntry = none := by
        cases hc : patch.entries.findSome? checkEntry with
        | none => rfl
        | some err => simp [Store.applyWithReplacer, hc] at herr
      have hrel := hp "mqtt_port"
      rw [lookup_masked, if_neg (by decide), hport.2] at hrel
      cases hv : patch.lookup "mqtt_port" with
      | none =>
        rw [hv] at hrel
        cases hrel
      | some v =>
        rw [hv] at hrel
        cases hrel with
        | some hsame =>
          have hok := accepted_iff.mp hcheck _ _ hv
          rw [← hsame.typeOK, typeOK_number rfl] at hok
          obtain ⟨-, n, hlow, hhigh, heq⟩ := hok
          exact hport.1 (Int.cast_inj.mp heq ▸ ⟨hlow, hhigh⟩)
    · intro hport o hdone hreplace
      rw [applyWithReplacer_of_done htidy
        (accepted_iff.mpr (accepted_masked htidy hport hp)) hdone, hreplace]
      exact ⟨rfl, same_merged_masked htidy hp⟩
  refine ⟨hiff s.masked fun k => ?_, hiff⟩
  cases s.masked.lookup k with
  | none => exact .none
  | some v => exact .some (.refl v)

/-- A start without a broker, as the configuration of the gateway alone passes it. -/
def gatewayEnvironment : Environment := ⟨"", "", 0, by norm_num⟩

/-- With a broker in the environment, the settings can be sent back. -/
theorem roundTrips_iff_of_reachable_broker :
    (Store.init brokerEnvironment none).RoundTrips false
    (Store.init brokerEnvironment none).masked :=
  (roundTrips_iff_of_reachable (.start ⟨brokerEnvironment, none, rfl⟩)).1.mpr
    (Or.inl ⟨by decide, by decide⟩)

/-- Without one they cannot: the port is refused. -/
theorem not_roundTrips_gateway : ∃ s : Store,
    Transition.Reachable (Store.step false) (fun _ _ => True) Store.Init s ∧
      ¬ s.RoundTrips false s.masked := by
  refine ⟨.init gatewayEnvironment none, .start ⟨gatewayEnvironment, none, rfl⟩, fun hround => ?_⟩
  have herr := (hround ⟨false, false, false, false, false, true, false⟩ rfl rfl).1
  have hport : ((Store.init gatewayEnvironment none).applyWithReplacer false
      (Store.init gatewayEnvironment none).masked
      ⟨false, false, false, false, false, true, false⟩).2 = some (.errType "mqtt_port") := by
    decide
  rw [hport] at herr
  cases herr

end Dashboard.Settings
