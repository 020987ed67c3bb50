import InverterDashboard.Settings.Durable

set_option relaxedAutoImplicit false
set_option autoImplicit false

/-!
# Connection overrides and what the operator chose

The overrides are the connection settings that differ from the defaults of the environment. Since a
patch writes the whole map, the file also keeps the broker address that was the default then, and a
number that is read from the file has another type than the default it is compared with. The module
follows which values patches set, next to the settings, and determines after which steps the
overrides for the broker are only such values.

## Main definitions

* `Dashboard.Settings.Operated` — the settings, and the value that a patch set last under each key.
* `Dashboard.Settings.Operated.OnlyChosen` — the overrides for the broker are such values, and none
  is the default.
* `Dashboard.Settings.Operated.Spares` — the steps after which that holds.

## Main results

* `Dashboard.Settings.onlyChosen_of_reachable` — runs of such steps, and the converse for each step.
-/

namespace Dashboard.Settings

open Go

/-! ## Overrides of the broker -/

/-- The keys of the address of the broker. -/
def brokerKeys : List String := ["mqtt_host", "mqtt_port"]

/-- What the overrides list under the keys of the broker. -/
theorem mem_overrides {s : Store} {k : String} {v : Any} (hk : k ∈ brokerKeys) :
    (k, v) ∈ s.overrides ↔ s.override k = some v := by
  unfold Store.overrides
  rw [List.mem_filterMap]
  constructor
  · rintro ⟨k', -, h⟩
    obtain ⟨w, hw, heq⟩ := Option.map_eq_some_iff.mp h
    cases heq
    exact hw
  · intro h
    refine ⟨k, ?_, by rw [h]; rfl⟩
    have hall : ∀ k ∈ brokerKeys, k ∈ ["mqtt_host", "mqtt_port", "ha_url", "ha_token"] := by decide
    exact hall k hk

/-- A host is an override unless it is empty or the default. -/
theorem override_host {s : Store} {h : String} (hh : s.current.lookup "mqtt_host" =
    some (.string h)) : s.override "mqtt_host" =
      if h = "" ∨ h = s.env.host then none else some (.string h) := by
  have hdef : s.env.default? "mqtt_host" = some (.string s.env.host) := rfl
  rw [Store.override, hh, hdef, Option.filter_some]
  by_cases hempty : h = "" <;> by_cases hdefault : h = s.env.host <;>
    simp [sameInterface, Any.isNil, hempty, hdefault]

/-- An `int` is an override unless it is the default. -/
theorem override_int {s : Store} {n : ℤ} (hn : s.current.lookup "mqtt_port" = some (.int n)) :
    s.override "mqtt_port" = if n = s.env.port then none else some (.int n) := by
  have hdef : s.env.default? "mqtt_port" = some (.int s.env.port) := rfl
  rw [Store.override, hn, hdef, Option.filter_some]
  by_cases hdefault : n = s.env.port <;> simp [sameInterface, Any.isNil, hdefault]

/-- A `float64` is an override, also when it is the default. -/
theorem override_float64 {s : Store} {x : F64}
    (hx : s.current.lookup "mqtt_port" = some (.float64 x)) :
    s.override "mqtt_port" = some (.float64 x) := by
  have hdef : s.env.default? "mqtt_port" = some (.int s.env.port) := rfl
  rw [Store.override, hx, hdef, Option.filter_some]
  rfl

/-- The values of the types of the keys of the broker. -/
theorem string_of_host {v : Any} (h : typeOK "mqtt_host" v = true) : ∃ s, v = .string s := by
  have hkind : entry allowed "mqtt_host" = some .string := by decide
  cases v with
  | string s => exact ⟨s, rfl⟩
  | _ => simp [typeOK, hkind] at h

theorem number_of_port {v : Any} (h : typeOK "mqtt_port" v = true) :
    (∃ n, v = .int n) ∨ ∃ x, v = .float64 x := by
  have hkind : entry allowed "mqtt_port" = some .int := by decide
  cases v with
  | int n => exact Or.inl ⟨n, rfl⟩
  | float64 x => exact Or.inr ⟨x, rfl⟩
  | _ => simp [typeOK, hkind] at h

/-! ## Numbers of a file -/

/-- Decoding makes no `int`. -/
theorem toAny_ne_int (j : Json) (n : ℤ) : j.toAny ≠ some (.int n) := by
  cases j with
  | num l =>
    simp only [Json.toAny]
    split <;> simp
  | arr es => simp [Json.toAny]
  | obj fs => simp [Json.toAny]
  | _ => simp [Json.toAny]

/-- The members that are read back are decoded values. -/
theorem exists_of_mem_toAnyFields {fields : List (String × Json)} {es : List (String × Any)}
    (h : Json.toAnyFields fields = some es) {e : String × Any} (he : e ∈ es) :
    ∃ j : Json, j.toAny = some e.2 := by
  induction fields generalizing es with
  | nil =>
    obtain rfl := Option.some.inj h
    simp at he
  | cons f fields ih =>
    obtain ⟨k, j⟩ := f
    cases hj : j.toAny with
    | none => simp [Json.toAnyFields, hj] at h
    | some v =>
      cases hr : Json.toAnyFields fields with
      | none => simp [Json.toAnyFields, hj, hr] at h
      | some rest =>
        simp only [Json.toAnyFields, hj, hr, Option.bind_eq_bind, Option.bind_some,
          Option.pure_def, Option.some.injEq] at h
        subst h
        rcases List.mem_cons.mp he with rfl | he
        · exact ⟨j, hj⟩
        · exact ih hr he

/-- A file stores no `int`. -/
theorem stored_ne_int (file : Option Json) (k : String) (n : ℤ) :
    stored file k ≠ some (.int n) := by
  intro h
  unfold stored at h
  split at h
  · next fields hf =>
    obtain ⟨j, -, hj⟩ := Option.bind_eq_some_iff.mp hf
    cases j with
    | obj fs =>
      obtain ⟨es, hes, heq⟩ := Option.map_eq_some_iff.mp hj
      cases heq
      obtain ⟨j, hj⟩ := exists_of_mem_toAnyFields hes (mem_of_mem_lastWins (mem_of_entry h))
      exact toAny_ne_int j n hj
    | num l =>
      simp only [Json.toAny] at hj
      split at hj <;> cases hj
    | arr es =>
      obtain ⟨es, -, heq⟩ := Option.map_eq_some_iff.mp hj
      cases heq
    | null => cases hj
    | bool b => cases hj
    | str s => cases hj
  · cases h

/-! ## What the operator chose -/

/-- The settings with the value that an accepted patch set last under each key. -/
structure Operated where
  store : Store
  chosen : StrMap Any

/-- A patch takes effect: it is accepted and its replacement is done. -/
def TakesEffect (explicit : Bool) (patch : StrMap Any) (o : Outcomes) : Prop :=
  patch.entries.findSome? checkEntry = none ∧ o.done explicit = true

instance (explicit : Bool) (patch : StrMap Any) (o : Outcomes) :
    Decidable (TakesEffect explicit patch o) := inferInstanceAs (Decidable (_ ∧ _))

/-- One event. A patch that takes effect is remembered. -/
def Operated.step (explicit : Bool) (t : Operated) (ev : Event) : Option Operated :=
  (t.store.step explicit ev).map fun s =>
    match ev with
    | .restart _ => ⟨s, t.chosen⟩
    | .apply patch o =>
      if TakesEffect explicit patch o then ⟨s, patch ∪ t.chosen⟩ else ⟨s, t.chosen⟩

/-- A first start, where there is no file. -/
def Operated.Init (t : Operated) : Prop := ∃ e, t = ⟨.init e none, ∅⟩

/-- An override for the broker is the value that a patch set last under its key, and that is not
the default of the environment. -/
def Operated.OnlyChosen (t : Operated) : Prop :=
  ∀ k ∈ brokerKeys, ∀ v, (k, v) ∈ t.store.overrides →
    ∃ w, t.chosen.lookup k = some w ∧ SameValue v w ∧
      ∀ d, t.store.env.default? k = some d → ¬ SameValue w d

/-- A step that spares the overrides. A restart finds in the file no host but the empty one, the
default of its environment and the chosen one, and no port in range but a chosen one that is not
the default of its environment. A patch that takes effect does not set the port to the default as
a `float64`. -/
def Operated.Spares (explicit : Bool) (t : Operated) : Event → Prop
  | .restart e =>
    (∀ h, stored t.store.file "mqtt_host" = some (.string h) →
      h = "" ∨ h = e.host ∨ t.chosen.lookup "mqtt_host" = some (.string h)) ∧
    ∀ x, stored t.store.file "mqtt_port" = some (.float64 x) →
      typeOK "mqtt_port" (.float64 x) = true →
      ∃ w, t.chosen.lookup "mqtt_port" = some w ∧ SameValue (.float64 x) w ∧
        ¬ SameValue w (.int e.port)
  | .apply patch o => TakesEffect explicit patch o →
    ∀ x, patch.lookup "mqtt_port" = some (.float64 x) →
      ¬ SameValue (.float64 x) (.int t.store.env.port)

/-- The property of one key: its override is the chosen value, and no default. -/
def Operated.OnlyChosenAt (t : Operated) (k : String) (d : Any) : Prop :=
  ∀ v, t.store.override k = some v →
    ∃ w, t.chosen.lookup k = some w ∧ SameValue v w ∧ ¬ SameValue w d

theorem onlyChosen_iff (t : Operated) : t.OnlyChosen ↔
    t.OnlyChosenAt "mqtt_host" (.string t.store.env.host) ∧
      t.OnlyChosenAt "mqtt_port" (.int t.store.env.port) := by
  have hhost : t.store.env.default? "mqtt_host" = some (.string t.store.env.host) := rfl
  have hport : t.store.env.default? "mqtt_port" = some (.int t.store.env.port) := rfl
  constructor
  · intro h
    constructor
    · intro v hv
      obtain ⟨w, hw, hsame, hne⟩ := h _ (by decide) v ((mem_overrides (by decide)).mpr hv)
      exact ⟨w, hw, hsame, hne _ hhost⟩
    · intro v hv
      obtain ⟨w, hw, hsame, hne⟩ := h _ (by decide) v ((mem_overrides (by decide)).mpr hv)
      exact ⟨w, hw, hsame, hne _ hport⟩
  · rintro ⟨h₁, h₂⟩ k hk v hv
    rw [mem_overrides hk] at hv
    simp only [brokerKeys, List.mem_cons, List.not_mem_nil, or_false] at hk
    rcases hk with rfl | rfl
    · obtain ⟨w, hw, hsame, hne⟩ := h₁ v hv
      exact ⟨w, hw, hsame, fun d hd => Option.some.inj (hhost.symm.trans hd) ▸ hne⟩
    · obtain ⟨w, hw, hsame, hne⟩ := h₂ v hv
      exact ⟨w, hw, hsame, fun d hd => Option.some.inj (hport.symm.trans hd) ▸ hne⟩

/-- A host that is no override meets the property. -/
theorem onlyChosenAt_of_none {t : Operated} {k : String} {d : Any} (h : t.store.override k = none) :
    t.OnlyChosenAt k d := fun v hv => by
  rw [h] at hv
  cases hv

/-! ## Restarts -/

/-- The host after a start is the stored string, or the default. -/
theorem host_of_load (e : Environment) (file : Option Json) :
    (∃ h, stored file "mqtt_host" = some (.string h) ∧
        (load e file).lookup "mqtt_host" = some (.string h)) ∨
      (∀ h, stored file "mqtt_host" ≠ some (.string h)) ∧
        (load e file).lookup "mqtt_host" = some (.string e.host) := by
  have hdef : (defaults e).lookup "mqtt_host" = some (.string e.host) := by
    rw [lookup_defaults]
    rfl
  rw [lookup_load, hdef]
  cases hs : stored file "mqtt_host" with
  | none => exact Or.inr ⟨fun _ => by simp, rfl⟩
  | some v =>
    cases hok : typeOK "mqtt_host" v with
    | true =>
      obtain ⟨h, rfl⟩ := string_of_host hok
      exact Or.inl ⟨h, rfl, by rw [Option.filter_some, if_pos hok, Option.some_or]⟩
    | false =>
      refine Or.inr ⟨fun h heq => ?_, by simp [Option.filter_some, hok]⟩
      obtain rfl := Option.some.inj heq
      cases hok

/-- The port after a start is a stored `float64` that passes, or the default. -/
theorem port_of_load (e : Environment) (file : Option Json) :
    (∃ x, stored file "mqtt_port" = some (.float64 x) ∧
        typeOK "mqtt_port" (.float64 x) = true ∧
        (load e file).lookup "mqtt_port" = some (.float64 x)) ∨
      (∀ x, stored file "mqtt_port" = some (.float64 x) →
        typeOK "mqtt_port" (.float64 x) = false) ∧
        (load e file).lookup "mqtt_port" = some (.int e.port) := by
  have hdef : (defaults e).lookup "mqtt_port" = some (.int e.port) := by
    rw [lookup_defaults]
    rfl
  rw [lookup_load, hdef]
  cases hs : stored file "mqtt_port" with
  | none => exact Or.inr ⟨by simp, rfl⟩
  | some v =>
    cases hok : typeOK "mqtt_port" v with
    | true =>
      rcases number_of_port hok with ⟨n, rfl⟩ | ⟨x, rfl⟩
      · exact absurd hs (stored_ne_int file _ n)
      · exact Or.inl ⟨x, rfl, hok, by rw [Option.filter_some, if_pos hok, Option.some_or]⟩
    | false =>
      refine Or.inr ⟨fun x heq => ?_, by simp [Option.filter_some, hok]⟩
      rw [← Option.some.inj heq]
      exact hok

/-- After a restart the overrides are chosen exactly where the restart spares them. -/
theorem onlyChosen_restart_iff (explicit : Bool) (t : Operated) (e : Environment) :
    (Operated.mk (.init e t.store.file) t.chosen).OnlyChosen ↔ t.Spares explicit (.restart e) := by
  rw [onlyChosen_iff]
  refine and_congr ?_ ?_
  · rcases host_of_load e t.store.file with ⟨h, hs, hload⟩ | ⟨hs, hload⟩
    · have hover := override_host (s := .init e t.store.file) hload
      rw [hs]
      constructor
      · intro hgood h' heq
        cases heq
        by_cases hcase : h = "" ∨ h = e.host
        · exact hcase.imp_right Or.inl
        · obtain ⟨w, hw, hsame, -⟩ := hgood _ (hover.trans (if_neg hcase))
          exact Or.inr (Or.inr (hsame.symm.eq_string ▸ hw))
      · intro hspares v hv
        rw [hover] at hv
        split_ifs at hv with hcase
        obtain rfl := Option.some.inj hv
        rcases hspares h rfl with hempty | hdefault | hchosen
        · exact absurd (Or.inl hempty) hcase
        · exact absurd (Or.inr hdefault) hcase
        · refine ⟨_, hchosen, .refl _, fun hsame => hcase (Or.inr ?_)⟩
          cases hsame.eq_string
          rfl
    · have hover := override_host (s := .init e t.store.file) hload
      exact iff_of_true (onlyChosenAt_of_none (hover.trans (if_pos (Or.inr rfl))))
        fun h heq => absurd heq (hs h)
  · rcases port_of_load e t.store.file with ⟨x, hs, hok, hload⟩ | ⟨hs, hload⟩
    · have hover := override_float64 (s := .init e t.store.file) hload
      rw [hs]
      constructor
      · intro hgood x' heq _
        cases heq
        exact hgood _ hover
      · intro hspares v hv
        obtain rfl := Option.some.inj (hover.symm.trans hv)
        exact hspares x rfl hok
    · have hover := override_int (s := .init e t.store.file) hload
      refine iff_of_true (onlyChosenAt_of_none (hover.trans (if_pos rfl))) fun x heq hok => ?_
      rw [hs x heq] at hok
      cases hok

/-! ## Patches -/

/-- What was chosen last after a patch. -/
theorem lookup_chosen (patch chosen : StrMap Any) (k : String) :
    (patch ∪ chosen).lookup k = (patch.lookup k).or (chosen.lookup k) := by
  by_cases hk : k ∈ patch
  · rw [AList.lookup_union_left hk]
    obtain ⟨v, hv⟩ := Option.isSome_iff_exists.mp (AList.lookup_isSome.mpr hk)
    rw [hv, Option.some_or]
  · rw [AList.lookup_union_right hk, AList.lookup_eq_none.mpr hk, Option.none_or]

/-- Under a key of the broker, memory and choice move together. -/
theorem lookup_broker_merged {k : String} (hk : k ∈ brokerKeys) (current patch : StrMap Any) :
    (merged current patch).lookup k = (patch.lookup k).or (current.lookup k) := by
  have hne : k ≠ "ha_token" := by
    have hall : ∀ k ∈ brokerKeys, k ≠ "ha_token" := by decide
    exact hall k hk
  rw [lookup_merged]
  cases patch.lookup k with
  | none => rfl
  | some v => rw [Option.filter_some, if_pos (by simp [isMask_of_ne hne])]

/-- A patch without the key keeps the property of the key. -/
theorem onlyChosenAt_of_untouched {t : Operated} {patch : StrMap Any} {k : String} {d : Any}
    (hk : k ∈ brokerKeys) (h : t.OnlyChosenAt k d) (hnone : patch.lookup k = none)
    (file : Option Json) :
    (Operated.mk ⟨t.store.env, merged t.store.current patch, file⟩
      (patch ∪ t.chosen)).OnlyChosenAt k d := by
  intro v hv
  have hlook := lookup_broker_merged hk t.store.current patch
  rw [hnone, Option.none_or] at hlook
  simp only [Store.override, hlook] at hv
  obtain ⟨w, hw, hrest⟩ := h v hv
  exact ⟨w, by rw [lookup_chosen, hnone, Option.none_or, hw], hrest⟩

/-- After a patch that takes effect the overrides are chosen exactly where the patch spares them. -/
theorem onlyChosen_apply_iff {explicit : Bool} {t : Operated} {patch : StrMap Any} {o : Outcomes}
    (h : t.OnlyChosen) (heffect : TakesEffect explicit patch o) (file : Option Json) :
    (Operated.mk ⟨t.store.env, merged t.store.current patch, file⟩
      (patch ∪ t.chosen)).OnlyChosen ↔ t.Spares explicit (.apply patch o) := by
  have hok := accepted_iff.mp heffect.1
  rw [onlyChosen_iff] at h ⊢
  dsimp only
  have hhost : (Operated.mk ⟨t.store.env, merged t.store.current patch, file⟩
      (patch ∪ t.chosen)).OnlyChosenAt "mqtt_host" (.string t.store.env.host) := by
    cases hp : patch.lookup "mqtt_host" with
    | none => exact onlyChosenAt_of_untouched (by decide) h.1 hp file
    | some v =>
      obtain ⟨s, rfl⟩ := string_of_host (hok _ _ hp)
      intro v hv
      rw [override_host (by rw [lookup_broker_merged (by decide), hp, Option.some_or])] at hv
      split_ifs at hv with hcase
      obtain rfl := Option.some.inj hv
      refine ⟨_, by rw [lookup_chosen, hp, Option.some_or], .refl _, fun hsame => hcase (Or.inr ?_)⟩
      cases hsame.eq_string
      rfl
  rw [and_iff_right hhost]
  cases hp : patch.lookup "mqtt_port" with
  | none =>
    refine iff_of_true (onlyChosenAt_of_untouched (by decide) h.2 hp file) fun _ x hx => ?_
    rw [hp] at hx
    cases hx
  | some v =>
    have hmem : (merged t.store.current patch).lookup "mqtt_port" = some v := by
      rw [lookup_broker_merged (by decide), hp, Option.some_or]
    have hchosen : (patch ∪ t.chosen).lookup "mqtt_port" = some v := by
      rw [lookup_chosen, hp, Option.some_or]
    rcases number_of_port (hok _ _ hp) with ⟨n, rfl⟩ | ⟨x, rfl⟩
    · refine iff_of_true (fun v hv => ?_) fun _ x hx => ?_
      · rw [override_int hmem] at hv
        split_ifs at hv with hcase
        obtain rfl := Option.some.inj hv
        refine ⟨_, hchosen, .refl _, fun hsame => hcase ?_⟩
        rcases hsame with heq | ⟨q, hq, hq'⟩
        · cases heq
          rfl
        · exact Int.cast_inj.mp (Option.some.inj (hq.trans hq'.symm))
      · rw [hp] at hx
        cases hx
    · have hover := override_float64
        (s := ⟨t.store.env, merged t.store.current patch, file⟩) hmem
      constructor
      · intro hgood _ x' hx'
        obtain ⟨w, hw, -, hne⟩ := hgood _ hover
        rw [hp] at hx'
        cases hx'
        exact Option.some.inj (hchosen.symm.trans hw) ▸ hne
      · intro hspares v hv
        obtain rfl := Option.some.inj (hover.symm.trans hv)
        exact ⟨_, hchosen, .refl _, hspares heffect x hp⟩

/-! ## Runs -/

/-- **Step.** From settings whose overrides were chosen, they are so after a step exactly where the
step spares them. -/
theorem onlyChosen_step_iff {explicit : Bool} {t t' : Operated} {ev : Event}
    (htidy : Tidy t.store.env t.store.current) (h : t.OnlyChosen)
    (hstep : t.step explicit ev = some t') : t'.OnlyChosen ↔ t.Spares explicit ev := by
  cases ev with
  | restart e =>
    obtain rfl := Option.some.inj hstep
    exact onlyChosen_restart_iff explicit t e
  | apply patch o =>
    by_cases heffect : TakesEffect explicit patch o
    · simp only [Operated.step, Store.step, Option.map_some, if_pos heffect,
        applyWithReplacer_of_done htidy heffect.1 heffect.2, Option.some.injEq] at hstep
      rw [← hstep]
      exact onlyChosen_apply_iff h heffect _
    · simp only [Operated.step, Store.step, Option.map_some, if_neg heffect,
        applyWithReplacer_of_not_done heffect, Option.some.injEq] at hstep
      rw [← hstep]
      exact iff_of_true h fun hc => absurd hc heffect

/-- The settings of a run are tidy. -/
theorem tidy_operated {explicit : Bool} {t t' : Operated} {ev : Event}
    (htidy : Tidy t.store.env t.store.current) (hstep : t.step explicit ev = some t') :
    Tidy t'.store.env t'.store.current := by
  cases ev with
  | restart e =>
    obtain rfl := Option.some.inj hstep
    exact tidy_load e t.store.file
  | apply patch o =>
    simp only [Operated.step, Store.step, Option.map_some, Option.some.injEq] at hstep
    rw [← hstep]
    split_ifs <;> exact tidy_apply htidy patch o

/-- **Connection overrides the operator chose.** In every state of a run whose steps spare them, an
override for the broker is the value that a patch set last under its key, and not the default of
the environment. A further step that does not spare them gives a state in which this fails.

**Proof sketch.** After a restart the broker's settings are the stored ones: a stored host is
reported unless it is empty or the default, and a stored port is always reported, since it is a
`float64` and the default an `int`. A patch moves memory and choice together. -/
theorem onlyChosen_of_reachable (explicit : Bool) {t : Operated}
    (h : Transition.Reachable (Operated.step explicit) (Operated.Spares explicit) Operated.Init t) :
    t.OnlyChosen ∧
      ∀ ev t', t.step explicit ev = some t' → (t'.OnlyChosen ↔ t.Spares explicit ev) := by
  have hinv : Tidy t.store.env t.store.current ∧ t.OnlyChosen := by
    refine h.invariant (I := fun t => Tidy t.store.env t.store.current ∧ t.OnlyChosen) ?_ ?_
    · rintro _ ⟨e, rfl⟩
      refine ⟨tidy_load e none, (onlyChosen_restart_iff explicit
        ⟨.init e none, ∅⟩ e).mpr ⟨fun _ hs => ?_, fun _ hs => ?_⟩⟩ <;> cases hs
    · intro t ev t' hi hok hstep
      exact ⟨tidy_operated hi.1 hstep, (onlyChosen_step_iff hi.1 hi.2 hstep).mpr hok⟩
  exact ⟨hinv.2, fun ev t' hstep => onlyChosen_step_iff hinv.1 hinv.2 hstep⟩

/-- A patch of the address of the broker. -/
def movesBroker : StrMap Any :=
  (AList.singleton "mqtt_port" (.float64 8883)).insert "mqtt_host" (.string "broker.local")

/-- Every operation on files succeeds. -/
def written : Outcomes := ⟨false, false, false, false, false, true, false⟩

/-- An environment with another broker. -/
def movedEnvironment : Environment :=
  ⟨"frigate/+/events", "cerbo-2", 1883, brokerEnvironment.inRange⟩

/-- A first start. -/
def brokerStart : Operated := ⟨.init brokerEnvironment none, ∅⟩

/-- After the patch of the address. -/
def brokerMoved : Operated :=
  ⟨(brokerStart.store.applyWithReplacer false movesBroker written).1, movesBroker ∪ ∅⟩

/-- After the patch that hides a card. -/
def vehicleHidden : Operated :=
  ⟨(brokerStart.store.applyWithReplacer false hidesVehicle written).1, hidesVehicle ∪ ∅⟩

/-- A broker that a patch chose is still the override after a restart elsewhere. -/
theorem onlyChosen_of_reachable_moved : ∃ t : Operated,
    Transition.Reachable (Operated.step false) (Operated.Spares false) Operated.Init t ∧
      t.OnlyChosen ∧ (t.store.override "mqtt_host").bind Any.string? = some "broker.local" := by
  have hport : ¬ SameValue (.float64 8883) (.int 1883) := by
    rintro (heq | ⟨q, hq, hq'⟩)
    · cases heq
    · exact absurd (hq.trans hq'.symm) (by decide)
  have hpatch : brokerStart.Spares false (.apply movesBroker written) := by
    intro _ x hx
    cases hx
    exact hport
  have hrestart : brokerMoved.Spares false (.restart movedEnvironment) := by
    have hhost : (stored brokerMoved.store.file "mqtt_host").bind Any.string? =
        some "broker.local" := by decide +kernel
    have hnumber : (stored brokerMoved.store.file "mqtt_port").bind number? = some 8883 := by
      decide +kernel
    constructor
    · intro h hh
      rw [hh] at hhost
      obtain rfl : h = "broker.local" := Option.some.inj hhost
      exact Or.inr (Or.inr rfl)
    · intro x hx _
      rw [hx] at hnumber
      exact ⟨.float64 8883, rfl, Or.inr ⟨8883, hnumber, rfl⟩, hport⟩
  have hstart : Transition.Reachable (Operated.step false) (Operated.Spares false) Operated.Init
      brokerStart := .start ⟨brokerEnvironment, rfl⟩
  have hpatched : Transition.Reachable (Operated.step false) (Operated.Spares false) Operated.Init
      brokerMoved := hstart.next hpatch rfl
  have hmoved : Transition.Reachable (Operated.step false) (Operated.Spares false) Operated.Init
      ⟨.init movedEnvironment brokerMoved.store.file, brokerMoved.chosen⟩ :=
    hpatched.next hrestart rfl
  exact ⟨_, hmoved, (onlyChosen_of_reachable false hmoved).1, by decide +kernel⟩

/-- A patch that hides a card keeps the broker of that day: after a restart with another one, the
old one is an override that no patch has set. -/
theorem not_onlyChosen_of_reachable_pinned : ∃ t : Operated,
    Transition.Reachable (Operated.step false) (fun _ _ => True) Operated.Init t ∧
      ¬ t.OnlyChosen := by
  have hstart : Transition.Reachable (Operated.step false) (fun _ _ => True) Operated.Init
      brokerStart := .start ⟨brokerEnvironment, rfl⟩
  have hpatched : Transition.Reachable (Operated.step false) (fun _ _ => True) Operated.Init
      vehicleHidden := hstart.next trivial (e := .apply hidesVehicle written) rfl
  refine ⟨⟨.init movedEnvironment vehicleHidden.store.file, vehicleHidden.chosen⟩,
    hpatched.next (e := .restart movedEnvironment) trivial rfl, fun hgood => ?_⟩
  have hover : ((Store.init movedEnvironment vehicleHidden.store.file).override "mqtt_host").isSome
      = true := by decide +kernel
  obtain ⟨v, hv⟩ := Option.isSome_iff_exists.mp hover
  obtain ⟨w, hw, -⟩ := ((onlyChosen_iff _).mp hgood).1 v hv
  cases hw

end Dashboard.Settings
