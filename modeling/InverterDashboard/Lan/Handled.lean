import InverterDashboard.Lan.System

set_option relaxedAutoImplicit false
set_option autoImplicit false

/-!
# What a native device message changes

`handleCerboDevice` rejects a message at several points, behind a scan that makes missing maps. On
LAN the maps are there before the first message, so a rejected message leaves no trace, and an
accepted one changes the leaf it names or removes the instance it names.

The cache of the source is a map of maps with keys `<instance>/<path>`, and a removal deletes the
keys with the prefix `<instance>/`. Instances are decimal numbers, so the first slash of a key ends
its instance, and the scan finds the leaves of one instance only.

## Main definitions

* `Dashboard.Leaf.key` — the key of a leaf in the map of its kind.
* `Dashboard.Client.Prepared` — the flags are made, and every cached instance is a number.

## Main results

* `Dashboard.Leaf.hasPrefix_key_iff` — the prefix scan of a removal.
* `Dashboard.Lan.prepared_of_reachable` — every reachable client is prepared.
* `Dashboard.Lan.handleCerboDevice_frame` — what is unchanged by a message.
-/

namespace Dashboard

open Go

/-! ## Keys of the source -/

/-- The key of a leaf in the map of its kind. -/
def Leaf.key (l : Leaf) : String := l.inst ++ "/" ++ l.path

/-- A digit string has no slash. -/
theorem slash_notMem_of_digits {cs : List Char} {n : ℕ} (h : digitsValue cs = some n) :
    '/' ∉ cs := by
  intro hmem
  unfold digitsValue at h
  split_ifs at h with hbad
  have hall : cs.all Char.isDigit = true := by
    rw [Bool.or_eq_true, not_or] at hbad
    simpa using hbad.2
  exact absurd (List.all_eq_true.mp hall '/' hmem) (by decide)

/-- A text that `strconv.Atoi` accepts has no slash. -/
theorem slash_notMem_of_atoi {s : String} (h : (atoi s).isSome = true) : '/' ∉ s.toList := by
  unfold atoi at h
  obtain ⟨n, hn⟩ := Option.isSome_iff_exists.mp h
  have hv := (Option.filter_eq_some_iff.mp hn).1
  intro hmem
  have hdigits : ∃ cs m, digitsValue cs = some m ∧ '/' ∈ cs := by
    split at hv
    next cs heq =>
      rw [heq] at hmem
      cases hd : digitsValue cs with
      | none =>
        rw [hd] at hv
        cases hv
      | some m => exact ⟨cs, m, hd, (List.mem_cons.mp hmem).resolve_left (by decide)⟩
    next cs heq =>
      rw [heq] at hmem
      cases hd : digitsValue cs with
      | none =>
        rw [hd] at hv
        cases hv
      | some m => exact ⟨cs, m, hd, (List.mem_cons.mp hmem).resolve_left (by decide)⟩
    next =>
      cases hd : digitsValue s.toList with
      | none =>
        rw [hd] at hv
        cases hv
      | some m => exact ⟨_, m, hd, hmem⟩
  obtain ⟨cs, m, hd, hslash⟩ := hdigits
  exact slash_notMem_of_digits hd hslash

/-- Of two texts that are ended by a slash and have none inside, one is a prefix only of itself. -/
theorem isPrefixOf_slash_iff {a b : List Char} (ha : '/' ∉ a) (hb : '/' ∉ b) (rest : List Char) :
    (a ++ ['/']).isPrefixOf (b ++ '/' :: rest) = true ↔ a = b := by
  induction a generalizing b with
  | nil =>
    cases b with
    | nil => simp
    | cons y b =>
      have hy : y ≠ '/' := fun h => hb (h ▸ List.mem_cons_self)
      simp [Ne.symm hy]
  | cons x a ih =>
    have hx : x ≠ '/' := fun h => ha (h ▸ List.mem_cons_self)
    cases b with
    | nil => simp [hx]
    | cons y b =>
      have hrest := ih (fun h => ha (List.mem_cons_of_mem _ h)) fun h =>
          hb (List.mem_cons_of_mem _ h)
      simp only [List.cons_append, List.isPrefixOf, Bool.and_eq_true, beq_iff_eq, List.cons.injEq]
      rw [hrest]

/-- **The prefix scan** of a removal finds the leaves of the instance, and no other: neither those
of an instance it is a prefix of, nor those with nested paths. -/
theorem Leaf.hasPrefix_key_iff {l : Leaf} {inst : String} (hl : (atoi l.inst).isSome = true)
    (hinst : (atoi inst).isSome = true) :
    hasPrefix l.key (inst ++ "/") = true ↔ l.inst = inst := by
  have hkey : l.key.toList = l.inst.toList ++ '/' :: l.path.toList := by
    simp [Leaf.key, String.toList_append]
  have hpre : (inst ++ "/").toList = inst.toList ++ ['/'] := by
    simp [String.toList_append]
  rw [hasPrefix, hkey, hpre, isPrefixOf_slash_iff (slash_notMem_of_atoi hinst)
    (slash_notMem_of_atoi hl), String.toList_inj, eq_comm]

/-! ## Prepared clients -/

namespace Client

/-- The flags are made, and every cached instance is a number. -/
structure Prepared (c : Client) : Prop where
  flags : (c.state.field .telemetryAvailable).isSome = true
  numbers : ∀ l ∈ c.cerboLeaves, (atoi l.inst).isSome = true

namespace Prepared

variable {c c' : Client}

/-- Nothing is left to make. -/
theorem initCerboMaps (h : Prepared c) : c.initCerboMaps = c := by
  unfold Client.initCerboMaps
  rw [if_pos h.flags]

/-- An empty cache holds numbers only. -/
theorem of_empty (hflags : (c.state.field .telemetryAvailable).isSome = true)
    (hleaves : c.cerboLeaves = ∅) : Prepared c :=
  ⟨hflags, fun l hl => absurd (hleaves ▸ hl) (AList.notMem_empty l)⟩

/-- What another client shares the flags and the cache of is prepared with it. -/
theorem of_eq (h : Prepared c)
    (hflags : c'.state.field .telemetryAvailable = c.state.field .telemetryAvailable)
    (hleaves : c'.cerboLeaves = c.cerboLeaves) : Prepared c' :=
  ⟨hflags ▸ h.flags, fun l hl => h.numbers l (hleaves ▸ hl)⟩

/-- A reduced client has its flags. -/
theorem of_overlaid (h : ∀ l ∈ c.cerboLeaves, (atoi l.inst).isSome = true) (hov : Overlaid c c') :
    Prepared c' := by
  refine ⟨hov.present, fun l hl => h l ?_⟩
  rw [hov.frame] at hl
  exact hl

theorem bannersOnly (h : Prepared c) (hb : BannersOnly c c') : Prepared c' := by
  obtain ⟨l, slots, seen, alarms, rfl⟩ := hb
  exact h.of_eq (State.set_field_ne _ (by decide) _) rfl

end Prepared

/-! ## The handler -/

/-- The instance of an accepted message is a number. -/
theorem atoi_of_handled {c c' : Client} {portal kindName inst : String} {rest : List String}
    {payload : Payload} {now : Time}
    (h : c.handleCerboDevice ("N" :: portal :: kindName :: inst :: rest) payload now =
      some (c', true)) : (atoi inst).isSome = true := by
  simp only [handleCerboDevice] at h
  cases hk : Kind.ofName? kindName with
  | none =>
    rw [hk] at h
    cases h
  | some kind =>
    rw [hk] at h
    dsimp only at h
    by_cases hguard : (c.portalID ≠ "" ∧ portal ≠ c.portalID) ∨ (atoi inst).isNone = true
    · rw [if_pos hguard] at h
      cases h
    · cases ha : atoi inst with
      | none => exact absurd (Or.inr (by rw [ha]; rfl)) hguard
      | some n => rfl

/-- An accepted device message: the instance it removes, or the leaf it writes. -/
theorem handled_cases {c c' : Client} {parts : List String} {payload : Payload} {now : Time}
    (h : c.handleCerboDevice parts payload now = some (c', true)) :
    ∃ portal kind inst rest, parts = "N" :: portal :: Kind.name kind :: inst :: rest ∧
      (atoi inst).isSome = true ∧
      ((payload = .empty ∧ c'.cerboLeaves = c.cerboLeaves.eraseDevice kind inst) ∨
        ∃ v, payload ≠ .empty ∧ c'.cerboLeaves =
          c.cerboLeaves.insert ⟨kind, inst, topicText rest⟩ v) := by
  obtain ⟨c'', changed, h', hcases⟩ := c.handleCerboDevice_spec parts payload now
  obtain ⟨rfl, rfl⟩ := Prod.mk.inj (Option.some.inj (h'.symm.trans h))
  rcases hcases with ⟨hfalse, -⟩ | ⟨-, c₁, hst, hov⟩
  · cases hfalse
  · obtain ⟨portal, kindName, kind, inst, rest, rfl, hkind, -, hleaves⟩ := hst.leaves
    have hcache : c''.cerboLeaves = c₁.cerboLeaves := by rw [hov.frame]
    refine ⟨portal, kind, inst, rest, by rw [Kind.name_of_ofName? hkind], atoi_of_handled h, ?_⟩
    rcases hleaves with ⟨hempty, hl⟩ | ⟨v, -, hv, hl⟩
    · exact Or.inl ⟨hempty, hcache.trans hl⟩
    · refine Or.inr ⟨_, fun hempty => ?_, hcache.trans hl⟩
      rw [hempty] at hv
      cases hv

/-- The handler keeps a client prepared. -/
theorem Prepared.handled {c c' : Client} (h : Prepared c) {parts : List String} {payload : Payload}
    {now : Time} {changed : Bool}
    (hc : c.handleCerboDevice parts payload now = some (c', changed)) : Prepared c' := by
  obtain ⟨c'', changed', h', hcases⟩ := c.handleCerboDevice_spec parts payload now
  obtain ⟨rfl, rfl⟩ := Prod.mk.inj (Option.some.inj (h'.symm.trans hc))
  rcases hcases with ⟨-, rfl | rfl⟩ | ⟨rfl, c₁, -, hov⟩
  · exact h
  · rw [h.initCerboMaps]
    exact h
  · refine ⟨hov.present, fun l hl => ?_⟩
    obtain ⟨portal, kind, inst, rest, -, hinst, hleaves⟩ := handled_cases hc
    rcases hleaves with ⟨-, hl'⟩ | ⟨v, -, hl'⟩
    · refine h.numbers l (AList.lookup_isSome.mp ?_)
      have hsome := AList.lookup_isSome.mpr hl
      rw [hl', LeafMap.lookup_eraseDevice] at hsome
      split_ifs at hsome
      · cases hsome
      · exact hsome
    · rw [hl', AList.mem_insert] at hl
      rcases hl with rfl | hl
      · exact hinst
      · exact h.numbers l hl

/-- A native callback keeps a client prepared. -/
theorem Prepared.native {c c' : Client} (h : Prepared c) {r : NativeScalars} {parts : List String}
    {payload : Payload} {retained : Bool} {now : Time}
    (hc : c.commitNative r parts payload retained now = some c') : Prepared c' := by
  unfold commitNative at hc
  split_ifs at hc
  · exact Option.some.inj hc ▸ h
  · cases hu : decodePlatformNotification r parts payload with
    | none =>
      rw [hu] at hc
      exact Option.some.inj hc ▸ h
    | some u =>
      rw [hu] at hc
      exact Option.some.inj hc ▸ h.bannersOnly (c.commitPlatform_frame r u)
  · exact Option.some.inj hc ▸ h.bannersOnly (c.commitAlarm_frame r parts payload)
  · obtain ⟨⟨c₁, changed⟩, hc₁, hc'⟩ := Option.bind_eq_some_iff.mp hc
    obtain rfl := Option.some.inj hc'
    have h₁ := h.handled hc₁
    split_ifs
    · exact h₁.of_eq rfl rfl
    · exact h₁.of_eq rfl rfl

theorem Prepared.applyCerboMessage {c c' : Client} (h : Prepared c) {r : NativeScalars}
    {parts : List String} {payload : Payload} {retained : Bool} {generation session : ℕ}
    {now : Time}
    (hc : c.applyCerboMessage r parts payload retained generation session now = some c') :
    Prepared c' := by
  have hportal : Prepared (c.acceptPortal (parts.getD 1 "") generation session).1 := by
    unfold acceptPortal
    split_ifs
    · exact h
    · exact h
    · exact h.of_eq rfl rfl
  unfold Client.applyCerboMessage at hc
  dsimp only at hc
  split_ifs at hc
  · exact Option.some.inj hc ▸ h
  · exact Option.some.inj hc ▸ h
  · exact Option.some.inj hc ▸ hportal
  · exact hportal.native hc

/-- A controller callback keeps a client prepared: a merge ends with a reduction, and the rest of a
commit leaves the flags alone. -/
theorem Prepared.applyControllerMessage {c c' : Client} (h : Prepared c) {payload : Payload}
    {retained override : Bool} {session generation : ℕ} {now : Time}
    (hc : c.applyControllerMessage payload retained session generation override now = some c') :
    Prepared c' := by
  rcases applyControllerMessage_cases hc with rfl | ⟨data, c₁, -, -, hc₁, rfl⟩
  · exact h
  · refine Prepared.of_eq (c := c₁) ?_ rfl rfl
    have hleaves : c₁.cerboLeaves = c.cerboLeaves := by rw [commitController_frame hc₁]
    refine ⟨?_, fun l hl => h.numbers l (hleaves ▸ hl)⟩
    unfold commitController at hc₁
    split_ifs at hc₁
    · obtain rfl := Option.some.inj hc₁
      rw [(c.observeControllerCommands_spec data retained now).field _ (by decide)]
      exact h.flags
    · obtain ⟨c₂, hmerge, hfin⟩ := Option.bind_eq_some_iff.mp hc₁
      obtain rfl := Option.some.inj hfin
      obtain ⟨st₁, st₂, hm⟩ := merged_of_eq_some _ hmerge
      rw [(c₂.finishState_spec data retained now).field _ (by decide)]
      exact hm.overlaid.present

/-- A callback keeps a client prepared. -/
theorem Prepared.deliver {c c' : Client} (h : Prepared c) {r : NativeScalars} {session : ℕ}
    {retained : Bool} {m : Message} {now : Time}
    (hc : c.deliver r session retained m now = some c') : Prepared c' := by
  cases m with
  | native parts payload =>
    simp only [Client.deliver] at hc
    split_ifs at hc
    · exact h.applyCerboMessage hc
    · exact Option.some.inj hc ▸ h
  | state payload =>
    simp only [Client.deliver] at hc
    split_ifs at hc
    · exact h.applyControllerMessage hc
    · exact Option.some.inj hc ▸ h
  | override payload =>
    simp only [Client.deliver] at hc
    split_ifs at hc
    · exact h.applyControllerMessage hc
    · exact Option.some.inj hc ▸ h
  | notification payload =>
    simp only [Client.deliver] at hc
    split_ifs at hc
    · exact Option.some.inj hc ▸ h.bannersOnly (c.applyNotificationMessage_frame payload _ _)
    · exact Option.some.inj hc ▸ h
  | portal p =>
    obtain rfl := Option.some.inj hc
    unfold applyPortalMessage acceptPortal
    split_ifs <;> first | exact h | exact h.of_eq rfl rfl
  | camera p =>
    obtain rfl := Option.some.inj hc
    exact h.of_eq (State.set_field_ne _ (by decide) _) rfl

/-- Expiry keeps a client prepared. -/
theorem Prepared.expire {c c' : Client} (h : Prepared c) {now : Time}
    (hc : c.expireOptionalTelemetry now = some c') : Prepared c' := by
  unfold expireOptionalTelemetry at hc
  rw [h.initCerboMaps] at hc
  dsimp only at hc
  cases hseen : c.controllerLastSeen with
  | none =>
    rw [hseen] at hc
    exact Option.some.inj hc ▸ h
  | some seen =>
    rw [hseen] at hc
    dsimp only at hc
    split_ifs at hc
    · obtain ⟨st₁, h₁, hc⟩ := Option.bind_eq_some_iff.mp hc
      obtain ⟨st₂, h₂, hc⟩ := Option.bind_eq_some_iff.mp hc
      obtain rfl := Option.some.inj hc
      obtain ⟨st₃, h₃, hs⟩ := applyControllerSnapshot_spec st₁ []
      obtain rfl := Option.some.inj (h₃.symm.trans h₂)
      refine ⟨?_, h.numbers⟩
      show (st₃.field .telemetryAvailable).isSome = true
      rw [hs.frame _ (by decide)]
      unfold resetESSFlag at h₁
      split_ifs at h₁
      · exact Option.some.inj h₁ ▸ h.flags
      · obtain ⟨st', hst', hpres, -⟩ := State.setAvailable_spec h.flags .essMode false
        obtain rfl := Option.some.inj (hst'.symm.trans h₁)
        exact hpres
    · exact Option.some.inj hc ▸ h

/-- A lost connection leaves an empty cache and cleared flags. -/
theorem prepared_of_invalidateState {c c' : Client} (hc : c.invalidateState = some c') :
    Prepared c' := by
  obtain ⟨-, hpres, -⟩ := c.initCerboMaps_spec
  obtain ⟨st₁, h₁, hs⟩ := applyControllerSnapshot_spec c.initCerboMaps.state []
  have hpres₁ : (st₁.field .telemetryAvailable).isSome := by
    rw [hs.frame _ (by decide)]
    exact hpres
  obtain ⟨st₂, h₂, hcl⟩ := State.clearAll_spec false directFields (by decide) hpres₁
  rw [invalidateState, Option.bind_eq_bind, h₁, Option.bind_some, h₂] at hc
  obtain rfl := Option.some.inj hc
  exact .of_empty hcl.present rfl

/-- An emptied cache is prepared once it is reduced. -/
theorem prepared_of_subscribeOverlay {c c' : Client} (hc : c.subscribeOverlay = some c') :
    Prepared c' := by
  obtain ⟨c₂, h₂, hov⟩ := Client.applyCerboOverlays_spec { c with cerboLeaves := ∅ }
  obtain rfl := Option.some.inj (h₂.symm.trans hc)
  exact .of_overlaid (fun l hl => absurd hl (AList.notMem_empty l)) hov

theorem Prepared.startKeepalive {c : Client} (h : Prepared c) (sent : Bool) :
    Prepared (c.startKeepalive sent) := by
  unfold Client.startKeepalive publishKeepalive
  split_ifs <;> exact h.of_eq rfl rfl

/-- `Subscribe` keeps a client prepared. -/
theorem Prepared.subscribe {c : Client} (h : Prepared c) {o : SubscribeOutcome}
    {res : Client × Bool} (hc : c.subscribe o = some res) : Prepared res.1 := by
  unfold Client.subscribe at hc
  dsimp only at hc
  split_ifs at hc
  · obtain rfl := Option.some.inj hc
    exact h.of_eq rfl rfl
  · obtain ⟨c₁, h₁, hc⟩ := Option.bind_eq_some_iff.mp hc
    obtain rfl := Option.some.inj hc
    exact (prepared_of_subscribeOverlay h₁).startKeepalive o.sent
  · obtain ⟨c₁, h₁, hc⟩ := Option.bind_eq_some_iff.mp hc
    obtain rfl := Option.some.inj hc
    exact prepared_of_subscribeOverlay h₁

end Client

/-! ## Runs -/

namespace Lan

/-- **Step.** Every event keeps the client prepared. -/
theorem prepared_step {r : NativeScalars} {s s' : Lan} {e : LanEvent} (h : s.client.Prepared)
    (hs : s.step r e = some s') : s'.client.Prepared := by
  cases e with
  | deliver session retained m =>
    rw [step] at hs
    by_cases hmem : session ∈ s.bound
    · rw [if_pos hmem] at hs
      obtain ⟨c', hc', rfl⟩ := Option.map_eq_some_iff.mp hs
      exact h.deliver hc'
    · rw [if_neg hmem] at hs
      cases hs
  | tick ms => exact Option.some.inj hs ▸ h
  | expire =>
    obtain ⟨c', hc', rfl⟩ := Option.map_eq_some_iff.mp hs
    exact h.expire hc'
  | opened => exact Option.some.inj hs ▸ h.of_eq rfl rfl
  | lost =>
    obtain ⟨c', hc', rfl⟩ := Option.map_eq_some_iff.mp hs
    exact Client.prepared_of_invalidateState hc'
  | subscribe o =>
    rw [step] at hs
    by_cases hsub : s.subscribed = true
    · rw [if_pos hsub] at hs
      cases hs
    · rw [if_neg hsub] at hs
      obtain ⟨res, hres, rfl⟩ := Option.map_eq_some_iff.mp hs
      have hprep := h.subscribe hres
      split_ifs <;> exact hprep

/-- **Run.** Every reachable client is prepared. -/
theorem prepared_of_reachable {r : NativeScalars} {s : Lan}
    (h : Transition.Reachable (step r) (fun _ _ => True) Init s) : s.client.Prepared :=
  h.invariant
    (fun s ⟨cfg, hc, _⟩ => hc ▸ .of_empty (by simp [newClient, newState]) rfl)
    fun _ _ _ hprep _ hs => prepared_step hprep hs

/-- **A native device message changes what it names.** On LAN the handler always returns; a rejected
message changes nothing at all, an accepted reading changes the cache at the leaf of its topic only,
and an accepted tombstone removes the leaves of its instance, which are those the prefix scan finds.
-/
theorem handleCerboDevice_frame {r : NativeScalars} {s : Lan}
    (h : Transition.Reachable (step r) (fun _ _ => True) Init s) (parts : List String)
    (payload : Payload) (now : Time) :
    ∃ c' changed, s.client.handleCerboDevice parts payload now = some (c', changed) ∧
      (changed = false → c' = s.client) ∧
      (changed = true → ∃ portal kind inst rest,
        parts = "N" :: portal :: Kind.name kind :: inst :: rest ∧
        (payload ≠ .empty → ∀ l, l ≠ ⟨kind, inst, topicText rest⟩ →
          c'.cerboLeaves.lookup l = s.client.cerboLeaves.lookup l) ∧
        (payload = .empty →
          (∀ l, c'.cerboLeaves.lookup l = if l.kind = kind ∧ l.inst = inst then none
            else s.client.cerboLeaves.lookup l) ∧
          ∀ l ∈ s.client.cerboLeaves, hasPrefix l.key (inst ++ "/") = true ↔ l.inst = inst)) := by
  have hprep := prepared_of_reachable h
  obtain ⟨c', changed, hc, hcases⟩ := s.client.handleCerboDevice_spec parts payload now
  refine ⟨c', changed, hc, fun hfalse => ?_, fun htrue => ?_⟩
  · rcases hcases with ⟨-, rfl | rfl⟩ | ⟨htrue, -⟩
    · rfl
    · exact hprep.initCerboMaps
    · rw [hfalse] at htrue
      cases htrue
  · obtain rfl := htrue
    obtain ⟨portal, kind, inst, rest, hparts, hinst, hleaves⟩ := Client.handled_cases hc
    refine ⟨portal, kind, inst, rest, hparts, fun hne l hl => ?_, fun hempty => ⟨fun l => ?_,
      fun l hl => Leaf.hasPrefix_key_iff (hprep.numbers l hl) hinst⟩⟩
    · rcases hleaves with ⟨hempty, -⟩ | ⟨v, -, hl'⟩
      · exact absurd hempty hne
      · rw [hl', AList.lookup_insert_ne hl]
    · rcases hleaves with ⟨-, hl'⟩ | ⟨v, hne, -⟩
      · rw [hl', LeafMap.lookup_eraseDevice]
      · exact absurd hempty hne

/-- A reading of the state of charge. -/
def reading : Payload := .json (.obj [("value", .num (.ofInt 50))])

/-- The tombstone of battery 1 leaves battery 12 alone. -/
theorem handleCerboDevice_frame_removed : ∃ s c',
    Transition.Reachable (step noScalars) (fun _ _ => True) Init s ∧
      s.client.handleCerboDevice ["N", "c0", "battery", "1"] .empty 6000 = some (c', true) ∧
      c'.cerboLeaves.lookup ⟨.battery, "1", "Soc"⟩ = none ∧
      (c'.cerboLeaves.lookup ⟨.battery, "12", "Soc"⟩).isSome = true := by
  obtain ⟨s, hs, hp⟩ := Transition.Reachable.exists_of_run (step noScalars) (fun _ _ => True)
    [.opened, .subscribe ⟨true, true⟩, .deliver 1 false (.native ["N", "c0", "battery", "1", "Soc"]
      reading), .deliver 1 false (.native ["N", "c0", "battery", "12", "Soc"] reading)]
    (fun s => (s.client.cerboLeaves.lookup ⟨.battery, "12", "Soc"⟩).isSome &&
      (s.client.handleCerboDevice ["N", "c0", "battery", "1"] .empty 6000).any Prod.snd)
    init_configured (by decide +kernel) (by decide +kernel)
  obtain ⟨hold, hhandled⟩ := Bool.and_eq_true_iff.mp hp
  obtain ⟨c', changed, hc, -, hspec⟩ :=
    handleCerboDevice_frame hs ["N", "c0", "battery", "1"] .empty 6000
  rw [hc] at hhandled
  obtain rfl : changed = true := hhandled
  obtain ⟨portal, kind, inst, rest, hparts, -, hremoved⟩ := hspec rfl
  obtain ⟨-, hparts⟩ := List.cons.inj hparts
  obtain ⟨-, hparts⟩ := List.cons.inj hparts
  obtain ⟨hkind, hparts⟩ := List.cons.inj hparts
  obtain ⟨rfl, -⟩ := List.cons.inj hparts
  obtain rfl : kind = .battery := by cases kind <;> first | rfl | exact absurd hkind (by decide)
  have hlookup := (hremoved rfl).1
  refine ⟨s, c', hs, hc, ?_, ?_⟩
  · rw [hlookup, if_pos ⟨rfl, rfl⟩]
  · rw [hlookup, if_neg (by decide)]
    exact hold

end Lan

end Dashboard
