import InverterDashboard.Lan.Ownership
import InverterDashboard.Mqtt.Samples

set_option relaxedAutoImplicit false
set_option autoImplicit false

/-!
# What null reports claim

A null report says that a reading is unavailable. `handleCerboDevice` puts a zero in its place for
one reduction and claims every member that is output then, so that no frame of the controller can
show a value for it. Every other leaf is null during such a probe. A member that needs several
leaves at once is therefore claimed only if one of the leaves alone would do, or if an earlier
report claimed it.

## Main definitions

* `Dashboard.NullReport`, `Client.reportAll` — null reports, and a run of them.
* `Dashboard.Heard` — a leaf is reported while its device is enabled.
* `Dashboard.Claimed` — what a run claims.
* `Dashboard.Unclaimed` — the members that it should have claimed.
* `Dashboard.Withheld` — a claimed member, which no frame shows a value for.

## Main results

* `Dashboard.reportAll_spec` — the cache and the claims after a run.
* `Dashboard.unclaimed_iff` — what the reducer would output but a run does not claim.
* `Dashboard.withheld_iff` — when a run withholds every member that zeros would make known.
-/

namespace Dashboard

open Go

/-! ## Runs of null reports -/

/-- A null report of a leaf: a message that is not rejected, with the value null. -/
structure NullReport where
  kind : Kind
  inst : String
  rest : List String
  payload : Payload
  now : Time
  inst_number : (atoi inst).isSome = true
  rest_ne_nil : rest ≠ []
  null : parseCerboPayload payload = some .nil

/-- The leaf of a report. -/
def NullReport.leaf (r : NullReport) : Leaf := ⟨r.kind, r.inst, topicText r.rest⟩

/-- The topic levels of a report. -/
def NullReport.parts (r : NullReport) (portal : String) : List String :=
  "N" :: portal :: r.kind.name :: r.inst :: r.rest

theorem Kind.ofName?_name (k : Kind) : Kind.ofName? k.name = some k := by
  cases k <;> decide

namespace Client

/-- A null report is handled. -/
def report (c : Client) (portal : String) (r : NullReport) : Option Client :=
  (c.handleCerboDevice (r.parts portal) r.payload r.now).map Prod.fst

/-- Null reports are handled one by one. -/
def reportAll (c : Client) (portal : String) (rs : List NullReport) : Option Client :=
  rs.foldlM (fun c r => c.report portal r) c

/-- A null report claims what its probe outputs and is reduced. -/
theorem report_spec (c : Client) {portal : String} (r : NullReport)
    (hportal : c.portalID ≠ "" → portal = c.portalID) :
    ∃ c', c.report portal r = some c' ∧ Overlaid { c with
      state := c.initCerboMaps.state
      cerboOwned := c.cerboOwned.claimOutputs (c.cerboLeaves.insert r.leaf (.float64 0)) c.options
      cerboLeaves := c.cerboLeaves.insert r.leaf .nil
      nativeLastSeen := some r.now } c' := by
  obtain ⟨c', hc', hov⟩ := applyCerboOverlays_spec { c with
      state := c.initCerboMaps.state
      cerboOwned := c.cerboOwned.claimOutputs (c.cerboLeaves.insert r.leaf (.float64 0)) c.options
      cerboLeaves := c.cerboLeaves.insert r.leaf .nil
      nativeLastSeen := some r.now }
  refine ⟨c', ?_, hov⟩
  have hguard : ¬((c.portalID ≠ "" ∧ portal ≠ c.portalID) ∨ (atoi r.inst).isNone = true) := by
    rintro (⟨hne, hp⟩ | hnone)
    · exact hp (hportal hne)
    · have hnumber := r.inst_number
      rw [Option.isNone_iff_eq_none.mp hnone] at hnumber
      cases hnumber
  have hpayload : r.payload ≠ .empty := by
    intro he
    have hnull := r.null
    rw [he] at hnull
    cases hnull
  have hvalue : normaliseConnected (topicText r.rest) .nil = .nil := by
    unfold normaliseConnected
    split_ifs <;> rfl
  have hleaf : c.initCerboMaps.handleLeaf r.kind r.inst r.rest r.payload r.now =
      (c.initCerboMaps.storeLeaf r.leaf .nil r.now).map fun c => (c, true) := by
    unfold handleLeaf
    rw [r.null]
    dsimp only
    rw [hvalue, if_pos ⟨r.rest_ne_nil, rfl⟩]
    rfl
  have hinit := c.initCerboMaps_spec.1
  have hstore : c.initCerboMaps.storeLeaf r.leaf .nil r.now = some c' := by
    rw [← hc', hinit]
    rfl
  unfold report NullReport.parts handleCerboDevice
  simp only [Kind.ofName?_name, if_neg hguard, if_neg hpayload, hleaf, hstore, Option.map_some]

end Client

/-! ## What a run claims -/

/-- What a run of null reports claims: the outputs of the probe of a report, and those of the
reduction behind it. -/
def Claimed (o : CerboOptions) (ls : List Leaf) (f : Field) : Prop :=
  ∃ p l, p ++ [l] <+: ls ∧
    ((cerboOverlay (probe p l) o).outputs f ∨ (cerboOverlay (nulls (p ++ [l])) o).outputs f)

theorem nulls_concat (ls : List Leaf) (l : Leaf) :
    nulls (ls ++ [l]) = (nulls ls).insert l .nil := by
  rw [nulls, List.foldl_append]
  rfl

/-- No reports claim nothing. -/
theorem not_claimed_nil (o : CerboOptions) (f : Field) : ¬Claimed o [] f := by
  rintro ⟨p, l, hp, -⟩
  simp at hp

/-- One more report claims the outputs of its probe and of its reduction. -/
theorem claimed_concat_iff (o : CerboOptions) (ls : List Leaf) (l : Leaf) (f : Field) :
    Claimed o (ls ++ [l]) f ↔ Claimed o ls f ∨ (cerboOverlay (probe ls l) o).outputs f ∨
      (cerboOverlay (nulls (ls ++ [l])) o).outputs f := by
  unfold Claimed
  constructor
  · rintro ⟨p, m, hp, h⟩
    rcases List.prefix_concat_iff.mp hp with heq | hp
    · obtain ⟨rfl, hm⟩ := List.append_inj' heq rfl
      obtain rfl := List.singleton_inj.mp hm
      exact Or.inr h
    · exact Or.inl ⟨p, m, hp, h⟩
  · rintro (⟨p, m, hp, h⟩ | h)
    · exact ⟨p, m, hp.trans (List.prefix_append ls [l]), h⟩
    · exact ⟨ls, l, List.prefix_rfl, h⟩

/-- The client after null reports of the leaves, on an empty cache. -/
structure Reported (c : Client) (ls : List Leaf) (c' : Client) : Prop where
  leaves : c'.cerboLeaves = nulls ls
  options : c'.options = c.options
  portal : c'.portalID = c.portalID
  kept : ∀ f, c.cerboOwned.has f = true ∨ Claimed c.options ls f → c'.cerboOwned.has f = true
  only : ∀ f, f ≠ .essMode → c'.cerboOwned.has f = true →
    c.cerboOwned.has f = true ∨ Claimed c.options ls f

/-- Only the ESS mode is claimed for a leaf alone. -/
theorem Client.ownedWithHub4_of_ne (c : Client) {f : Field} (hf : f ≠ .essMode) :
    c.ownedWithHub4.has f = c.cerboOwned.has f := by
  unfold Client.ownedWithHub4
  split_ifs
  · simp [OwnedFields.claim, hf]
  · rfl

theorem Client.ownedWithHub4_of_owned (c : Client) {f : Field} (hf : c.cerboOwned.has f = true) :
    c.ownedWithHub4.has f = true := by
  unfold Client.ownedWithHub4
  split_ifs
  · simp [OwnedFields.claim, hf]
  · exact hf

/-- **A run of null reports** never panics, leaves nulls in the cache and claims what its probes
and reductions output.

**Proof sketch.** Induction on the reports, the last one split off: its probe is a zero on top of
the nulls before it. -/
theorem reportAll_spec (c : Client) {portal : String} (rs : List NullReport)
    (hempty : c.cerboLeaves = ∅) (hportal : c.portalID ≠ "" → portal = c.portalID) :
    ∃ c', c.reportAll portal rs = some c' ∧ Reported c (rs.map NullReport.leaf) c' := by
  induction rs using List.reverseRecOn with
  | nil =>
    refine ⟨c, rfl, hempty, rfl, rfl, fun f hf => ?_, fun f _ hf => Or.inl hf⟩
    exact hf.resolve_right (not_claimed_nil c.options f)
  | append_singleton rs r ih =>
    obtain ⟨c₁, hrun, h₁⟩ := ih
    obtain ⟨c', hc', hov⟩ := c₁.report_spec r (h₁.portal ▸ hportal)
    refine ⟨c', ?_, ?_⟩
    · rw [Client.reportAll, List.foldlM_append]
      show (c.reportAll portal rs).bind _ = _
      rw [hrun]
      simpa using hc'
    · have hleaves : c₁.cerboLeaves.insert r.leaf .nil =
          nulls (rs.map NullReport.leaf ++ [r.leaf]) := by rw [h₁.leaves, nulls_concat]
      have hprobe : c₁.cerboLeaves.insert r.leaf (.float64 0) =
          probe (rs.map NullReport.leaf) r.leaf := by rw [h₁.leaves, probe]
      have hmid : ∀ f, (c₁.cerboOwned.claimOutputs (c₁.cerboLeaves.insert r.leaf (.float64 0))
          c₁.options).has f = true ↔ c₁.cerboOwned.has f = true ∨
            (cerboOverlay (probe (rs.map NullReport.leaf) r.leaf) c.options).outputs f := by
        intro f
        rw [hprobe, h₁.options]
        exact Bool.or_eq_true_iff
      have hreduced : ∀ f, ((cerboOverlay (c₁.cerboLeaves.insert r.leaf .nil)
          c₁.options).val f).isSome = true ↔
          (cerboOverlay (nulls (rs.map NullReport.leaf ++ [r.leaf])) c.options).outputs f := by
        intro f
        rw [hleaves, h₁.options]
        rfl
      rw [List.map_append]
      refine ⟨by rw [hov.frame]; exact hleaves, by rw [hov.frame]; exact h₁.options,
        by rw [hov.frame]; exact h₁.portal, fun f hf => ?_, fun f hne hf => ?_⟩
      · rw [hov.owned, Bool.or_eq_true]
        have hold : c₁.cerboOwned.has f = true ∨ (cerboOverlay (probe (rs.map NullReport.leaf)
            r.leaf) c.options).outputs f ∨ (cerboOverlay (nulls (rs.map NullReport.leaf ++
              [r.leaf])) c.options).outputs f := by
          rcases hf with hf | hf
          · exact Or.inl (h₁.kept f (Or.inl hf))
          · exact ((claimed_concat_iff _ _ _ f).mp hf).imp_left fun h => h₁.kept f (Or.inr h)
        rcases hold with h | h | h
        · exact Or.inl (Client.ownedWithHub4_of_owned _ ((hmid f).mpr (Or.inl h)))
        · exact Or.inl (Client.ownedWithHub4_of_owned _ ((hmid f).mpr (Or.inr h)))
        · exact Or.inr ((hreduced f).mpr h)
      · rw [hov.owned, Bool.or_eq_true, Client.ownedWithHub4_of_ne _ hne] at hf
        rw [List.map_singleton, claimed_concat_iff]
        rcases hf with hf | hf
        · rcases (hmid f).mp hf with hf | hf
          · exact (h₁.only f hne hf).imp_right Or.inl
          · exact Or.inr (Or.inr (Or.inl hf))
        · exact Or.inr (Or.inr (Or.inr ((hreduced f).mp hf)))

/-! ## Reports that are heard -/

/-- The leaf is reported behind `p`, while its device is enabled. -/
def Heard (ls p : List Leaf) (l : Leaf) : Prop := p ++ [l] <+: ls ∧ Answers (p ++ [l]) l

theorem heard_concat_iff {ls p : List Leaf} {a l : Leaf} :
    Heard (ls ++ [a]) p l ↔ Heard ls p l ∨ p = ls ∧ l = a ∧ Answers (ls ++ [a]) a := by
  unfold Heard
  constructor
  · rintro ⟨hp, hans⟩
    rcases List.prefix_concat_iff.mp hp with heq | hp
    · obtain ⟨rfl, hl⟩ := List.append_inj' heq rfl
      obtain rfl := List.singleton_inj.mp hl
      exact Or.inr ⟨rfl, rfl, hans⟩
    · exact Or.inl ⟨hp, hans⟩
  · rintro (⟨hp, hans⟩ | ⟨rfl, rfl, hans⟩)
    · exact ⟨hp.trans (List.prefix_append ls [a]), hans⟩
    · exact ⟨List.prefix_rfl, hans⟩

/-- An answer was given before the device could be disabled. -/
theorem exists_heard_of_answers {ls : List Leaf} {l : Leaf} (h : Answers ls l) :
    ∃ p, Heard ls p l := by
  induction ls using List.reverseRecOn with
  | nil => exact absurd h.1 List.not_mem_nil
  | append_singleton ls a ih =>
    by_cases hl : l ∈ ls
    · obtain ⟨p, hp⟩ := ih ⟨hl, fun hconn => h.2 (List.mem_append_left _ hconn)⟩
      exact ⟨p, heard_concat_iff.mpr (Or.inl hp)⟩
    · obtain rfl : l = a :=
        List.mem_singleton.mp ((List.mem_append.mp h.1).resolve_left hl)
      exact ⟨ls, heard_concat_iff.mpr (Or.inr ⟨rfl, rfl, h⟩)⟩

/-- What answers behind a report was heard. -/
theorem Heard.exists_of_answers {ls p : List Leaf} {l m : Leaf} (h : Heard ls p l)
    (hm : Answers (p ++ [l]) m) : ∃ p', Heard ls p' m := by
  obtain ⟨p', hp, hans⟩ := exists_heard_of_answers hm
  exact ⟨p', hp.trans h.1, hans⟩

/-- Of the reports of a kind that are heard, the first one finds no other that answers. -/
theorem exists_first_heard {ls : List Leaf} {T : Leaf → Prop} (h : ∃ p l, Heard ls p l ∧ T l) :
    ∃ p l, Heard ls p l ∧ T l ∧ ∀ m, T m → Answers (p ++ [l]) m → m = l := by
  induction ls using List.reverseRecOn with
  | nil =>
    obtain ⟨p, l, ⟨hp, -⟩, -⟩ := h
    simp at hp
  | append_singleton ls a ih =>
    by_cases hold : ∃ p l, Heard ls p l ∧ T l
    · obtain ⟨p, l, hl, hT, hfirst⟩ := ih hold
      exact ⟨p, l, heard_concat_iff.mpr (Or.inl hl), hT, hfirst⟩
    · obtain ⟨p, l, hl, hT⟩ := h
      rcases heard_concat_iff.mp hl with hl | ⟨rfl, rfl, hans⟩
      · exact absurd ⟨p, l, hl, hT⟩ hold
      · refine ⟨p, l, heard_concat_iff.mpr (Or.inr ⟨rfl, rfl, hans⟩), hT, fun m hm hans' => ?_⟩
        by_contra hne
        have hmem : m ∈ p := (List.mem_append.mp hans'.1).resolve_right fun h =>
          hne (List.mem_singleton.mp h)
        obtain ⟨p', hp'⟩ := exists_heard_of_answers
          ⟨hmem, fun hconn => hans'.2 (List.mem_append_left _ hconn)⟩
        exact hold ⟨p', m, hp', hm⟩

/-! ## Members that are claimed -/

section Claims

variable {o : CerboOptions} {ls : List Leaf} {f : Field}
  (hnum : ∀ l ∈ ls, (atoi l.inst).isSome = true)

/-- The output of a probe is claimed. -/
theorem Heard.claimed {p : List Leaf} {l : Leaf} (h : Heard ls p l)
    (hout : Output (probe p l) o f) : Claimed o ls f :=
  ⟨p, l, h.1, Or.inl (outputs_cerboOverlay_iff.mpr hout)⟩

/-- The output of the last reduction is claimed. -/
theorem claimed_of_nulls (hne : ls ≠ []) (hout : Output (nulls ls) o f) : Claimed o ls f := by
  refine ⟨ls.dropLast, ls.getLast hne, ?_, ?_⟩ <;> rw [List.dropLast_append_getLast hne]
  exact Or.inr (outputs_cerboOverlay_iff.mpr hout)

include hnum

theorem Heard.numbers {p : List Leaf} {l : Leaf} (h : Heard ls p l) :
    ∀ m ∈ p ++ [l], (atoi m.inst).isSome = true := fun m hm => hnum m (h.1.subset hm)

/-- The probe of a report that is heard is a sample, and reads its leaf only. -/
theorem Heard.sample {p : List Leaf} {l : Leaf} (h : Heard ls p l) :
    Sample (probe p l) (p ++ [l]) := sample_probe (h.numbers hnum)

theorem Heard.reads_iff {p : List Leaf} {l : Leaf} (h : Heard ls p l) (m : Leaf) :
    (probe p l).Reads m ↔ m = l := by
  rw [reads_probe_iff (h.numbers hnum)]
  exact and_iff_left h.2

/-- A member that one leaf alone makes known is claimed. -/
theorem claimed_of_reads {l : Leaf} (hread : (zeros ls).Reads l)
    (hout : ∀ all ls', Sample all ls' → (∀ m, all.Reads m ↔ m = l) → Output all o f) :
    Claimed o ls f := by
  obtain ⟨p, hp⟩ := exists_heard_of_answers ((reads_zeros_iff hnum l).mp hread)
  exact hp.claimed (hout _ _ (hp.sample hnum) (hp.reads_iff hnum))

/-! ### The grid -/

/-- The grid power of a phase is reported. -/
def GridReport (ph : Phase) (l : Leaf) : Prop := l.kind = .system ∧ l.path = gridPath ph

/-- The power of a phase of a meter is reported. -/
def MeterReport (ph : Phase) (l : Leaf) : Prop := l.kind = .grid ∧ l.path = meterPath ph

omit hnum in
theorem exists_heard_of_gridSeen {ph : Phase} (h : GridSeen ls ph) :
    ∃ p l, Heard ls p l ∧ (GridReport ph l ∨ MeterReport ph l) := by
  rcases h with ⟨i, hi⟩ | ⟨i, hi⟩
  · obtain ⟨p, hp⟩ := exists_heard_of_answers hi
    exact ⟨p, _, hp, Or.inl ⟨rfl, rfl⟩⟩
  · obtain ⟨p, hp⟩ := exists_heard_of_answers hi
    exact ⟨p, _, hp, Or.inr ⟨rfl, rfl⟩⟩

/-- A phase that was reported is probed once with nothing before it. The system comes before the
meters, so its first report counts, and the first report of a meter only without one.

The first device with the leaf decides, so a later probe may find the null of another one. -/
theorem exists_grid_probe {ph : Phase}
    (h : ∃ p l, Heard ls p l ∧ (GridReport ph l ∨ MeterReport ph l)) :
    ∃ p l, Heard ls p l ∧ (gridReading (probe p l) ph).2.isSome = true := by
  by_cases hsys : ∃ p l, Heard ls p l ∧ GridReport ph l
  · obtain ⟨p, ⟨kind, inst, path⟩, hl, ⟨rfl, rfl⟩, hfirst⟩ := exists_first_heard hsys
    refine ⟨p, _, hl, (hl.sample hnum).gridReading_isSome (Or.inl ⟨inst, hl.2⟩) ?_ ?_⟩
    · exact fun i hi => (hl.reads_iff hnum _).mpr (hfirst _ ⟨rfl, rfl⟩ hi)
    · exact fun hno => absurd hl.2 (hno inst)
  · have hmeter : ∃ p l, Heard ls p l ∧ MeterReport ph l := by
      obtain ⟨p, l, hl, hgrid | hmeter⟩ := h
      · exact absurd ⟨p, l, hl, hgrid⟩ hsys
      · exact ⟨p, l, hl, hmeter⟩
    obtain ⟨p, ⟨kind, inst, path⟩, hl, ⟨rfl, rfl⟩, hfirst⟩ := exists_first_heard hmeter
    refine ⟨p, _, hl, (hl.sample hnum).gridReading_isSome (Or.inr ⟨inst, hl.2⟩) ?_ ?_⟩
    · intro i hi
      obtain ⟨p', hp'⟩ := hl.exists_of_answers hi
      exact absurd ⟨p', _, hp', rfl, rfl⟩ hsys
    · exact fun _ i hi => (hl.reads_iff hnum _).mpr (hfirst _ ⟨rfl, rfl⟩ hi)

theorem claimed_of_phase {ph : Phase} (h : PhaseOutput (zeros ls) f ph) : Claimed o ls f := by
  rcases h with ⟨hf, h⟩ | ⟨hf, h⟩ | ⟨hf, h⟩
  · obtain ⟨i, path, hpath, hread⟩ := (consumptionReading_isSome_iff ph).mp h
    exact claimed_of_reads hnum hread fun all ls' _ honly => .grid (.phase ph (Or.inl ⟨hf,
      (consumptionReading_isSome_iff ph).mpr ⟨i, path, hpath, (honly _).mpr rfl⟩⟩))
  · have hseen : GridSeen ls ph := ((sample_zeros hnum).phaseKnown_isSome_iff ph).mp (by
      unfold phaseKnown
      rw [h, Bool.or_true]
      rfl)
    obtain ⟨p, l, hl, hgrid⟩ := exists_grid_probe hnum (exists_heard_of_gridSeen hseen)
    exact hl.claimed (.grid (.phase ph (Or.inr (Or.inl ⟨hf, hgrid⟩))))
  · have hseen : GridSeen ls ph := ((sample_zeros hnum).phaseKnown_isSome_iff ph).mp h
    have hls : ls ≠ [] := by
      rintro rfl
      rcases hseen with ⟨i, hi⟩ | ⟨i, hi⟩ <;> exact absurd hi.1 List.not_mem_nil
    refine claimed_of_nulls hls (.grid (.phase ph (Or.inr (Or.inr ⟨hf, ?_⟩))))
    exact ((sample_nulls hnum).phaseKnown_isSome_iff ph).mpr hseen

theorem claimed_of_grid (h : GridOutput (zeros ls) f) : Claimed o ls f := by
  rcases h with ⟨ph, h⟩ | ⟨hf, h⟩ | ⟨hf, ph, h⟩
  · exact claimed_of_phase hnum h
  · -- A phase that was heard claims the total with its own power; else the meter total counts.
    by_cases hphase : ∃ ph, ∃ p l, Heard ls p l ∧ (GridReport ph l ∨ MeterReport ph l)
    · obtain ⟨ph, hph⟩ := hphase
      obtain ⟨p, l, hl, hgrid⟩ := exists_grid_probe hnum hph
      exact hl.claimed (.grid (.gridTotal hf (Or.inl ⟨ph, hgrid⟩)))
    · rcases h with ⟨ph, h⟩ | ⟨-, h⟩
      · have hseen : GridSeen ls ph := ((sample_zeros hnum).phaseKnown_isSome_iff ph).mp (by
          unfold phaseKnown
          rw [h, Bool.or_true]
          rfl)
        exact absurd ⟨ph, exists_heard_of_gridSeen hseen⟩ hphase
      · obtain ⟨i, hread⟩ := (firstNum_singleton_isSome_iff .grid "Ac/Power").mp h
        obtain ⟨p, hp⟩ := exists_heard_of_answers ((reads_zeros_iff hnum _).mp hread)
        refine hp.claimed (.grid (.gridTotal hf (Or.inr ⟨fun ph => ?_, ?_⟩)))
        · rw [← Bool.not_eq_true, (hp.sample hnum).phaseKnown_isSome_iff]
          intro hseen
          obtain ⟨p', l, hl, hgrid⟩ := exists_heard_of_gridSeen hseen
          exact hphase ⟨ph, p', l, ⟨hl.1.trans hp.1, hl.2⟩, hgrid⟩
        · exact (firstNum_singleton_isSome_iff .grid "Ac/Power").mpr
            ⟨i, (hp.reads_iff hnum _).mpr rfl⟩
  · obtain ⟨i, path, hpath, hread⟩ := (consumptionReading_isSome_iff ph).mp h
    exact claimed_of_reads hnum hread fun all ls' _ honly => .grid (.consumptionTotal hf ⟨ph,
      (consumptionReading_isSome_iff ph).mpr ⟨i, path, hpath, (honly _).mpr rfl⟩⟩)

/-! ### The other parts -/

theorem claimed_of_vebus (h : VebusOutput (zeros ls) f) : Claimed o ls f := by
  rcases h with ⟨hf, h⟩ | ⟨hf, h⟩
  · obtain ⟨i, hread⟩ := (firstNum_singleton_isSome_iff .vebus "Hub4/L1/AcPowerSetpoint").mp h
    exact claimed_of_reads hnum hread fun all ls' _ honly => .vebus (.setpoint hf
      ((firstNum_singleton_isSome_iff .vebus _).mpr ⟨i, (honly _).mpr rfl⟩))
  · obtain ⟨i, hread⟩ := (firstNum_singleton_isSome_iff .vebus "State").mp h
    exact claimed_of_reads hnum hread fun all ls' _ honly => .vebus (.state hf
      ((firstNum_singleton_isSome_iff .vebus _).mpr ⟨i, (honly _).mpr rfl⟩))

/-- The rows of a kind are output over nulls as they are over zeros. -/
theorem claimed_of_rows {kind : Kind} (h : (devices (zeros ls) kind).isEmpty = false)
    (hout : (devices (nulls ls) kind).isEmpty = false → Output (nulls ls) o f) :
    Claimed o ls f := by
  have hans := ((sample_zeros hnum).isEmpty_devices_iff kind).mp h
  have hne : ls ≠ [] := by
    rintro rfl
    obtain ⟨i, path, hi⟩ := hans
    exact absurd hi.1 List.not_mem_nil
  exact claimed_of_nulls hne (hout (((sample_nulls hnum).isEmpty_devices_iff kind).mpr hans))

theorem claimed_of_loads (h : LoadsOutput (zeros ls) f) : Claimed o ls f :=
  claimed_of_rows hnum h.2 fun hrows => .loads ⟨h.1, hrows⟩

theorem claimed_of_soc (hf : f = .batterySOC) (h : (socVoltage (zeros ls)).isSome = true) :
    Claimed o ls f := by
  obtain ⟨i, hread⟩ := (sample_zeros hnum).socVoltage_isSome_iff.mp h
  exact claimed_of_reads hnum hread fun all ls' hs honly => .battery (.soc hf
    (hs.socVoltage_isSome_iff.mpr ⟨i, (honly _).mpr rfl⟩))

theorem claimed_of_pv (hpv : (pvReading (zeros ls)).isSome = true)
    (hout : ∀ all, (pvReading all).isSome = true → Output all o f) : Claimed o ls f := by
  rcases pvReading_isSome_iff.mp hpv with ⟨i, path, hpath, hread⟩ | ⟨i, path, hpath, hread⟩
  · exact claimed_of_reads hnum hread fun all ls' _ honly => hout all
      (pvReading_isSome_iff.mpr (Or.inl ⟨i, path, hpath, (honly _).mpr rfl⟩))
  · exact claimed_of_reads hnum hread fun all ls' _ honly => hout all
      (pvReading_isSome_iff.mpr (Or.inr ⟨i, path, hpath, (honly _).mpr rfl⟩))

theorem claimed_of_water (h : WaterOutput (zeros ls) o f) : Claimed o ls f := by
  have hswitch : (switchReading 0).isSome = true := by decide
  have hmode : (modeReading 0).isSome = true := by decide
  have hz := sample_zeros hnum
  rcases h with ⟨hf, h⟩ | ⟨hf, h⟩ | ⟨hf, h⟩ | ⟨hf, h⟩ | ⟨hf, h⟩
  · exact claimed_of_reads hnum ((configuredNum_isSome_iff .tank _ _).mp h)
      fun all ls' _ honly => .water (.level hf ((configuredNum_isSome_iff .tank _ _).mpr
        ((honly _).mpr rfl)))
  · exact claimed_of_reads hnum ((hz.configuredNum_bind_isSome_iff hswitch .pump _ _).mp h)
      fun all ls' hs honly => .water (.pump hf
        ((hs.configuredNum_bind_isSome_iff hswitch .pump _ _).mpr ((honly _).mpr rfl)))
  · exact claimed_of_reads hnum ((hz.configuredNum_bind_isSome_iff hswitch .pump _ _).mp h)
      fun all ls' hs honly => .water (.valve hf
        ((hs.configuredNum_bind_isSome_iff hswitch .pump _ _).mpr ((honly _).mpr rfl)))
  · exact claimed_of_reads hnum ((hz.configuredNum_bind_isSome_iff hmode .pump _ _).mp h)
      fun all ls' hs honly => .water (.pumpMode hf
        ((hs.configuredNum_bind_isSome_iff hmode .pump _ _).mpr ((honly _).mpr rfl)))
  · exact claimed_of_reads hnum ((hz.configuredNum_bind_isSome_iff hmode .pump _ _).mp h)
      fun all ls' hs honly => .water (.valveMode hf
        ((hs.configuredNum_bind_isSome_iff hmode .pump _ _).mpr ((honly _).mpr rfl)))

theorem claimed_of_ess (h : ESSOutput (zeros ls) f) : Claimed o ls f := by
  obtain ⟨hf, i, hread⟩ := (sample_zeros hnum).essOutput_iff.mp h
  exact claimed_of_reads hnum hread fun all ls' hs honly =>
    .ess (hs.essOutput_iff.mpr ⟨hf, i, (honly _).mpr rfl⟩)

end Claims

/-! ## Members that are missed -/

/-- The only battery. -/
def OnlyBattery (ls : List Leaf) (inst : String) : Prop :=
  ∀ i, (∃ path, Answers ls ⟨.battery, i, path⟩) ↔ i = inst

/-- A report that alone makes a metric of the bank known: that of systemcalc, or that of the only
battery. -/
def BankReport (ls : List Leaf) (name : String) (l : Leaf) : Prop :=
  l.kind = .system ∧ l.path = "Dc/Battery/" ++ name ∨
    l.kind = .battery ∧ l.path = "Dc/0/" ++ name ∧ OnlyBattery ls l.inst

/-- A metric of the bank that no report alone makes known: the selected battery has the leaves for
it, but at no report of one of them it was the only battery. -/
structure BankMissed (ls : List Leaf) (name : String) (known : String → Prop) : Prop where
  selected : ∃ b, BankInstance (Answers ls) ls b ∧ known b
  missed : ∀ p l, Heard ls p l → ¬BankReport (p ++ [l]) name l

/-- The leaves behind the power of a battery. -/
def PowerKnown (ls : List Leaf) (b : String) : Prop :=
  Answers ls ⟨.battery, b, "Dc/0/Power"⟩ ∨
    Answers ls ⟨.battery, b, "Dc/0/Voltage"⟩ ∧ Answers ls ⟨.battery, b, "Dc/0/Current"⟩

/-- A report that alone makes the total of the solar chargers known. -/
def MpptReport (l : Leaf) : Prop :=
  l.kind = .system ∧ l.path = "Dc/Pv/Power" ∨
    l.kind = .solarcharger ∧ (l.path = "Yield/Power" ∨ l.path = "Dc/0/Power")

/-- A total of the solar chargers that no report alone makes known: a charger has a voltage and a
current, and nothing has a power. -/
structure MpptMissed (ls : List Leaf) : Prop where
  known : ∃ i, Answers ls ⟨.solarcharger, i, "Dc/0/Voltage"⟩ ∧
    Answers ls ⟨.solarcharger, i, "Dc/0/Current"⟩
  missed : ∀ p l, Heard ls p l → ¬MpptReport l

/-- A report that alone makes the total of the PV inverters known. -/
def PvReport (l : Leaf) : Prop :=
  l.kind = .system ∧ l.path ∈ systemPVPaths ∨ l.kind = .pvinverter ∧ l.path ∈ acPaths

/-- The members that zeros in the leaves would make known and that null reports do not claim. -/
inductive Unclaimed (ls : List Leaf) (f : Field) : Prop
  | voltage (hf : f = .batteryVoltage ∨ f = .bv)
      (h : BankMissed ls "Voltage" fun b => Answers ls ⟨.battery, b, "Dc/0/Voltage"⟩)
  | current (hf : f = .batteryCurrent ∨ f = .bc)
      (h : BankMissed ls "Current" fun b => Answers ls ⟨.battery, b, "Dc/0/Current"⟩)
  | power (hf : f = .batteryPower ∨ f = .bp) (h : BankMissed ls "Power" (PowerKnown ls))
  | mppt (hf : f = .mpptTotal ∨ f = .pvTotal) (h : MpptMissed ls)
  | solar (hf : f = .solarTotal) (h : MpptMissed ls) (hpv : ∀ p l, Heard ls p l → ¬PvReport l)
  | inventory (hf : f = .discoveredWaterEV ∨ f = .evPresent ∨ f = .evChargerPresent) (h : ls = [])

section Missed

variable {o : CerboOptions} {ls : List Leaf} {f : Field}
  (hnum : ∀ l ∈ ls, (atoi l.inst).isSome = true)

/-- What neither a probe nor a reduction of a prefix makes known is not claimed. -/
theorem not_claimed {r : LeafMap → Prop} (hr : ∀ all, Output all o f → r all)
    (hprobe : ∀ p l, p ++ [l] <+: ls → ¬r (probe p l)) (hnull : ∀ p, p <+: ls → ¬r (nulls p)) :
    ¬Claimed o ls f := by
  rintro ⟨p, l, hp, h | h⟩
  · exact hprobe p l hp (hr _ (outputs_cerboOverlay_iff.mp h))
  · exact hnull _ hp (hr _ (outputs_cerboOverlay_iff.mp h))

include hnum

theorem numbers_of_start {p : List Leaf} (hp : p <+: ls) :
    ∀ l ∈ p, (atoi l.inst).isSome = true := fun l hl => hnum l (hp.subset hl)

/-- What a probe reads was heard, and is the probed leaf. -/
theorem heard_of_reads {p : List Leaf} {l m : Leaf} (hp : p ++ [l] <+: ls)
    (h : (probe p l).Reads m) : m = l ∧ Heard ls p l := by
  obtain ⟨hm, hans⟩ := (reads_probe_iff (numbers_of_start hnum hp) m).mp h
  exact ⟨hm, hp, hans⟩

theorem reads_zeros_eq : (zeros ls).Reads = Answers ls :=
  funext fun l => propext (reads_zeros_iff hnum l)

/-! ### The bank -/

/-- The instance a probe of a battery leaf falls back to is the only battery. -/
theorem bankInstance_probe_iff {p : List Leaf} {inst path : String}
    (h : Heard ls p ⟨.battery, inst, path⟩) :
    BankInstance (probe p ⟨.battery, inst, path⟩).Reads (p ++ [⟨.battery, inst, path⟩]) inst ↔
      OnlyBattery (p ++ [⟨.battery, inst, path⟩]) inst := by
  have hno : ¬∃ i, (probe p ⟨.battery, inst, path⟩).Reads
      ⟨.system, i, "Dc/Battery/Instance"⟩ := by
    rintro ⟨i, hi⟩
    cases (h.reads_iff hnum _).mp hi
  unfold BankInstance OnlyBattery
  simp [hno]

/-- A probe makes a metric of the bank known when its report alone does. -/
theorem bankReading_probe {p : List Leaf} {l : Leaf} (hp : p ++ [l] <+: ls) (name : String) :
    (bankReading (probe p l) name).isSome = true ↔
      Heard ls p l ∧ BankReport (p ++ [l]) name l := by
  rw [(sample_probe (numbers_of_start hnum hp)).bankReading_isSome_iff]
  constructor
  · rintro (⟨i, hread⟩ | ⟨b, hb, hread⟩)
    · obtain ⟨rfl, hheard⟩ := heard_of_reads hnum hp hread
      exact ⟨hheard, Or.inl ⟨rfl, rfl⟩⟩
    · obtain ⟨rfl, hheard⟩ := heard_of_reads hnum hp hread
      exact ⟨hheard, Or.inr ⟨rfl, rfl, (bankInstance_probe_iff hnum hheard).mp hb⟩⟩
  · obtain ⟨kind, inst, path⟩ := l
    rintro ⟨hheard, ⟨rfl, rfl⟩ | ⟨rfl, rfl, honly⟩⟩
    · exact Or.inl ⟨inst, (hheard.reads_iff hnum _).mpr rfl⟩
    · exact Or.inr ⟨inst, (bankInstance_probe_iff hnum hheard).mpr honly,
        (hheard.reads_iff hnum _).mpr rfl⟩

/-- The power of the bank is known from a probe like the other metrics: a probe never has both a
voltage and a current. -/
theorem bankPower_probe {p : List Leaf} {l : Leaf} (hp : p ++ [l] <+: ls) :
    (bankPower (probe p l)).isSome = true ↔ Heard ls p l ∧ BankReport (p ++ [l]) "Power" l := by
  rw [← bankReading_probe hnum hp, (sample_probe (numbers_of_start hnum hp)).bankPower_isSome_iff,
    (sample_probe (numbers_of_start hnum hp)).bankReading_isSome_iff]
  refine or_congr Iff.rfl (exists_congr fun b => and_congr Iff.rfl ?_)
  refine or_iff_left ?_
  rintro ⟨hv, hc⟩
  have heq := (heard_of_reads hnum hp hv).1.trans (heard_of_reads hnum hp hc).1.symm
  simp at heq

omit hnum in
/-- A metric that the bank has over zeros was reported alone, or is missed. -/
theorem exists_bankReport_or_missed {name : String} {known : String → Prop}
    (h : (∃ i, Answers ls ⟨.system, i, "Dc/Battery/" ++ name⟩) ∨
      ∃ b, BankInstance (Answers ls) ls b ∧ known b) :
    (∃ p l, Heard ls p l ∧ BankReport (p ++ [l]) name l) ∨ BankMissed ls name known := by
  by_cases hclaim : ∃ p l, Heard ls p l ∧ BankReport (p ++ [l]) name l
  · exact Or.inl hclaim
  · right
    refine ⟨h.resolve_left ?_, fun p l hl hrep => hclaim ⟨p, l, hl, hrep⟩⟩
    rintro ⟨i, hi⟩
    obtain ⟨p, hp⟩ := exists_heard_of_answers hi
    exact hclaim ⟨p, _, hp, Or.inl ⟨rfl, rfl⟩⟩

theorem bankReading_zeros_iff (name : String) : (bankReading (zeros ls) name).isSome = true ↔
    (∃ i, Answers ls ⟨.system, i, "Dc/Battery/" ++ name⟩) ∨
      ∃ b, BankInstance (Answers ls) ls b ∧ Answers ls ⟨.battery, b, "Dc/0/" ++ name⟩ := by
  rw [(sample_zeros hnum).bankReading_isSome_iff, reads_zeros_eq hnum]

theorem bankPower_zeros_iff : (bankPower (zeros ls)).isSome = true ↔
    (∃ i, Answers ls ⟨.system, i, "Dc/Battery/" ++ "Power"⟩) ∨
      ∃ b, BankInstance (Answers ls) ls b ∧ PowerKnown ls b := by
  rw [(sample_zeros hnum).bankPower_isSome_iff, reads_zeros_eq hnum]
  rfl

/-- The bank is unknown over nulls. -/
theorem bank_nulls (name : String) : ¬(bankReading (nulls ls) name).isSome = true ∧
    ¬(bankPower (nulls ls)).isSome = true := by
  rw [(sample_nulls hnum).bankReading_isSome_iff, (sample_nulls hnum).bankPower_isSome_iff]
  simp [not_reads_nulls hnum]

/-- The metrics of the bank that are claimed or missed. -/
theorem claimed_or_unclaimed_of_battery (h : BatteryOutput (zeros ls) f) :
    Claimed o ls f ∨ Unclaimed ls f := by
  rcases h with ⟨hf, h⟩ | ⟨hf, h⟩ | ⟨hf, h⟩ | ⟨hf, h⟩ | ⟨hf, h⟩
  · exact Or.inl (claimed_of_rows hnum h fun hrows => .battery (.rows hf hrows))
  · exact Or.inl (claimed_of_soc hnum hf h)
  · rcases exists_bankReport_or_missed ((bankReading_zeros_iff hnum "Voltage").mp h) with
      ⟨p, l, hl, hrep⟩ | hmiss
    · exact Or.inl (hl.claimed (.battery (.voltage hf
        ((bankReading_probe hnum hl.1 "Voltage").mpr ⟨hl, hrep⟩))))
    · exact Or.inr (.voltage hf hmiss)
  · rcases exists_bankReport_or_missed ((bankReading_zeros_iff hnum "Current").mp h) with
      ⟨p, l, hl, hrep⟩ | hmiss
    · exact Or.inl (hl.claimed (.battery (.current hf
        ((bankReading_probe hnum hl.1 "Current").mpr ⟨hl, hrep⟩))))
    · exact Or.inr (.current hf hmiss)
  · rcases exists_bankReport_or_missed ((bankPower_zeros_iff hnum).mp h) with
      ⟨p, l, hl, hrep⟩ | hmiss
    · exact Or.inl (hl.claimed (.battery (.power hf
        ((bankPower_probe hnum hl.1).mpr ⟨hl, hrep⟩))))
    · exact Or.inr (.power hf hmiss)

/-! ### The solar totals -/

/-- A probe makes the total of the chargers known when its report alone does. -/
theorem mpptReading_probe {p : List Leaf} {l : Leaf} (hp : p ++ [l] <+: ls) :
    (mpptReading (probe p l)).isSome = true ↔ Heard ls p l ∧ MpptReport l := by
  rw [mpptReading_isSome_iff]
  constructor
  · rintro (⟨i, hread⟩ | ⟨i, hread | hread | ⟨hv, hc⟩⟩)
    · obtain ⟨rfl, hheard⟩ := heard_of_reads hnum hp hread
      exact ⟨hheard, Or.inl ⟨rfl, rfl⟩⟩
    · obtain ⟨rfl, hheard⟩ := heard_of_reads hnum hp hread
      exact ⟨hheard, Or.inr ⟨rfl, Or.inl rfl⟩⟩
    · obtain ⟨rfl, hheard⟩ := heard_of_reads hnum hp hread
      exact ⟨hheard, Or.inr ⟨rfl, Or.inr rfl⟩⟩
    · have heq := (heard_of_reads hnum hp hv).1.trans (heard_of_reads hnum hp hc).1.symm
      simp at heq
  · obtain ⟨kind, inst, path⟩ := l
    rintro ⟨hheard, ⟨rfl, rfl⟩ | ⟨rfl, rfl | rfl⟩⟩
    · exact Or.inl ⟨inst, (hheard.reads_iff hnum _).mpr rfl⟩
    · exact Or.inr ⟨inst, Or.inl ((hheard.reads_iff hnum _).mpr rfl)⟩
    · exact Or.inr ⟨inst, Or.inr (Or.inl ((hheard.reads_iff hnum _).mpr rfl))⟩

/-- A probe makes the total of the PV inverters known when its report alone does. -/
theorem pvReading_probe {p : List Leaf} {l : Leaf} (hp : p ++ [l] <+: ls) :
    (pvReading (probe p l)).isSome = true ↔ Heard ls p l ∧ PvReport l := by
  rw [pvReading_isSome_iff]
  constructor
  · rintro (⟨i, path, hpath, hread⟩ | ⟨i, path, hpath, hread⟩)
    · obtain ⟨rfl, hheard⟩ := heard_of_reads hnum hp hread
      exact ⟨hheard, Or.inl ⟨rfl, hpath⟩⟩
    · obtain ⟨rfl, hheard⟩ := heard_of_reads hnum hp hread
      exact ⟨hheard, Or.inr ⟨rfl, hpath⟩⟩
  · obtain ⟨kind, inst, path⟩ := l
    rintro ⟨hheard, ⟨rfl, hpath⟩ | ⟨rfl, hpath⟩⟩
    · exact Or.inl ⟨inst, path, hpath, (hheard.reads_iff hnum _).mpr rfl⟩
    · exact Or.inr ⟨inst, path, hpath, (hheard.reads_iff hnum _).mpr rfl⟩

/-- The totals are unknown over nulls. -/
theorem solar_nulls : ¬(mpptReading (nulls ls)).isSome = true ∧
    ¬(pvReading (nulls ls)).isSome = true := by
  rw [mpptReading_isSome_iff, pvReading_isSome_iff]
  simp [not_reads_nulls hnum]

/-- A total that the chargers have over zeros was reported alone, or is missed. -/
theorem exists_mpptReport_or_missed (h : (mpptReading (zeros ls)).isSome = true) :
    (∃ p l, Heard ls p l ∧ MpptReport l) ∨ MpptMissed ls := by
  by_cases hclaim : ∃ p l, Heard ls p l ∧ MpptReport l
  · exact Or.inl hclaim
  · have hno : ∀ l, Answers ls l → ¬MpptReport l := by
      intro l hl hrep
      obtain ⟨p, hp⟩ := exists_heard_of_answers hl
      exact hclaim ⟨p, l, hp, hrep⟩
    right
    refine ⟨?_, fun p l hl hrep => hclaim ⟨p, l, hl, hrep⟩⟩
    rw [mpptReading_isSome_iff, reads_zeros_eq hnum] at h
    rcases h with ⟨i, hi⟩ | ⟨i, hi | hi | hi⟩
    · exact absurd (Or.inl ⟨rfl, rfl⟩) (hno _ hi)
    · exact absurd (Or.inr ⟨rfl, Or.inl rfl⟩) (hno _ hi)
    · exact absurd (Or.inr ⟨rfl, Or.inr rfl⟩) (hno _ hi)
    · exact ⟨i, hi⟩

/-- The solar members that are claimed or missed. -/
theorem claimed_or_unclaimed_of_solar (h : SolarOutput (zeros ls) f) :
    Claimed o ls f ∨ Unclaimed ls f := by
  rcases h with ⟨hf, h⟩ | ⟨hf, h⟩ | ⟨hf, h⟩ | ⟨hf, h⟩ | ⟨hf, h⟩
  · exact Or.inl (claimed_of_rows hnum h fun hrows => .solar (.mpptRows hf hrows))
  · exact Or.inl (claimed_of_rows hnum h fun hrows => .solar (.pvRows hf hrows))
  · rcases exists_mpptReport_or_missed hnum h with ⟨p, l, hl, hrep⟩ | hmiss
    · exact Or.inl (hl.claimed (.solar (.mppt hf
        ((mpptReading_probe hnum hl.1).mpr ⟨hl, hrep⟩))))
    · exact Or.inr (.mppt hf hmiss)
  · exact Or.inl (claimed_of_pv hnum h fun all hpv => .solar (.pv hf hpv))
  · by_cases hpv : ∃ p l, Heard ls p l ∧ PvReport l
    · obtain ⟨p, l, hl, hrep⟩ := hpv
      exact Or.inl (hl.claimed (.solar (.total hf (Or.inr
        ((pvReading_probe hnum hl.1).mpr ⟨hl, hrep⟩)))))
    · rcases h with h | h
      · rcases exists_mpptReport_or_missed hnum h with ⟨p, l, hl, hrep⟩ | hmiss
        · exact Or.inl (hl.claimed (.solar (.total hf (Or.inl
            ((mpptReading_probe hnum hl.1).mpr ⟨hl, hrep⟩)))))
        · exact Or.inr (.solar hf hmiss fun p l hl hrep => hpv ⟨p, l, hl, hrep⟩)
      · exact Or.inl (claimed_of_pv hnum h fun all hpv => .solar (.total hf (Or.inr hpv)))

/-! ### The vehicles -/

/-- The members of the vehicles are claimed, unless there was no report at all. -/
theorem claimed_or_unclaimed_of_ev (h : EVOutput (zeros ls) o f) :
    Claimed o ls f ∨ Unclaimed ls f := by
  rcases h with hf | ⟨hf, h⟩ | ⟨hf, h⟩ | ⟨hf, h⟩
  · by_cases hne : ls = []
    · exact Or.inr (.inventory hf hne)
    · exact Or.inl (claimed_of_nulls hne (.ev (.inventory hf)))
  · obtain ⟨l, hleaf, hread⟩ := exists_reads_of_selectEV_acPower h
    exact Or.inl (claimed_of_reads hnum hread fun all ls' hs honly => .ev (.ev hf
      (hs.selectEV_acPower_isSome hleaf honly)))
  · obtain ⟨l, hleaf, hread⟩ := exists_reads_of_selectEV_acPower h
    exact Or.inl (claimed_of_reads hnum hread fun all ls' hs honly => .ev (.charger hf
      (hs.selectEV_acPower_isSome hleaf honly)))
  · rcases h with h | ⟨hneg, h⟩
    · obtain ⟨l, hleaf, hread⟩ := (sample_zeros hnum).exists_reads_of_selectEV_soc h
      exact Or.inl (claimed_of_reads hnum hread fun all ls' hs honly => .ev (.soc hf (Or.inl
        (hs.selectEV_soc_isSome hleaf honly))))
    · obtain ⟨l, hleaf, hread⟩ := (sample_zeros hnum).exists_reads_of_selectEV_soc h
      exact Or.inl (claimed_of_reads hnum hread fun all ls' hs honly => .ev (.soc hf (Or.inr
        ⟨hneg, hs.selectEV_soc_isSome hleaf honly⟩)))

/-! ### All members -/

/-- A member that is missed would be output over zeros. -/
theorem outputs_zeros_of_unclaimed (h : Unclaimed ls f) :
    (cerboOverlay (zeros ls) o).outputs f := by
  have hmppt : MpptMissed ls → (mpptReading (zeros ls)).isSome = true := by
    intro hmiss
    obtain ⟨i, hi⟩ := hmiss.known
    rw [mpptReading_isSome_iff, reads_zeros_eq hnum]
    exact Or.inr ⟨i, Or.inr (Or.inr hi)⟩
  rw [outputs_cerboOverlay_iff]
  rcases h with ⟨hf, h⟩ | ⟨hf, h⟩ | ⟨hf, h⟩ | ⟨hf, h⟩ | ⟨hf, h, -⟩ | ⟨hf, -⟩
  · exact .battery (.voltage hf ((bankReading_zeros_iff hnum "Voltage").mpr (Or.inr h.selected)))
  · exact .battery (.current hf ((bankReading_zeros_iff hnum "Current").mpr (Or.inr h.selected)))
  · exact .battery (.power hf ((bankPower_zeros_iff hnum).mpr (Or.inr h.selected)))
  · exact .solar (.mppt hf (hmppt h))
  · exact .solar (.total hf (Or.inl (hmppt h)))
  · exact .ev (.inventory hf)

/-- A member that is missed is not claimed. -/
theorem not_claimed_of_unclaimed (h : Unclaimed ls f) : ¬Claimed o ls f := by
  rcases h with ⟨hf, h⟩ | ⟨hf, h⟩ | ⟨hf, h⟩ | ⟨hf, h⟩ | ⟨rfl, h, hpv⟩ | ⟨hf, rfl⟩
  · refine not_claimed (fun all hout => hout.bankVoltage hf) (fun p l hp hread => ?_)
      fun p hp => (bank_nulls (numbers_of_start hnum hp) "Voltage").1
    obtain ⟨hl, hrep⟩ := (bankReading_probe hnum hp "Voltage").mp hread
    exact h.missed p l hl hrep
  · refine not_claimed (fun all hout => hout.bankCurrent hf) (fun p l hp hread => ?_)
      fun p hp => (bank_nulls (numbers_of_start hnum hp) "Current").1
    obtain ⟨hl, hrep⟩ := (bankReading_probe hnum hp "Current").mp hread
    exact h.missed p l hl hrep
  · refine not_claimed (fun all hout => hout.bankPower hf) (fun p l hp hread => ?_)
      fun p hp => (bank_nulls (numbers_of_start hnum hp) "Power").2
    obtain ⟨hl, hrep⟩ := (bankPower_probe hnum hp).mp hread
    exact h.missed p l hl hrep
  · refine not_claimed (fun all hout => hout.mppt hf) (fun p l hp hread => ?_)
      fun p hp => (solar_nulls (numbers_of_start hnum hp)).1
    obtain ⟨hl, hrep⟩ := (mpptReading_probe hnum hp).mp hread
    exact h.missed p l hl hrep
  · refine not_claimed (fun all hout => hout.solarTotal) (fun p l hp => ?_)
      fun p hp => not_or.mpr (solar_nulls (numbers_of_start hnum hp))
    rintro (hread | hread)
    · obtain ⟨hl, hrep⟩ := (mpptReading_probe hnum hp).mp hread
      exact h.missed p l hl hrep
    · obtain ⟨hl, hrep⟩ := (pvReading_probe hnum hp).mp hread
      exact hpv p l hl hrep
  · exact not_claimed_nil o f

/-- **What null reports miss**, of all the members that zeros in their leaves would make known. -/
theorem unclaimed_iff : Unclaimed ls f ↔
    (cerboOverlay (zeros ls) o).outputs f ∧ ¬Claimed o ls f := by
  refine ⟨fun h => ⟨outputs_zeros_of_unclaimed hnum h, not_claimed_of_unclaimed hnum h⟩, ?_⟩
  rintro ⟨hout, hno⟩
  rcases outputs_cerboOverlay_iff.mp hout with h | h | h | h | h | h | h | h
  · exact absurd (claimed_of_grid hnum h) hno
  · exact absurd (claimed_of_vebus hnum h) hno
  · exact (claimed_or_unclaimed_of_battery hnum h).resolve_left hno
  · exact (claimed_or_unclaimed_of_solar hnum h).resolve_left hno
  · exact absurd (claimed_of_loads hnum h) hno
  · exact absurd (claimed_of_water hnum h) hno
  · exact (claimed_or_unclaimed_of_ev hnum h).resolve_left hno
  · exact absurd (claimed_of_ess hnum h) hno

end Missed

/-! ## Frames of the controller -/

namespace Client

/-- State frames of the controller are committed one by one. -/
def commitFrames (c : Client) (frames : List (Frame × Bool × Time)) : Option Client :=
  frames.foldlM (fun c e => c.commitState e.1 e.2.1 e.2.2) c

/-- A frame keeps the cache and the claims, and ends in a reduction. -/
theorem commitState_reduced {c c' : Client} {data : Frame} {retained : Bool} {now : Time}
    (h : c.commitState data retained now = some c') :
    c'.overlay = c.overlay ∧ Reduced c c' := by
  obtain ⟨c₂, hmerge, hsame⟩ := commitState_telemetry h
  obtain ⟨st₁, st₂, hm⟩ := merged_of_eq_some _ hmerge
  refine ⟨?_, _, c₂, fun f hf => ?_, hm.overlaid, hsame⟩
  · rw [hsame.overlay, hm.overlaid.overlay_eq]
    rfl
  · exact hf

/-- After a frame every claim is good. -/
theorem commitFrames_owns {c c' : Client} {frames : List (Frame × Bool × Time)}
    (hfin : c.overlay.finite = true) (h : c.commitFrames frames = some c') :
    c'.overlay = c.overlay ∧ (∀ f, c.cerboOwned.has f = true → c'.cerboOwned.has f = true) ∧
      (frames ≠ [] → Owns c') := by
  induction frames using List.reverseRecOn generalizing c' with
  | nil =>
    obtain rfl := Option.some.inj h
    exact ⟨rfl, fun _ hf => hf, fun hne => absurd rfl hne⟩
  | append_singleton frames e ih =>
    rw [commitFrames, List.foldlM_append] at h
    obtain ⟨c₁, hc₁, hlast⟩ := Option.bind_eq_some_iff.mp h
    obtain ⟨hov, hown, -⟩ := ih hc₁
    have hcommit : c₁.commitState e.1 e.2.1 e.2.2 = some c' := by simpa using hlast
    obtain ⟨hov', hred⟩ := commitState_reduced hcommit
    refine ⟨hov'.trans hov, fun f hf => hred.owned (hown f hf), fun _ => hred.owns ?_⟩
    rw [hov', hov]
    exact hfin

end Client

/-- A member is withheld from the controller: it is claimed, and after any frames of the controller
the state shows what the reducer says of it. -/
structure Withheld (c : Client) (f : Field) : Prop where
  owned : c.cerboOwned.has f = true
  shows : ∀ frames c', frames ≠ [] → c.commitFrames frames = some c' → c'.Shows f

/-- What is claimed over an output that can be encoded is withheld. -/
theorem withheld_of_owned {c : Client} {f : Field} (hfin : c.overlay.finite = true)
    (h : c.cerboOwned.has f = true) : Withheld c f := by
  refine ⟨h, fun frames c' hne hc' => ?_⟩
  obtain ⟨-, hown, howns⟩ := Client.commitFrames_owns hfin hc'
  exact (howns hne).shows f (hown f h)

/-- **Null reports withhold** every member that zeros in their leaves would make known, exactly
when the members they miss were claimed before. On an empty cache and without earlier claims these
are the metrics of a bank whose battery was never reported alone, the totals of chargers that
report voltage and current but no power, and, without any report, the inventory.

**Proof sketch.** A run claims what its probes and reductions output (`reportAll_spec`), which is
all but the missed members (`unclaimed_iff`). -/
theorem withheld_iff (c : Client) (portal : String) (rs : List NullReport)
    (hempty : c.cerboLeaves = ∅) (hportal : c.portalID ≠ "" → portal = c.portalID) :
    ∃ c', c.reportAll portal rs = some c' ∧
      ((∀ f, (cerboOverlay (zeros (rs.map NullReport.leaf)) c.options).outputs f →
        Withheld c' f) ↔
      ∀ f, Unclaimed (rs.map NullReport.leaf) f → c.cerboOwned.has f = true) := by
  have hnum : ∀ l ∈ rs.map NullReport.leaf, (atoi l.inst).isSome = true := by
    intro l hl
    obtain ⟨r, -, rfl⟩ := List.mem_map.mp hl
    exact r.inst_number
  obtain ⟨c', hrun, hrep⟩ := reportAll_spec c rs hempty hportal
  have hfin : c'.overlay.finite = true := by
    rw [Client.overlay, hrep.leaves]
    exact finite_nulls hnum _
  refine ⟨c', hrun, fun h f hmiss => ?_, fun h f hout => ?_⟩
  · obtain ⟨hout, hno⟩ := (unclaimed_iff hnum).mp hmiss
    have hess : f ≠ .essMode := by
      rcases hmiss with ⟨hf | hf, -⟩ | ⟨hf | hf, -⟩ | ⟨hf | hf, -⟩ | ⟨hf | hf, -⟩ | ⟨hf, -⟩ |
        ⟨hf | hf | hf, -⟩ <;> rw [hf] <;> decide
    exact (hrep.only f hess (h f hout).owned).resolve_right hno
  · refine withheld_of_owned hfin (hrep.kept f ?_)
    by_cases hclaim : Claimed c.options (rs.map NullReport.leaf) f
    · exact Or.inr hclaim
    · exact Or.inl (h f ((unclaimed_iff hnum).mpr ⟨hout, hclaim⟩))

/-- A null report of the first charger. -/
def chargerReport (level : String) : NullReport where
  kind := .solarcharger
  inst := "0"
  rest := ["Dc", "0", level]
  payload := .json (.obj [("value", .null)])
  now := 0
  inst_number := by decide
  rest_ne_nil := List.cons_ne_nil _ _
  null := rfl

/-- The theorem at a fresh client that hears of a voltage and a current. -/
theorem withheld_iff_charger :
    ∃ c', Client.reportAll { state := State.zero } "p"
        [chargerReport "Voltage", chargerReport "Current"] = some c' ∧
      ((∀ f, (cerboOverlay (zeros [⟨.solarcharger, "0", "Dc/0/Voltage"⟩,
        ⟨.solarcharger, "0", "Dc/0/Current"⟩]) (Client.options { state := State.zero })).outputs f →
          Withheld c' f) ↔
        ∀ f, Unclaimed [⟨.solarcharger, "0", "Dc/0/Voltage"⟩, ⟨.solarcharger, "0", "Dc/0/Current"⟩]
          f → OwnedFields.none.has f = true) :=
  withheld_iff { state := State.zero } "p" [chargerReport "Voltage", chargerReport "Current"] rfl
    fun h => absurd rfl h

/-- Nulls in the voltage and the current of a charger do not claim the total that numbers in them
would make known. -/
theorem not_withheld_charger :
    ¬∀ (c : Client) (portal : String) (rs : List NullReport), c.cerboLeaves = ∅ →
      (c.portalID ≠ "" → portal = c.portalID) → ∀ c', c.reportAll portal rs = some c' →
        ∀ f, (cerboOverlay (zeros (rs.map NullReport.leaf)) c.options).outputs f →
          c'.cerboOwned.has f = true := by
  intro h
  have hmiss : (Client.reportAll { state := State.zero } "p"
      [chargerReport "Voltage", chargerReport "Current"]).any
      (fun c' => !c'.cerboOwned.has .mpptTotal) = true := by decide
  have hout : (cerboOverlay (zeros ([chargerReport "Voltage", chargerReport "Current"].map
      NullReport.leaf)) (Client.options { state := State.zero })).outputs .mpptTotal := by
    unfold Overlay.outputs
    decide
  cases hrun : Client.reportAll { state := State.zero } "p"
      [chargerReport "Voltage", chargerReport "Current"] with
  | none =>
    rw [hrun] at hmiss
    cases hmiss
  | some c' =>
    have hown := h _ "p" _ rfl (fun hne => absurd rfl hne) c' hrun .mpptTotal hout
    rw [hrun, Option.any_some, hown] at hmiss
    cases hmiss

end Dashboard
