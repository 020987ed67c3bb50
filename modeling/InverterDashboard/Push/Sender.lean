import InverterDashboard.Push.Inflight

set_option relaxedAutoImplicit false
set_option autoImplicit false

/-!
# The workers of the dispatcher

What one step of the dispatcher can do, and the invariant of the workers: each has a delivery with
attempts left and an identifier of its own, and the store covers it.

## Main definitions

* `Push.Dispatcher.Stepped` — the ways a step ends.
* `Push.Dispatcher.Safe` — the invariant of the workers.

## Main results

* `Push.Dispatcher.step_stepped` — every step ends in one of these ways.
* `Push.Dispatcher.Safe.step` — every step keeps the invariant.
-/

namespace Push

/-! ## What a change of the store keeps covered -/

section Covers

variable {s s' : Store} {stopped stopped' : Bool} {w : Worker}

/-- More contexts are cancelled, and the worker's own stays registered. -/
theorem Store.Covers.grow (h : s.Covers stopped w) (hcancel : s.cancelled ⊆ s'.cancelled)
    (hstop : stopped = true → stopped' = true)
    (hactive : w.phase.registers = true → (w.item.id, w.context) ∈ s.active →
      (w.item.id, w.context) ∈ s'.active)
    (hholds : s'.holds w.item = s.holds w.item) : s'.Covers stopped' w := by
  have hc : s.Cancels stopped w → s'.Cancels stopped' w := Or.imp (fun hw => hcancel hw) hstop
  refine ⟨fun hreg => ?_, h.age, fun hchecked => ?_⟩
  · exact (h.active hreg).imp hc (hactive hreg)
  · rw [hholds]
    exact (h.holds hchecked).imp_right hc

/-- Every registered context is cancelled. -/
theorem Store.Covers.cancelAll (h : s.Covers stopped w)
    (hcancel : s.cancelled ∪ (s.active.map Prod.snd).toFinset ⊆ s'.cancelled) :
    s'.Covers stopped w := by
  have hc : w.phase.registers = true → s'.Cancels stopped w := by
    intro hreg
    rcases h.active hreg with (hw | hw) | hactive
    · exact Or.inl (hcancel (Finset.mem_union_left _ hw))
    · exact Or.inr hw
    · exact Or.inl (hcancel (Finset.mem_union_right _
        (List.mem_toFinset.mpr (List.mem_map_of_mem hactive))))
  exact ⟨fun hreg => Or.inl (hc hreg), h.age,
    fun hchecked => Or.inr (hc (Phase.registers_of_checked hchecked))⟩

theorem Store.Covers.close (h : s.Covers stopped w) : s.close.Covers stopped w := by
  unfold Store.close
  split_ifs
  · exact h
  · exact h.cancelAll (Finset.Subset.refl _)

/-- Another worker registers its context, or releases it. -/
theorem Store.Covers.others (h : s.Covers stopped w) {id : String} (hne : w.item.id ≠ id)
    (own : List (String × ℕ)) (hactive : s'.active = own ++ s.active.filter fun a => a.1 ≠ id)
    (hcancel : s.cancelled ⊆ s'.cancelled) (hholds : s'.holds w.item = s.holds w.item) :
    s'.Covers stopped w := by
  refine h.grow hcancel (fun hstop => hstop) (fun _ hmem => ?_) hholds
  rw [hactive]
  exact List.mem_append_right _ (List.mem_filter.mpr ⟨hmem, decide_eq_true hne⟩)

end Covers

/-- What a mutation leaves in the store. -/
theorem Store.mutate_data (L : Libs) (s : Store) (change : DiskState → Change)
    (fault : Option SaveFault) :
    (s.mutate L change fault).1.data = s.data ∨
      (change s.data).verdict = .changed ∧
        (s.mutate L change fault).1.data = (change s.data).data := by
  generalize hr : s.mutate L change fault = r
  have hcases := s.mutate_cases L change fault
  rw [hr] at hcases
  cases hcases with
  | refused _ => exact Or.inl rfl
  | rejected _ _ => exact Or.inl rfl
  | unchanged _ _ => exact Or.inl rfl
  | unsaved _ _ _ => exact Or.inl rfl
  | saved _ hv _ => exact Or.inr ⟨hv, rfl⟩

/-- After a `pending` without an error the queue is trimmed. -/
theorem trimmed_of_pending {L : Libs} {s : Store} {now : Instant} {fault : Option SaveFault}
    (h : (s.mutate L (pendingChange now) fault).2 = none) :
    (s.mutate L (pendingChange now) fault).1.data.Trimmed := by
  have hlives : ∀ {epoch : String} {q : Delivery}, q.lives epoch now = true →
      q.attempts < 3 ∧ (q.payload.kind = "test" ∨ q.epoch = epoch) := by
    intro epoch q hq
    simp only [Delivery.lives, Bool.and_eq_true, Bool.or_eq_true, decide_eq_true_eq] at hq
    exact ⟨hq.1.2, hq.2⟩
  generalize hr : s.mutate L (pendingChange now) fault = r at h
  have hcases := s.mutate_cases L (pendingChange now) fault
  rw [hr] at hcases
  cases hcases with
  | refused _ => exact absurd h (by simp)
  | rejected _ _ => exact absurd h (by simp)
  | unsaved _ _ _ => exact absurd h (by simp)
  | unchanged _ hv =>
    unfold pendingChange at hv
    dsimp only at hv
    split_ifs at hv with hall
    intro q hq
    exact hlives (List.all_eq_true.mp hall q hq)
  | saved _ _ _ =>
    intro q hq
    exact hlives (List.mem_filter.mp hq).2

theorem Op.Names.accept {L : Libs} {about : About} {data : DiskState} {op op' : Op}
    (h : op.Names L about data) (hacc : op.accept L = .ok op') : op'.Names L about data := by
  cases op with
  | register sub prefs =>
    simp only [Op.accept] at hacc
    split at hacc
    · obtain rfl := Except.ok.inj hacc
      trivial
    · exact absurd hacc (by simp)
  | enqueue payload epoch prime visit =>
    simp only [Op.accept] at hacc
    split_ifs at hacc
    obtain rfl := Except.ok.inj hacc
    exact h
  | delete endpoint | resetEpoch epoch | queueTest endpoint now id | pending now
  | finish item status transient now =>
    obtain rfl := Except.ok.inj hacc
    exact h

namespace Dispatcher

variable {L : Libs} {about : About} {d d' : Dispatcher} {i : ℕ} {w w' : Worker}

/-! ## What one step does -/

/-- The ways a step ends. -/
inductive Stepped (L : Libs) (d : Dispatcher) : Event → Dispatcher → Prop
  /-- The arguments of an operation were refused. -/
  | refused {op : Op} {fault : Option SaveFault} : Stepped L d (.perform op fault) d
  /-- An operation from elsewhere. -/
  | performed {op op' : Op} {fault : Option SaveFault} : op'.internal = false →
      op.accept L = .ok op' →
      Stepped L d (.perform op fault) (d.mutated (d.store.mutate L (op'.change L) fault).1)
  | closed : Stepped L d .close { d with store := d.store.close }
  | stopped : Stepped L d .stop { d with stopped := true }
  | expired {context : ℕ} : Stepped L d (.expire context) { d with
      store := { d.store with cancelled := insert context d.store.cancelled } }
  | ticked {now : Instant} {fault : Option SaveFault} : Stepped L d (.tick now fault)
      { d.mutated (d.store.mutate L ((Op.pending now).change L) fault).1 with
        items := if (d.store.mutate L (pendingChange now) fault).2.isNone then
          dueItems now d.store.data else [] }
  /-- The loop leaves out a delivery, or all that are left. -/
  | left {rest : List Delivery} : (∀ q ∈ rest, q ∈ d.items) →
      Stepped L d .spawn { d with items := rest }
  | spawned {item : Delivery} {rest : List Delivery} : d.items = item :: rest →
      d.workers.length < 2 → (∀ w ∈ d.workers, w.item.id ≠ item.id) →
      Stepped L d .spawn { d with items := rest, workers := d.workers ++ [{ item := item }] }
  /-- A worker goes on without a registered context. -/
  | idled {e : Event} {i : ℕ} {w : Worker} {phase : Phase} : d.workers[i]? = some w →
      phase.registers = false → (w.phase.spends = true → phase.spends = true) →
      Stepped L d e (d.move i { w with phase := phase })
  | registered {i : ℕ} {w : Worker} : d.workers[i]? = some w → w.phase = .passed →
      Stepped L d (.register i)
      { d.move i { w with phase := .registered, context := d.contexts } with
        contexts := d.contexts + 1
        store := { d.store with
          active := (w.item.id, d.contexts) :: d.store.active.filter fun a => a.1 ≠ w.item.id } }
  | rechecked {i : ℕ} {w : Worker} {now : Instant} : d.workers[i]? = some w →
      w.phase = .registered → d.store.current w.item now = true →
      Stepped L d (.recheck i now) { d.move i { w with
          phase := .rechecked
          checkedAt := now
          generation := d.ledger.generation w.item.id } with
        ledger := { d.ledger with
          checks := Ledger.bump d.ledger.checks w.item.id (d.ledger.generation w.item.id) } }
  | cleared {i : ℕ} {w : Worker} : d.workers[i]? = some w → w.phase = .rechecked →
      Stepped L d (.clear i) (d.move i { w with phase := .cleared })
  | handed {i : ℕ} {w : Worker} : d.workers[i]? = some w → w.phase = .cleared →
      Stepped L d (.hand i) { d.move i { w with phase := .answered } with
        ledger := { d.ledger with
          requests := Ledger.bump d.ledger.requests w.item.id w.generation } }
  /-- `finish`; the worker is done with its context. -/
  | finished {i : ℕ} {w : Worker} {phase : Phase} {status : ℤ} {transient : Bool} {now : Instant}
      {fault : Option SaveFault} : d.workers[i]? = some w → phase.registers = false →
      phase.spends = false →
      Stepped L d (.finish i status transient now fault)
        ((d.move i { w with phase := phase }).mutated
          (d.store.mutate L ((Op.finish w.item status transient now).change L) fault).1)
  | released {i : ℕ} {w : Worker} : d.workers[i]? = some w → w.phase = .finished →
      Stepped L d (.release i) { d.move i { w with phase := .released } with
        store := { d.store with
          active := d.store.active.filter fun a => a.1 ≠ w.item.id
          cancelled := insert w.context d.store.cancelled } }
  | removed {i : ℕ} {w : Worker} : d.workers[i]? = some w → w.phase = .released →
      Stepped L d (.remove i) { d with workers := d.workers.eraseIdx i }

/-- An operation from elsewhere stays one when its arguments are accepted. -/
theorem internal_accept {op op' : Op} (hacc : op.accept L = .ok op') :
    op'.internal = op.internal := by
  cases op with
  | register sub prefs =>
    simp only [Op.accept] at hacc
    split at hacc
    · obtain rfl := Except.ok.inj hacc
      rfl
    · exact absurd hacc (by simp)
  | enqueue payload epoch prime visit =>
    simp only [Op.accept] at hacc
    split_ifs at hacc
    obtain rfl := Except.ok.inj hacc
    rfl
  | delete endpoint | resetEpoch epoch | queueTest endpoint now id | pending now
  | finish item status transient now =>
    obtain rfl := Except.ok.inj hacc
    rfl

theorem step_stepped {e : Event} (h : step L d e = some d') : Stepped L d e d' := by
  cases e with
  | perform op fault =>
    simp only [step] at h
    split_ifs at h with hinternal
    cases hacc : op.accept L with
    | error e =>
      rw [hacc] at h
      exact Option.some.inj h ▸ .refused
    | ok op' =>
      rw [hacc] at h
      obtain rfl := Option.some.inj h
      refine .performed ?_ hacc
      rw [internal_accept hacc]
      simpa using hinternal
  | close => exact Option.some.inj h ▸ .closed
  | stop => exact Option.some.inj h ▸ .stopped
  | expire context => exact Option.some.inj h ▸ .expired
  | tick now fault =>
    simp only [step] at h
    split at h
    · exact absurd h (by simp)
    · exact Option.some.inj h ▸ .ticked
  | spawn =>
    simp only [step] at h
    split at h
    · exact absurd h (by simp)
    · rename_i item rest hitems
      split_ifs at h with hfull hany
      · exact Option.some.inj h ▸ .left (by simp)
      · refine Option.some.inj h ▸ .left fun q hq => ?_
        rw [hitems]
        exact List.mem_cons_of_mem _ hq
      · refine Option.some.inj h ▸ .spawned hitems (not_le.mp hfull) fun w hw hid => hany ?_
        exact List.any_eq_true.mpr ⟨w, hw, decide_eq_true hid⟩
  | look i now =>
    simp only [step] at h
    cases hw : d.workers[i]? with
    | none => simp [hw] at h
    | some w =>
      rw [hw] at h
      dsimp only at h
      by_cases hphase : w.phase = .started
      · rw [if_pos hphase] at h
        refine Option.some.inj h ▸ .idled hw ?_ fun hs => ?_
        · split_ifs <;> rfl
        · rw [hphase] at hs
          exact absurd hs (by decide)
      · rw [if_neg hphase] at h
        exact absurd h (by simp)
  | register i =>
    simp only [step] at h
    cases hw : d.workers[i]? with
    | none => simp [hw] at h
    | some w =>
      rw [hw] at h
      dsimp only at h
      split_ifs at h with hphase
      exact Option.some.inj h ▸ .registered hw hphase.1
  | tooLate i =>
    simp only [step] at h
    cases hw : d.workers[i]? with
    | none => simp [hw] at h
    | some w =>
      rw [hw] at h
      dsimp only at h
      split_ifs at h with hphase
      refine Option.some.inj h ▸ .idled hw rfl fun hs => ?_
      rw [hphase] at hs
      exact absurd hs (by decide)
  | recheck i now =>
    simp only [step] at h
    cases hw : d.workers[i]? with
    | none => simp [hw] at h
    | some w =>
      rw [hw] at h
      dsimp only at h
      split_ifs at h with hphase hcurrent
      · exact Option.some.inj h ▸ .rechecked hw hphase hcurrent
      · exact Option.some.inj h ▸ .idled hw rfl fun _ => rfl
  | clear i =>
    simp only [step] at h
    cases hw : d.workers[i]? with
    | none => simp [hw] at h
    | some w =>
      rw [hw] at h
      dsimp only at h
      by_cases hphase : w.phase = .rechecked
      · rw [if_pos hphase] at h
        by_cases hcancel : d.cancelled w = true
        · rw [if_pos hcancel] at h
          exact Option.some.inj h ▸ .idled hw rfl fun _ => rfl
        · rw [if_neg hcancel] at h
          exact Option.some.inj h ▸ .cleared hw hphase
      · rw [if_neg hphase] at h
        exact absurd h (by simp)
  | hand i =>
    simp only [step] at h
    cases hw : d.workers[i]? with
    | none => simp [hw] at h
    | some w =>
      rw [hw] at h
      dsimp only at h
      split_ifs at h with hphase
      exact Option.some.inj h ▸ .handed hw hphase
  | abandon i =>
    simp only [step] at h
    cases hw : d.workers[i]? with
    | none => simp [hw] at h
    | some w =>
      rw [hw] at h
      dsimp only at h
      split_ifs at h with hphase
      exact Option.some.inj h ▸ .idled hw rfl fun _ => rfl
  | finish i status transient now fault =>
    simp only [step] at h
    cases hw : d.workers[i]? with
    | none => simp [hw] at h
    | some w =>
      rw [hw] at h
      dsimp only at h
      split_ifs at h with hphase hphase'
      · exact Option.some.inj h ▸ .finished hw rfl rfl
      · exact Option.some.inj h ▸ .finished hw rfl rfl
  | release i =>
    simp only [step] at h
    cases hw : d.workers[i]? with
    | none => simp [hw] at h
    | some w =>
      rw [hw] at h
      dsimp only at h
      split_ifs at h with hphase
      exact Option.some.inj h ▸ .released hw hphase
  | remove i =>
    simp only [step] at h
    cases hw : d.workers[i]? with
    | none => simp [hw] at h
    | some w =>
      rw [hw] at h
      dsimp only at h
      split_ifs at h with hphase
      exact Option.some.inj h ▸ .removed hw hphase

/-! ## The invariant of the workers -/

/-- The queue, the snapshot and the workers have named deliveries; those of the snapshot and of the
workers have attempts left; no two workers share an identifier; and the store covers every worker.
-/
structure Safe (about : About) (d : Dispatcher) : Prop where
  queue : ∀ q ∈ d.store.data.queue, q.Named about
  items : ∀ q ∈ d.items, q.Named about ∧ q.attempts < 3
  workers : ∀ w ∈ d.workers, w.item.Named about ∧ w.item.attempts < 3
  distinct : (d.workers.map fun w => w.item.id).Nodup
  few : d.workers.length ≤ 2
  trimmed : (d.items = [] ∧ d.workers = []) ∨ d.store.data.Trimmed
  covers : ∀ w ∈ d.workers, d.store.Covers d.stopped w

/-- The other workers have other identifiers. -/
theorem Safe.mem_set (h : d.Safe about) (hw : d.workers[i]? = some w) {v : Worker}
    (hv : v ∈ d.workers.set i w') : v = w' ∨ v ∈ d.workers ∧ v.item.id ≠ w.item.id := by
  obtain ⟨hi, rfl⟩ := List.getElem?_eq_some_iff.mp hw
  obtain ⟨j, hj, hget⟩ := List.getElem_of_mem hv
  rw [List.getElem_set] at hget
  split_ifs at hget with hij
  · exact Or.inl hget.symm
  · right
    have hj' : j < d.workers.length := by simpa using hj
    refine ⟨hget ▸ List.getElem_mem hj', ?_⟩
    intro hid
    have hi' : i < (d.workers.map fun w => w.item.id).length := by simpa using hi
    have hj'' : j < (d.workers.map fun w => w.item.id).length := by simpa using hj'
    have hids : (d.workers.map fun w => w.item.id)[i] = (d.workers.map fun w => w.item.id)[j] := by
      simp only [List.getElem_map]
      rw [hget]
      exact hid.symm
    exact hij (h.distinct.getElem_inj_iff.mp hids)

/-- A worker moves on with the same delivery, and the store still covers the others. -/
theorem Safe.move (h : d.Safe about) (hw : d.workers[i]? = some w)
    (hworkers : d'.workers = d.workers.set i w') (hitem : w'.item = w.item)
    (hdata : d'.store.data = d.store.data) (hitems : d'.items = d.items)
    (hcovers : d'.store.Covers d'.stopped w')
    (hothers : ∀ v ∈ d.workers, v.item.id ≠ w.item.id → d.store.Covers d.stopped v →
      d'.store.Covers d'.stopped v) : d'.Safe about := by
  have hids : (d.workers.set i w').map (fun w => w.item.id) = d.workers.map fun w => w.item.id := by
    rw [List.map_set, hitem]
    refine List.ext_getElem (by simp) fun j hj hj' => ?_
    rw [List.getElem_set]
    split_ifs with hij
    · subst hij
      obtain ⟨hi, rfl⟩ := List.getElem?_eq_some_iff.mp hw
      simp
    · rfl
  refine
    { queue := by rw [hdata]; exact h.queue
      items := by rw [hitems]; exact h.items
      workers := fun v hv => ?_
      distinct := ?_
      few := ?_
      trimmed := ?_
      covers := fun v hv => ?_ }
  · rw [hworkers] at hv
    rcases h.mem_set hw hv with rfl | ⟨hv, -⟩
    · rw [hitem]
      exact h.workers w (List.mem_of_getElem? hw)
    · exact h.workers v hv
  · rw [hworkers, hids]
    exact h.distinct
  · rw [hworkers, List.length_set]
    exact h.few
  · rw [hdata]
    rcases h.trimmed with ⟨-, hnil⟩ | htrim
    · rw [hnil] at hw
      exact absurd hw (by simp)
    · exact Or.inr htrim
  · rw [hworkers] at hv
    rcases h.mem_set hw hv with rfl | ⟨hv, hne⟩
    · exact hcovers
    · exact hothers v hv hne (h.covers v hv)

/-- A worker moves on to a phase without a registered context, and the store stays as it is. -/
theorem Safe.idle (h : d.Safe about) (hw : d.workers[i]? = some w) {phase : Phase}
    (hphase : phase.registers = false) : (d.move i { w with phase := phase }).Safe about :=
  h.move hw rfl rfl rfl rfl (Store.Covers.of_idle hphase) fun _ _ _ hv => hv

/-- The store changes, but not its data. -/
theorem Safe.withStore (h : d.Safe about) (hdata : d'.store.data = d.store.data)
    (hitems : d'.items = d.items) (hworkers : d'.workers = d.workers)
    (hcovers : ∀ w ∈ d.workers, d.store.Covers d.stopped w → d'.store.Covers d'.stopped w) :
    d'.Safe about where
  queue := by rw [hdata]; exact h.queue
  items := by rw [hitems]; exact h.items
  workers := by rw [hworkers]; exact h.workers
  distinct := by rw [hworkers]; exact h.distinct
  few := by rw [hworkers]; exact h.few
  trimmed := by rw [hitems, hworkers, hdata]; exact h.trimmed
  covers := by rw [hworkers]; exact fun w hw => hcovers w hw (h.covers w hw)

/-- A mutation. A worker whose delivery it finishes has no registered context any more. -/
theorem Safe.mutate (h : d.Safe about) {op : Op} (hop : op.Names L about d.store.data)
    (hfinish : ∀ w ∈ d.workers, w.phase.registers = true → ∀ done status transient now,
      op = .finish done status transient now → done.id ≠ w.item.id) (fault : Option SaveFault) :
    (d.mutated (d.store.mutate L (op.change L) fault).1).Safe about := by
  refine
    { queue := ?_
      items := h.items
      workers := h.workers
      distinct := h.distinct
      few := h.few
      trimmed := h.trimmed.imp_right fun htrim => ?_
      covers := fun w hw => ?_ }
  · show ∀ q ∈ (d.store.mutate L (op.change L) fault).1.data.queue, q.Named about
    rcases d.store.mutate_data L (op.change L) fault with heq | ⟨hv, heq⟩
    · rw [heq]
      exact h.queue
    · rw [heq]
      exact Op.change_named h.queue hop hv
  · show (d.store.mutate L (op.change L) fault).1.data.Trimmed
    rcases d.store.mutate_data L (op.change L) fault with heq | ⟨hv, heq⟩
    · rw [heq]
      exact htrim
    · rw [heq]
      exact Op.change_trimmed htrim hv
  · change w ∈ d.workers at hw
    have htrim : d.store.data.Trimmed := h.trimmed.resolve_left fun hnil => by
      rw [hnil.2] at hw
      exact absurd hw (by simp)
    exact (h.covers w hw).mutate h.queue (h.workers w hw).1 htrim (hfinish w hw) fault

/-- The ticker: the new snapshot is of deliveries that have attempts left. -/
theorem Safe.tick (h : d.Safe about) (now : Instant) (fault : Option SaveFault) :
    Safe about { d.mutated (d.store.mutate L (pendingChange now) fault).1 with
      items := if (d.store.mutate L (pendingChange now) fault).2.isNone then
        dueItems now d.store.data else [] } := by
  have hm : (d.mutated (d.store.mutate L ((Op.pending now).change L) fault).1).Safe about :=
    h.mutate (show (Op.pending now).Names L about d.store.data from trivial)
      (fun _ _ _ _ _ _ _ hne => absurd hne (by simp)) fault
  by_cases hok : (d.store.mutate L (pendingChange now) fault).2 = none
  · rw [if_pos (by rw [hok]; rfl)]
    refine { hm with items := fun q hq => ?_, trimmed := Or.inr (trimmed_of_pending hok) }
    obtain ⟨hq, hlives⟩ := List.mem_filter.mp (List.mem_of_mem_filter hq)
    simp only [Delivery.lives, Bool.and_eq_true, decide_eq_true_eq] at hlives
    exact ⟨h.queue q hq, hlives.1.2⟩
  · rw [if_neg (by simpa using hok)]
    refine { hm with items := fun q hq => absurd hq (by simp), trimmed := ?_ }
    exact hm.trimmed.imp_left fun hnil => ⟨rfl, hnil.2⟩

/-- The loop goes on with its snapshot. -/
theorem Safe.rest (h : d.Safe about) {rest : List Delivery} (hrest : ∀ q ∈ rest, q ∈ d.items) :
    Safe about { d with items := rest } := by
  refine { h with items := fun q hq => h.items q (hrest q hq), trimmed := ?_ }
  refine h.trimmed.imp_left fun hnil => ⟨?_, hnil.2⟩
  rw [List.eq_nil_iff_forall_not_mem]
  intro q hq
  have hmem := hrest q hq
  rw [hnil.1] at hmem
  exact absurd hmem (by simp)

theorem Safe.spawn (h : d.Safe about) {item : Delivery} {rest : List Delivery}
    (hitems : d.items = item :: rest) (hfew : d.workers.length < 2)
    (hnew : ∀ w ∈ d.workers, w.item.id ≠ item.id) :
    Safe about { d with items := rest, workers := d.workers ++ [{ item := item }] } := by
  have hitem := h.items item (by rw [hitems]; exact List.mem_cons_self)
  refine
    { queue := h.queue
      items := fun q hq => h.items q (by rw [hitems]; exact List.mem_cons_of_mem _ hq)
      workers := fun w hw => ?_
      distinct := ?_
      few := ?_
      trimmed := ?_
      covers := fun w hw => ?_ }
  · rcases List.mem_append.mp hw with hw | hw
    · exact h.workers w hw
    · obtain rfl := List.mem_singleton.mp hw
      exact hitem
  · show ((d.workers ++ [({ item := item } : Worker)]).map fun w => w.item.id).Nodup
    rw [List.map_append, List.nodup_append]
    refine ⟨h.distinct, by simp, ?_⟩
    intro id hid id' hid'
    obtain ⟨w, hw, rfl⟩ := List.mem_map.mp hid
    simp only [List.map_cons, List.map_nil, List.mem_singleton] at hid'
    rw [hid']
    exact hnew w hw
  · show (d.workers ++ [({ item := item } : Worker)]).length ≤ 2
    rw [List.length_append, List.length_singleton]
    omega
  · refine Or.inr (h.trimmed.resolve_left fun hnil => ?_)
    rw [hitems] at hnil
    exact absurd hnil.1 (by simp)
  · rcases List.mem_append.mp hw with hw | hw
    · exact h.covers w hw
    · obtain rfl := List.mem_singleton.mp hw
      exact Store.Covers.of_idle rfl

theorem Safe.remove (h : d.Safe about) (i : ℕ) :
    Safe about { d with workers := d.workers.eraseIdx i } := by
  have hsub : (d.workers.eraseIdx i).Sublist d.workers := List.eraseIdx_sublist ..
  refine
    { queue := h.queue
      items := h.items
      workers := fun w hw => h.workers w (hsub.subset hw)
      distinct := h.distinct.sublist (hsub.map _)
      few := hsub.length_le.trans h.few
      trimmed := h.trimmed.imp_left fun hnil => ⟨hnil.1, ?_⟩
      covers := fun w hw => h.covers w (hsub.subset hw) }
  show d.workers.eraseIdx i = []
  rw [hnil.2, List.eraseIdx_nil]

/-- **One step keeps the invariant of the workers.** -/
theorem Safe.step {e : Event} (h : d.Safe about)
    (hok : ∀ op fault, e = .perform op fault → op.Names L about d.store.data)
    (hstep : Stepped L d e d') : d'.Safe about := by
  cases hstep with
  | refused => exact h
  | @performed op op' fault hinternal hacc =>
    refine h.mutate ((hok op fault rfl).accept hacc) ?_ fault
    rintro w - - done status transient now rfl
    exact absurd hinternal (by simp [Op.internal])
  | closed =>
    have hdata : d.store.close.data = d.store.data := by
      unfold Store.close
      split_ifs <;> rfl
    exact h.withStore hdata rfl rfl fun w _ hw => hw.close
  | stopped =>
    exact h.withStore rfl rfl rfl fun w _ hw =>
      hw.grow (Finset.Subset.refl _) (fun _ => rfl) (fun _ hmem => hmem) rfl
  | expired =>
    exact h.withStore rfl rfl rfl fun w _ hw =>
      hw.grow (Finset.subset_insert _ _) id (fun _ hmem => hmem) rfl
  | @ticked now fault => exact h.tick now fault
  | left hrest => exact h.rest hrest
  | spawned hitems hfew hnew => exact h.spawn hitems hfew hnew
  | idled hw hidle _ => exact h.idle hw hidle
  | registered hw _ =>
    refine h.move hw rfl rfl rfl rfl ⟨fun _ => Or.inr List.mem_cons_self,
      fun hc => absurd hc (by simp [Phase.checked]), fun hc => absurd hc (by simp [Phase.checked])⟩
      fun v _ hne hv => ?_
    exact hv.others hne [_] rfl (Finset.Subset.refl _) rfl
  | rechecked hw hphase hcurrent =>
    simp only [Store.current, Bool.and_eq_true] at hcurrent
    have hreg := (h.covers _ (List.mem_of_getElem? hw)).active (by rw [hphase]; rfl)
    exact h.move hw rfl rfl rfl rfl
      ⟨fun _ => hreg, fun _ => hcurrent.2, fun _ => Or.inl hcurrent.1⟩ fun _ _ _ hv => hv
  | cleared hw hphase =>
    have hcov := h.covers _ (List.mem_of_getElem? hw)
    exact h.move hw rfl rfl rfl rfl
      ⟨fun _ => hcov.active (by rw [hphase]; rfl), fun _ => hcov.age (by rw [hphase]; rfl),
        fun _ => hcov.holds (by rw [hphase]; rfl)⟩ fun _ _ _ hv => hv
  | handed hw _ =>
    exact h.move hw rfl rfl rfl rfl (Store.Covers.of_idle rfl) fun _ _ _ hv => hv
  | @finished i w phase status transient now fault hw hidle _ =>
    refine (h.idle hw hidle).mutate (show (Op.finish w.item status transient now).Names L about
      d.store.data from trivial) (fun v hv hreg done status' transient' now' heq => ?_) fault
    rcases h.mem_set hw hv with rfl | ⟨-, hne⟩
    · rw [hidle] at hreg
      exact absurd hreg (by simp)
    · cases heq
      exact hne.symm
  | released hw _ =>
    refine h.move hw rfl rfl rfl rfl (Store.Covers.of_idle rfl) fun v _ hne hv => ?_
    exact hv.others hne [] rfl (Finset.subset_insert _ _) rfl
  | @removed i w hw _ => exact h.remove i

end Dispatcher

end Push
