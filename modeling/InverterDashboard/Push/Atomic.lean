import InverterDashboard.Push.Durable

set_option relaxedAutoImplicit false
set_option autoImplicit false

/-!
# Mutations are atomic and fail closed

Whatever a change function did to its copy, and wherever `save` stopped, the state in memory is the
old one or the new one, the file is the old one or the new one, and after a failed `save` the store
answers nothing but errors until the process is restarted.

## Main definitions

* `Push.Store.Event`, `Push.Store.step` — what can happen to a store inside one process.

## Main results

* `Push.Store.perform_eq_mutate` — the fast path of `Enqueue` answers as `mutate` would.
* `Push.Store.perform_atomic` — how an operation leaves memory, the file and the contexts.
-/

namespace Push.Store

/-! ## The fast path -/

/-- **The fast path agrees with `mutate`**: what it answers at once is what `mutate` would have
answered at that instant, and `mutate` would have changed nothing. -/
theorem mutate_of_fastPath {L : Libs} {s : Store} {op : Op} {result : Option PushError}
    (h : s.fastPath op = some result) (fault : Option SaveFault) :
    s.mutate L (op.change L) fault = (s, result) := by
  cases op with
  | enqueue payload epoch prime visit =>
    unfold fastPath at h
    dsimp only at h
    split_ifs at h with hu hskip
    · obtain rfl := Option.some.inj h
      exact if_pos hu
    · obtain rfl := Option.some.inj h
      unfold mutate
      rw [if_neg hu]
      have hknown : s.data.epoch ≠ epoch ∨ payload.eventKey ∈ s.data.dedupe := by
        simpa [skips] using hskip
      have hverdict : ((Op.enqueue payload epoch prime visit).change L s.data).verdict =
          .unchanged := by
        show (enqueueChange payload epoch prime visit s.data).verdict = .unchanged
        unfold enqueueChange
        rw [if_pos hknown]
      rw [hverdict]
  | register sub prefs => simp [fastPath] at h
  | delete endpoint => simp [fastPath] at h
  | resetEpoch epoch => simp [fastPath] at h
  | queueTest endpoint now id => simp [fastPath] at h
  | pending now => simp [fastPath] at h
  | finish item status transient now => simp [fastPath] at h

/-- An operation whose arguments are accepted ends as its change function under `mutate`. -/
theorem perform_eq_mutate {L : Libs} {s : Store} {op op' : Op} (hacc : op.accept L = .ok op')
    (fault : Option SaveFault) : s.perform L op fault = s.mutate L (op'.change L) fault := by
  unfold perform
  rw [hacc]
  dsimp only
  cases hfast : s.fastPath op' with
  | none => rfl
  | some result => exact (mutate_of_fastPath hfast fault).symm

/-! ## A store that failed -/

/-- What can happen to a store inside one process. -/
inductive Event where
  | perform (op : Op) (fault : Option SaveFault)
  | close
  /-- `deliver` registers the context of a delivery. -/
  | track (id : String) (context : ℕ)
  /-- `deliver` has ended. -/
  | untrack (id : String)

/-- One step. -/
def step (L : Libs) (s : Store) : Event → Option Store
  | .perform op fault => some (s.perform L op fault).1
  | .close => some s.close
  | .track id context =>
      some { s with active := (id, context) :: s.active.filter fun a => a.1 ≠ id }
  | .untrack id => some { s with active := s.active.filter fun a => a.1 ≠ id }

/-- Every operation of a store that failed returns an error and changes nothing. -/
theorem perform_of_failed {L : Libs} {s : Store} (h : s.failed = true) (op : Op)
    (fault : Option SaveFault) :
    (s.perform L op fault).1 = s ∧ (s.perform L op fault).2.isSome = true := by
  have hu : s.unusable = true := by simp [unusable, h]
  cases hacc : op.accept L with
  | error e =>
    unfold perform
    rw [hacc]
    exact ⟨rfl, rfl⟩
  | ok op' =>
    rw [perform_eq_mutate hacc]
    unfold mutate
    rw [if_pos hu]
    exact ⟨rfl, rfl⟩

/-- A store that failed stays as it is. -/
theorem failed_of_reachable {L : Libs} {s s' : Store} (h : s.failed = true)
    (hreach : Transition.Reachable (step L) (fun _ _ => True) (· = s) s') :
    s'.failed = true ∧ s'.data = s.data ∧ s'.disk = s.disk := by
  refine hreach.invariant (I := fun t => t.failed = true ∧ t.data = s.data ∧ t.disk = s.disk) ?_ ?_
  · rintro t rfl
    exact ⟨h, rfl, rfl⟩
  · rintro t e t' ⟨hf, hdata, hdisk⟩ - hs
    cases e with
    | perform op fault =>
      obtain rfl := Option.some.inj hs
      rw [(perform_of_failed hf op fault).1]
      exact ⟨hf, hdata, hdisk⟩
    | close =>
      obtain rfl := Option.some.inj hs
      simp [hf, hdata, hdisk]
    | track id context =>
      obtain rfl := Option.some.inj hs
      exact ⟨hf, hdata, hdisk⟩
    | untrack id =>
      obtain rfl := Option.some.inj hs
      exact ⟨hf, hdata, hdisk⟩

/-! ## One operation -/

/-- The state after a failed `save`. -/
structure Broken (L : Libs) (s : Store) (next : DiskState) (r : Store) : Prop where
  /-- Memory is unchanged. -/
  data : r.data = s.data
  /-- The file is the old or the new state. -/
  disk : r.disk = s.disk ∨ r.disk = next
  /-- Every registered context is cancelled. -/
  cancelled : ∀ a ∈ s.active, a.2 ∈ r.cancelled
  /-- Every later operation fails and changes nothing. -/
  closed : ∀ s', Transition.Reachable (step L) (fun _ _ => True) (· = r) s' →
    s'.data = s.data ∧ s'.disk = r.disk ∧ ∀ op fault, (s'.perform L op fault).2.isSome = true

theorem broken_of_unsaved {L : Libs} {s : Store} {next disk : DiskState} {fault : Option SaveFault}
    {e : PushError} (hsave : s.save L next fault = (disk, some e)) :
    Broken L s next { s with
      disk := disk
      failed := true
      cancelled := s.cancelled ∪ (s.active.map Prod.snd).toFinset } where
  data := rfl
  disk := by
    have hsaved := s.save_cases L next fault
    rw [hsave] at hsaved
    cases hsaved with
    | before _ _ => exact Or.inl rfl
    | after _ _ _ => exact Or.inr rfl
  cancelled := by
    intro a ha
    exact Finset.mem_union_right _ (List.mem_toFinset.mpr (List.mem_map_of_mem ha))
  closed := by
    intro s' hreach
    obtain ⟨hf, hdata, hdisk⟩ := failed_of_reachable rfl hreach
    exact ⟨hdata, hdisk, fun op fault => (perform_of_failed hf op fault).2⟩

/-- The errors of `save` are not those of a change function. -/
theorem save_error_ne_capacity {L : Libs} {s : Store} {next disk : DiskState}
    {fault : Option SaveFault} {e : PushError} (hsave : s.save L next fault = (disk, some e)) :
    e ≠ .capacity := by
  have hmem : e ∈ saveErrors := by
    have hsaved := s.save_cases L next fault
    rw [hsave] at hsaved
    cases hsaved with
    | before h _ => exact h
    | after h _ _ => exact h
  rintro rfl
  exact absurd hmem (by decide)

/-- **Mutations are atomic and fail closed.** For every store, every operation with accepted
arguments and every point at which `save` may stop: a change that fails or changes nothing leaves
memory and the file exactly as they were, and so does an answer that the queue is full, however far
the fan-out came; a failed `save` leaves memory unchanged and the file old or new, cancels every
registered delivery, and makes every later operation fail; after a successful `save` memory and the
file both hold the new state. An operation whose arguments are refused changes nothing.

**Proof sketch.** The fast path answers as `mutate` would, so only `mutate` is left; its ends are
those of `mutate_cases`, and the file is as in `save_cases`. A store that failed refuses before it
looks at the operation, so by induction over what happens later it stays as it is. -/
theorem perform_atomic (L : Libs) (s : Store) (op : Op) (fault : Option SaveFault) :
    (∀ e, op.accept L = .error e → s.perform L op fault = (s, some e)) ∧
    ∀ op', op.accept L = .ok op' →
      ((op'.change L s.data).verdict ≠ .changed → (s.perform L op fault).1 = s) ∧
      ((s.perform L op fault).2 = some .capacity → (s.perform L op fault).1 = s) ∧
      (s.unusable = false → (op'.change L s.data).verdict = .changed →
        ((s.save L (op'.change L s.data).data fault).2.isSome = true →
          (s.perform L op fault).2.isSome = true ∧
            Broken L s (op'.change L s.data).data (s.perform L op fault).1) ∧
        ((s.save L (op'.change L s.data).data fault).2 = none →
          (s.perform L op fault).2 = none ∧
            (s.perform L op fault).1.data = (op'.change L s.data).data ∧
            (s.perform L op fault).1.disk = (s.perform L op fault).1.data)) := by
  refine ⟨?_, ?_⟩
  · intro e hacc
    unfold perform
    rw [hacc]
  intro op' hacc
  rw [perform_eq_mutate hacc]
  generalize hr : s.mutate L (op'.change L) fault = r
  have hcases := s.mutate_cases L (op'.change L) fault
  rw [hr] at hcases
  cases hcases with
  | refused hu => exact ⟨fun _ => rfl, fun _ => rfl, fun hu' =>
      absurd (hu.symm.trans hu') (by simp)⟩
  | rejected hu hv =>
    exact ⟨fun _ => rfl, fun _ => rfl, fun _ hv' => absurd (hv.symm.trans hv') (by simp)⟩
  | unchanged hu hv =>
    exact ⟨fun _ => rfl, fun _ => rfl, fun _ hv' => absurd (hv.symm.trans hv') (by simp)⟩
  | unsaved hu hv hsave =>
    refine ⟨fun hne => absurd hv hne, fun hcap => ?_, fun _ _ => ⟨fun _ => ?_, fun hnone => ?_⟩⟩
    · exact absurd (Option.some.inj hcap) (save_error_ne_capacity hsave)
    · exact ⟨rfl, broken_of_unsaved hsave⟩
    · rw [hsave] at hnone
      exact absurd hnone (by simp)
  | saved hu hv hsave =>
    refine ⟨fun hne => absurd hv hne, fun hcap => absurd hcap (by simp), fun _ _ =>
      ⟨fun hsome => ?_, fun _ => ⟨rfl, rfl, ?_⟩⟩⟩
    · rw [hsave] at hsome
      exact absurd hsome (by simp)
    · have hsaved := s.save_cases L (op'.change L s.data).data fault
      rw [hsave] at hsaved
      cases hsaved with
      | done _ _ => rfl

/-- A store with one delivery in flight. -/
def busyStore : Store :=
  { data := Service.sampleState, disk := Service.sampleState, active := [("a", 7)] }

theorem perform_atomic_unsynchronized :
    (busyStore.perform Service.sampleLibs (.resetEpoch "e2") (some .syncDirectory)).1.disk.epoch =
        "e2" ∧
      (busyStore.perform Service.sampleLibs (.resetEpoch "e2") (some .syncDirectory)).2.isSome =
      true ∧
      Broken Service.sampleLibs busyStore (resetEpochChange "e2" Service.sampleState).data
        (busyStore.perform Service.sampleLibs (.resetEpoch "e2") (some .syncDirectory)).1 :=
  ⟨by decide, ((perform_atomic Service.sampleLibs busyStore (.resetEpoch "e2")
    (some .syncDirectory)).2 (.resetEpoch "e2") rfl).2.2 rfl rfl |>.1 (by decide)⟩

end Push.Store
