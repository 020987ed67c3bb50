import InverterDashboard.Lib.Transition
import InverterDashboard.Push.Store

set_option relaxedAutoImplicit false
set_option autoImplicit false

/-!
# The store over whole runs

The store, the `Enqueue` calls that have passed their fast path and wait for the lock, and a log of
the keys whose recording reached the file. Between two steps the process may stop at any point and
start again from the file.

## Main definitions

* `Push.Call` — the arguments of an `Enqueue`.
* `Push.Built` — the calls that the processor makes.
* `Push.Service`, `Push.Service.step` — the system.

## Main results

* `Push.Service.Moved`, `Push.Service.step_moved` — what one step does to the store and the log.
-/

namespace Push

/-- The arguments of a call of `Enqueue`. -/
structure Call where
  payload : Payload
  epoch : String
  prime : Bool
  visit : Visit

/-- The call as an operation. -/
def Call.op (c : Call) : Op := .enqueue c.payload c.epoch c.prime c.visit

/-- The calls `Processor.Observe` makes at `now`: a native notification, which is not silent only
when it is current, or a synthetic event of that very instant. -/
inductive Built (L : Libs) (now : Instant) : Call → Prop
  | native {source id title body epoch : String} {occurred : Instant} {prime : Bool}
      {visit : Visit} :
      source = "victron" ∨ source = "system" →
      (prime = false →
        (makePayload L "native" source id title body occurred now).current now = true) →
      Built L now ⟨makePayload L "native" source id title body occurred now, epoch, prime, visit⟩
  | synthetic {kind key title body epoch : String} {visit : Visit} :
      kind ∈ ["ev", "water", "lowBattery"] →
      Built L now ⟨makePayload L kind "victron" key title body now now, epoch, false, visit⟩

/-- A key that an `Enqueue` recorded, silently or not. -/
structure Record where
  key : String
  prime : Bool
  deriving DecidableEq

/-- The record of a call. -/
def Call.record (c : Call) : Record := ⟨c.payload.eventKey, c.prime⟩

/-- Whether `mutate` puts the changed state into the file. -/
def Store.writes (L : Libs) (s : Store) (change : DiskState → Change) (fault : Option SaveFault) :
    Bool :=
  !s.unusable && decide ((change s.data).verdict = .changed) &&
    decide (L.storeSize (change s.data).data ≤ maxStoreBytes) && fault.all SaveFault.afterRename

/-- The store, the `Enqueue` calls between their fast path and `mutate`, and the recorded keys,
oldest first. -/
structure Service where
  store : Store
  waiting : List Call := []
  log : List Record := []

namespace Service

/-- The steps of the system. -/
inductive Event where
  /-- An operation other than `Enqueue`, run to completion. -/
  | call (op : Op) (fault : Option SaveFault)
  /-- `Enqueue` up to the end of its fast path. -/
  | enter (c : Call)
  /-- `mutate` of a waiting `Enqueue`. -/
  | resume (i : ℕ) (fault : Option SaveFault)
  /-- `Close`. -/
  | close
  /-- The process is gone and a new one loads the file. -/
  | restart

/-- One step. -/
def step (L : Libs) (s : Service) : Event → Option Service
  | .call (.enqueue _ _ _ _) _ => none
  | .call op fault => some { s with store := (s.store.perform L op fault).1 }
  | .enter c =>
    match c.op.accept L with
    | .error _ => some s
    | .ok _ =>
      match s.store.fastPath c.op with
      | some _ => some s
      | none => some { s with waiting := s.waiting ++ [c] }
  | .resume i fault =>
    match s.waiting[i]? with
    | none => none
    | some c => some
        { store := (s.store.mutate L (c.op.change L) fault).1
          waiting := s.waiting.eraseIdx i
          log := if s.store.writes L (c.op.change L) fault then s.log ++ [c.record] else s.log }
  | .close => some { s with store := s.store.close }
  | .restart => (Store.load L s.store.disk).map fun store =>
      { s with store := store, waiting := [] }

/-- A run starts with a new installation whose first save succeeded, or with a file that was
accepted. -/
inductive Init (L : Libs) : Service → Prop
  | fresh {privateKey publicKey : String} : L.validKeys privateKey publicKey = true →
      L.storeSize (Store.freshState privateKey publicKey) ≤ maxStoreBytes →
      Init L { store := { data := Store.freshState privateKey publicKey,
                          disk := Store.freshState privateKey publicKey } }
  | loaded {disk : DiskState} {store : Store} : Store.load L disk = some store →
      Init L { store := store }

/-! ## What one step does -/

end Service

theorem Store.load_eq_some {L : Libs} {disk : DiskState} {store : Store}
    (h : Store.load L disk = some store) :
    L.storeSize disk ≤ maxStoreBytes ∧ validDiskState L disk = true ∧
      store = { data := disk, disk := disk } := by
  unfold Store.load at h
  split_ifs at h with hc
  exact ⟨hc.1, hc.2, (Option.some.inj h).symm⟩

/-- What `mutate` does to the two states, in terms of what it wrote. -/
inductive Store.Kept (L : Libs) (s : Store) (next : DiskState) (wrote : Bool) (s' : Store) : Prop
  /-- Nothing was written. -/
  | same : wrote = false → s'.data = s.data → s'.disk = s.disk →
      (s'.failed = false → s.failed = false) → Kept L s next wrote s'
  /-- The new state was written and is in memory too. -/
  | saved : wrote = true → s.failed = false → s'.data = next → s'.disk = next →
      L.storeSize next ≤ maxStoreBytes → Kept L s next wrote s'
  /-- The new state was written and the store gave up. -/
  | written : wrote = true → s.failed = false → s'.data = s.data → s'.disk = next →
      s'.failed = true → L.storeSize next ≤ maxStoreBytes → Kept L s next wrote s'

theorem Store.failed_of_unusable {s : Store} (h : s.unusable = false) : s.failed = false := by
  simp only [Store.unusable, Bool.or_eq_false_iff] at h
  exact h.2

theorem Store.kept_mutate (L : Libs) (s : Store) (change : DiskState → Change)
    (fault : Option SaveFault) :
    Store.Kept L s (change s.data).data (s.writes L change fault) (s.mutate L change fault).1 := by
  unfold Store.writes
  generalize hr : s.mutate L change fault = r
  have hcases := s.mutate_cases L change fault
  rw [hr] at hcases
  cases hcases with
  | refused hu => exact .same (by simp [hu]) rfl rfl id
  | rejected hu hv => exact .same (by simp [hv]) rfl rfl id
  | unchanged hu hv => exact .same (by simp [hv]) rfl rfl id
  | unsaved hu hv hsave =>
    have hf := Store.failed_of_unusable hu
    have hsaved := s.save_cases L (change s.data).data fault
    rw [hsave] at hsaved
    cases hsaved with
    | before _ hfault =>
      refine .same ?_ rfl rfl (by simp)
      rcases hfault with hsize | hfault
      · simp [not_le.mpr hsize]
      · cases fault with
        | none => simp at hfault
        | some f => simp_all
    | after _ hsize hfault =>
      refine .written ?_ hf rfl rfl rfl hsize
      cases fault with
      | none => simp at hfault
      | some f => simp_all
  | saved hu hv hsave =>
    have hsaved := s.save_cases L (change s.data).data fault
    rw [hsave] at hsaved
    cases hsaved with
    | done hsize hfault =>
      exact .saved (by simp [hu, hv, hsize, hfault]) (Store.failed_of_unusable hu) rfl rfl hsize

namespace Service

/-- What one step does to the store and the log. -/
inductive Moved (L : Libs) (s : Service) : Event → Service → Prop
  /-- An operation that is not an `Enqueue`. -/
  | called {op op' : Op} {fault : Option SaveFault} {store : Store} :
      op.accept L = .ok op' → (∀ c : Call, op' ≠ c.op) →
      s.store.Kept L (op'.change L s.store.data).data
        (s.store.writes L (op'.change L) fault) store →
      (s.store.writes L (op'.change L) fault = true →
        (op'.change L s.store.data).verdict = .changed) →
      Moved L s (.call op fault) { s with store := store }
  /-- An operation whose arguments are refused. -/
  | refused {op : Op} {fault : Option SaveFault} : Moved L s (.call op fault) s
  /-- An `Enqueue` that its checks or its fast path ended. -/
  | skipped {c : Call} : Moved L s (.enter c) s
  /-- An `Enqueue` that waits for the lock. -/
  | entered {c : Call} : c.payload.size ≤ maxPayloadBytes →
      Moved L s (.enter c) { s with waiting := s.waiting ++ [c] }
  /-- `mutate` of an `Enqueue`. -/
  | resumed {i : ℕ} {fault : Option SaveFault} {c : Call} {store : Store} :
      s.waiting[i]? = some c →
      s.store.Kept L (c.op.change L s.store.data).data
        (s.store.writes L (c.op.change L) fault) store →
      (s.store.writes L (c.op.change L) fault = true →
        (c.op.change L s.store.data).verdict = .changed) →
      Moved L s (.resume i fault)
        { store := store
          waiting := s.waiting.eraseIdx i
          log := if s.store.writes L (c.op.change L) fault then s.log ++ [c.record] else s.log }
  /-- `Close`. -/
  | closed : Moved L s .close { s with store := s.store.close }
  /-- A new process. -/
  | restarted {store : Store} : Store.load L s.store.disk = some store →
      Moved L s .restart { s with store := store, waiting := [] }

theorem verdict_of_writes {L : Libs} {s : Store} {change : DiskState → Change}
    {fault : Option SaveFault} (h : s.writes L change fault = true) :
    (change s.data).verdict = .changed := by
  simp only [Store.writes, Bool.and_eq_true, decide_eq_true_eq] at h
  exact h.1.1.2

/-- An accepted operation that is no `Enqueue` goes through `mutate`. -/
theorem moved_perform (L : Libs) (s : Service) {op op' : Op} (fault : Option SaveFault)
    (hacc : op.accept L = .ok op') (hop : ∀ c : Call, op' ≠ c.op)
    (hfast : s.store.fastPath op' = none) :
    Moved L s (.call op fault) { s with store := (s.store.perform L op fault).1 } := by
  have hperform : s.store.perform L op fault = s.store.mutate L (op'.change L) fault := by
    unfold Store.perform
    rw [hacc]
    dsimp only
    rw [hfast]
  rw [hperform]
  exact .called hacc hop (s.store.kept_mutate L (op'.change L) fault) verdict_of_writes

theorem step_moved (L : Libs) {s s' : Service} {e : Event} (h : step L s e = some s') :
    Moved L s e s' := by
  cases e with
  | call op fault =>
    cases op with
    | enqueue payload epoch prime visit => simp [step] at h
    | register sub prefs =>
      obtain rfl := Option.some.inj h
      cases hsub : canonicalSubscription L sub with
      | none =>
        have hperform : (s.store.perform L (.register sub prefs) fault).1 = s.store := by
          simp [Store.perform, Op.accept, hsub]
        rw [hperform]
        exact .refused
      | some sub' =>
        have hacc : (Op.register sub prefs).accept L = .ok (.register sub' prefs) := by
          simp [Op.accept, hsub]
        exact moved_perform L s fault hacc (by simp [Call.op]) rfl
    | delete endpoint =>
      obtain rfl := Option.some.inj h
      exact moved_perform L s fault rfl (by simp [Call.op]) rfl
    | resetEpoch epoch =>
      obtain rfl := Option.some.inj h
      exact moved_perform L s fault rfl (by simp [Call.op]) rfl
    | queueTest endpoint now id =>
      obtain rfl := Option.some.inj h
      exact moved_perform L s fault rfl (by simp [Call.op]) rfl
    | pending now =>
      obtain rfl := Option.some.inj h
      exact moved_perform L s fault rfl (by simp [Call.op]) rfl
    | finish item status transient now =>
      obtain rfl := Option.some.inj h
      exact moved_perform L s fault rfl (by simp [Call.op]) rfl
  | enter c =>
    unfold step at h
    by_cases hsize : maxPayloadBytes < c.payload.size
    · simp only [Call.op, Op.accept, if_pos hsize] at h
      obtain rfl := Option.some.inj h
      exact .skipped
    · simp only [Call.op, Op.accept, if_neg hsize] at h
      split at h
      · obtain rfl := Option.some.inj h
        exact .skipped
      · obtain rfl := Option.some.inj h
        exact .entered (not_lt.mp hsize)
  | resume i fault =>
    unfold step at h
    cases hc : s.waiting[i]? with
    | none => simp [hc] at h
    | some c =>
      simp only [hc] at h
      obtain rfl := Option.some.inj h
      exact .resumed hc (s.store.kept_mutate L (c.op.change L) fault) verdict_of_writes
  | close =>
    obtain rfl := Option.some.inj h
    exact .closed
  | restart =>
    obtain ⟨store, hload, rfl⟩ := Option.map_eq_some_iff.mp h
    exact .restarted hload

@[simp] theorem close_data (s : Store) : s.close.data = s.data := by
  unfold Store.close
  split <;> rfl

@[simp] theorem close_disk (s : Store) : s.close.disk = s.disk := by
  unfold Store.close
  split <;> rfl

@[simp] theorem close_failed (s : Store) : s.close.failed = s.failed := by
  unfold Store.close
  split <;> rfl

end Service

end Push
