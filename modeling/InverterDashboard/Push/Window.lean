import InverterDashboard.Lib.Recent
import InverterDashboard.Push.Atomic

set_option relaxedAutoImplicit false
set_option autoImplicit false

/-!
# The window of recorded keys

The ring of keys in the file is the memory of the last 4096 recorded keys, across restarts, failed
saves and everything else that happens to the store. Hence a key is recorded again only after 4096
distinct others, and nothing but the recording of a key that is not silent queues a delivery of it.

## Main definitions

* `Push.Service.Windowed` — the ring as the memory of the log.
* `Push.Service.queued` — the deliveries in memory and in the file.

## Main results

* `Push.Service.windowed_step` — every step keeps the ring the memory of the log.
* `Push.Service.window_of_reachable` — the window, over whole runs.
-/

namespace Push

/-! ## What the change functions do to the ring and the queue -/

theorem pushKey_eq_last (dedupe : List String) (key : String) :
    pushKey dedupe key = Recent.last maxDedupe (dedupe ++ [key]) := rfl

/-- Only `Enqueue` touches the ring. -/
theorem Op.change_dedupe (L : Libs) {op : Op} (hop : ∀ c : Call, op ≠ c.op) (data : DiskState) :
    (op.change L data).data.dedupe = data.dedupe := by
  cases op with
  | register sub prefs =>
    show (registerChange L sub prefs data).data.dedupe = data.dedupe
    unfold registerChange
    dsimp only
    split_ifs <;> rfl
  | delete endpoint =>
    show (deleteChange L endpoint data).data.dedupe = data.dedupe
    unfold deleteChange
    dsimp only
    split_ifs <;> rfl
  | resetEpoch epoch => rfl
  | enqueue payload epoch prime visit => exact absurd rfl (hop ⟨payload, epoch, prime, visit⟩)
  | queueTest endpoint now id =>
    show (queueTestChange L endpoint id now data).data.dedupe = data.dedupe
    unfold queueTestChange
    dsimp only
    split
    · rfl
    · split_ifs <;> rfl
  | pending now => rfl
  | finish item status transient now =>
    show (finishChange item status transient now data).data.dedupe = data.dedupe
    unfold finishChange
    by_cases hany : (data.queue.any fun q => q.id = item.id ∧ q.attempts = item.attempts) = true
    · rw [if_pos hany]
    · rw [if_neg hany]

/-- An `Enqueue` that changes the state was for the current epoch, its key is new and becomes the
latest of the ring, and the deliveries it queues, if it is not silent, carry its payload. -/
theorem Call.change_spec (L : Libs) {c : Call} {data : DiskState}
    (hch : (c.op.change L data).verdict = .changed) :
    c.payload.eventKey ∉ data.dedupe ∧
      (c.op.change L data).data.dedupe = pushKey data.dedupe c.payload.eventKey ∧
      ∀ item ∈ (c.op.change L data).data.queue,
        item ∈ data.queue ∨ c.prime = false ∧ item.payload = c.payload := by
  obtain ⟨-, hkey, hdata, -⟩ := enqueueChange_spec hch
  generalize pushKey data.dedupe c.payload.eventKey = ring at hdata ⊢
  have hring : (c.op.change L data).data.dedupe = ring := congrArg DiskState.dedupe hdata
  have hqueue : (c.op.change L data).data.queue = data.queue ++ if c.prime then [] else
      added c.payload c.epoch (c.visit.order data.subscriptions.entries) :=
    congrArg DiskState.queue hdata
  refine ⟨hkey, hring, fun item hitem => ?_⟩
  rw [hqueue] at hitem
  rcases List.mem_append.mp hitem with hold | hnew
  · exact Or.inl hold
  · split_ifs at hnew with hprime
    · exact absurd hnew (by simp)
    · obtain ⟨e, -, rfl⟩ := List.mem_map.mp hnew
      exact Or.inr ⟨by simpa using hprime, rfl⟩

/-- The other operations queue nothing, `QueueTest` apart. -/
theorem Op.change_queue (L : Libs) {op : Op} (hop : ∀ c : Call, op ≠ c.op)
    (htest : ∀ endpoint now id, op ≠ .queueTest endpoint now id) (data : DiskState) :
    ∀ item ∈ (op.change L data).data.queue,
      ∃ old ∈ data.queue, old.id = item.id ∧ old.payload = item.payload := by
  intro item hitem
  cases op with
  | register sub prefs =>
    change item ∈ (registerChange L sub prefs data).data.queue at hitem
    unfold registerChange at hitem
    dsimp only at hitem
    split_ifs at hitem
    · exact ⟨item, hitem, rfl, rfl⟩
    · exact ⟨item, hitem, rfl, rfl⟩
    · exact ⟨item, List.mem_of_mem_filter hitem, rfl, rfl⟩
  | delete endpoint =>
    change item ∈ (deleteChange L endpoint data).data.queue at hitem
    unfold deleteChange at hitem
    dsimp only at hitem
    split_ifs at hitem
    · exact ⟨item, hitem, rfl, rfl⟩
    · exact ⟨item, List.mem_of_mem_filter hitem, rfl, rfl⟩
  | resetEpoch epoch => exact ⟨item, List.mem_of_mem_filter hitem, rfl, rfl⟩
  | enqueue payload epoch prime visit => exact absurd rfl (hop ⟨payload, epoch, prime, visit⟩)
  | queueTest endpoint now id => exact absurd rfl (htest endpoint now id)
  | pending now => exact ⟨item, List.mem_of_mem_filter hitem, rfl, rfl⟩
  | finish done status transient now =>
    change item ∈ (finishChange done status transient now data).data.queue at hitem
    unfold finishChange at hitem
    by_cases hany : (data.queue.any fun q => q.id = done.id ∧ q.attempts = done.attempts) = true
    · rw [if_pos hany] at hitem
      obtain ⟨old, hold, hq⟩ := List.mem_filterMap.mp hitem
      obtain ⟨-, rfl | ⟨-, next, -, rfl⟩⟩ := finishItem_eq_some hq
      · exact ⟨item, hold, rfl, rfl⟩
      · exact ⟨old, hold, rfl, rfl⟩
    · rw [if_neg hany] at hitem
      exact ⟨item, hitem, rfl, rfl⟩

namespace Service

/-! ## The ring is the memory of the log -/

/-- The recorded keys. -/
def keys (s : Service) : List String := s.log.map Record.key

/-- The deliveries in memory and in the file. -/
def queued (s : Service) : List Delivery := s.store.data.queue ++ s.store.disk.queue

/-- The ring in the file holds the last recorded keys, and the ring in memory is the same unless a
save has failed. `base` is the ring at the start of the run. -/
structure Windowed (base : List String) (s : Service) : Prop where
  ring : s.store.disk.dedupe = Recent.last maxDedupe (base ++ s.keys)
  nodup : s.store.disk.dedupe.Nodup
  synced : s.store.failed = false → s.store.data.dedupe = s.store.disk.dedupe
  spaced : Recent.Spaced maxDedupe s.keys

theorem windowed_of_init {L : Libs} {s : Service} (h : Init L s) : ∃ base, Windowed base s := by
  cases h with
  | fresh _ _ =>
    refine ⟨[], ?_, List.nodup_nil, fun _ => rfl, Recent.Spaced.nil _⟩
    simp [keys, Recent.last, Store.freshState]
  | @loaded disk store hload =>
    obtain ⟨-, hvalid, rfl⟩ := Store.load_eq_some hload
    have hvalid := (valid_iff L _).mp hvalid
    refine ⟨disk.dedupe, ?_, hvalid.dedupe_nodup, fun _ => rfl, Recent.Spaced.nil _⟩
    have hnil : keys { store := { data := disk, disk := disk } } = [] := rfl
    rw [hnil, List.append_nil, Recent.last_of_length_le hvalid.dedupe_le]

/-- A step that leaves the log and the rings alone. -/
theorem Windowed.keep {base : List String} {s s' : Service} (h : Windowed base s)
    (hlog : s'.log = s.log) (hdisk : s'.store.disk.dedupe = s.store.disk.dedupe)
    (hdata : s'.store.failed = false → s'.store.data.dedupe = s.store.disk.dedupe) :
    Windowed base s' where
  ring := by
    unfold keys
    rw [hlog, hdisk]
    exact h.ring
  nodup := by
    rw [hdisk]
    exact h.nodup
  synced hf := by rw [hdata hf, hdisk]
  spaced := by
    unfold keys
    rw [hlog]
    exact h.spaced

/-- A step that records a key the ring does not hold. -/
theorem Windowed.push {base : List String} {s s' : Service} (h : Windowed base s) {r : Record}
    (hnew : r.key ∉ s.store.disk.dedupe) (hlog : s'.log = s.log ++ [r])
    (hdisk : s'.store.disk.dedupe = pushKey s.store.disk.dedupe r.key)
    (hdata : s'.store.failed = false → s'.store.data.dedupe = s'.store.disk.dedupe) :
    Windowed base s' := by
  have hkeys : s'.keys = s.keys ++ [r.key] := by
    unfold keys
    rw [hlog, List.map_append]
    rfl
  refine ⟨?_, ?_, hdata, ?_⟩
  · rw [hdisk, pushKey_eq_last, h.ring, Recent.last_append_last, hkeys, List.append_assoc]
  · rw [hdisk]
    exact (pushKey_spec hnew h.nodup).2.1
  · rw [hkeys]
    have hring := h.ring
    have hnodup := h.nodup
    rw [hring] at hnew hnodup
    exact h.spaced.append base hnew hnodup

/-- **Every step keeps the ring the memory of the log.** -/
theorem windowed_step (L : Libs) {base : List String} {s s' : Service} {e : Event}
    (h : Windowed base s) (hs : step L s e = some s') : Windowed base s' := by
  cases step_moved L hs with
  | @called op op' fault store hacc hop hkept hch =>
    cases hkept with
    | same _ hdata hdisk hf =>
      refine h.keep rfl (by rw [hdisk]) fun hfailed => ?_
      show store.data.dedupe = _
      rw [hdata]
      exact h.synced (hf hfailed)
    | saved _ hf hdata hdisk _ =>
      have hnext := (Op.change_dedupe L hop s.store.data).trans (h.synced hf)
      exact h.keep rfl (by rw [hdisk, hnext]) fun _ => by rw [hdata, hnext]
    | written _ hf hdata hdisk hfailed _ =>
      have hnext := (Op.change_dedupe L hop s.store.data).trans (h.synced hf)
      exact h.keep rfl (by rw [hdisk, hnext]) fun hf' => absurd (hfailed.symm.trans hf') (by simp)
  | refused => exact h
  | skipped => exact h
  | entered _ => exact ⟨h.ring, h.nodup, h.synced, h.spaced⟩
  | @resumed i fault c store hc hkept hch =>
    cases hkept with
    | same hw hdata hdisk hf =>
      refine h.keep (if_neg (by simp [hw])) (by rw [hdisk]) fun hfailed => ?_
      show store.data.dedupe = _
      rw [hdata]
      exact h.synced (hf hfailed)
    | saved hw hf hdata hdisk _ =>
      obtain ⟨hnew, hring, -⟩ := Call.change_spec L (hch hw)
      rw [h.synced hf] at hnew hring
      refine h.push hnew (if_pos hw) ?_ fun _ => ?_
      · rw [hdisk, hring]
        rfl
      · show store.data.dedupe = store.disk.dedupe
        rw [hdata, hdisk]
    | written hw hf hdata hdisk hfailed _ =>
      obtain ⟨hnew, hring, -⟩ := Call.change_spec L (hch hw)
      rw [h.synced hf] at hnew hring
      refine h.push hnew (if_pos hw) ?_ fun hf' => absurd (hfailed.symm.trans hf') (by simp)
      rw [hdisk, hring]
      rfl
  | closed =>
    refine h.keep rfl (by rw [close_disk]) fun hf => ?_
    rw [close_data]
    exact h.synced (by simpa using hf)
  | restarted hload =>
    obtain ⟨-, -, rfl⟩ := Store.load_eq_some hload
    exact h.keep rfl rfl fun _ => rfl

/-! ## What enters the queue -/

/-- The step is not a `QueueTest`, which queues a delivery of its own. -/
def Event.isTest : Event → Bool
  | .call (.queueTest _ _ _) _ => true
  | _ => false

theorem mem_queued_iff {s : Service} {item : Delivery} :
    item ∈ s.queued ↔ item ∈ s.store.data.queue ∨ item ∈ s.store.disk.queue := List.mem_append

/-- What is queued after `mutate` was queued before, or is in the new state. -/
theorem Store.Kept.queue {L : Libs} {s store : Store} {next : DiskState} {wrote : Bool}
    (h : s.Kept L next wrote store) {item : Delivery}
    (hitem : item ∈ store.data.queue ∨ item ∈ store.disk.queue) :
    item ∈ s.data.queue ∨ item ∈ s.disk.queue ∨ wrote = true ∧ item ∈ next.queue := by
  cases h with
  | same _ hdata hdisk _ =>
    rw [hdata, hdisk] at hitem
    exact hitem.imp_right Or.inl
  | saved hw _ hdata hdisk _ =>
    rw [hdata, hdisk, or_self] at hitem
    exact Or.inr (Or.inr ⟨hw, hitem⟩)
  | written hw _ hdata hdisk _ _ =>
    rw [hdata, hdisk] at hitem
    exact hitem.imp_right fun h => Or.inr ⟨hw, h⟩

/-- **Deliveries enter with their record**: what a step other than `QueueTest` leaves queued was
queued before, or the step recorded its key, and not silently. -/
theorem entered_of_step (L : Libs) {s s' : Service} {e : Event} (hs : step L s e = some s')
    (he : e.isTest = false) {item : Delivery} (hitem : item ∈ s'.queued) :
    (∃ old ∈ s.queued, old.id = item.id ∧ old.payload = item.payload) ∨
      s'.log = s.log ++ [⟨item.payload.eventKey, false⟩] := by
  cases step_moved L hs with
  | @called op op' fault store hacc hop hkept hch =>
    left
    rcases Store.Kept.queue hkept (mem_queued_iff.mp hitem) with hold | hold | ⟨-, hnew⟩
    · exact ⟨item, mem_queued_iff.mpr (Or.inl hold), rfl, rfl⟩
    · exact ⟨item, mem_queued_iff.mpr (Or.inr hold), rfl, rfl⟩
    · have htest : ∀ endpoint now id, op' ≠ .queueTest endpoint now id := by
        rintro endpoint now id rfl
        cases op with
        | queueTest => simp [Event.isTest] at he
        | register sub prefs =>
          simp only [Op.accept] at hacc
          split at hacc <;> cases hacc
        | enqueue payload epoch prime visit =>
          simp only [Op.accept] at hacc
          split at hacc <;> cases hacc
        | delete => cases hacc
        | resetEpoch => cases hacc
        | pending => cases hacc
        | finish => cases hacc
      obtain ⟨old, hold, hid, hpayload⟩ := Op.change_queue L hop htest s.store.data item hnew
      exact ⟨old, mem_queued_iff.mpr (Or.inl hold), hid, hpayload⟩
  | refused => exact Or.inl ⟨item, hitem, rfl, rfl⟩
  | skipped => exact Or.inl ⟨item, hitem, rfl, rfl⟩
  | entered _ => exact Or.inl ⟨item, hitem, rfl, rfl⟩
  | @resumed i fault c store hc hkept hch =>
    rcases Store.Kept.queue hkept (mem_queued_iff.mp hitem) with hold | hold | ⟨hw, hnew⟩
    · exact Or.inl ⟨item, mem_queued_iff.mpr (Or.inl hold), rfl, rfl⟩
    · exact Or.inl ⟨item, mem_queued_iff.mpr (Or.inr hold), rfl, rfl⟩
    · rcases (Call.change_spec L (hch hw)).2.2 item hnew with hold | ⟨hprime, hpayload⟩
      · exact Or.inl ⟨item, mem_queued_iff.mpr (Or.inl hold), rfl, rfl⟩
      · right
        rw [if_pos hw, hpayload, ← hprime]
        rfl
  | closed =>
    refine Or.inl ⟨item, ?_, rfl, rfl⟩
    rw [mem_queued_iff] at hitem ⊢
    simpa using hitem
  | restarted hload =>
    obtain ⟨-, -, rfl⟩ := Store.load_eq_some hload
    rw [mem_queued_iff, or_self] at hitem
    exact Or.inl ⟨item, mem_queued_iff.mpr (Or.inr hitem), rfl, rfl⟩

/-! ## The window -/

theorem windowed_of_reachable {L : Libs} {s : Service}
    (h : Transition.Reachable (step L) (fun _ _ => True) (Init L) s) : ∃ base, Windowed base s := by
  refine h.invariant (I := fun t => ∃ base, Windowed base t) (fun _ => windowed_of_init) ?_
  rintro t e t' ⟨base, ht⟩ - hs
  exact ⟨base, windowed_step L ht hs⟩

/-- **The window of recorded keys.** In every run of the store, over restarts, failures and all
interleavings of `Enqueue` calls: two records of one key have 4096 distinct other keys between them;
while fewer than 4096 distinct others followed the record of a key, silent or not, no step but a
`QueueTest` queues a delivery of that key; and the fast path of an `Enqueue` answers what `mutate`
would answer at that instant, without a change.

**Proof sketch.** By `windowed_step` the ring is the memory of the log in every reachable state, so
`Recent.Spaced` holds of the log. A delivery that enters comes with the record of its key
(`entered_of_step`), and the longer log is spaced too. -/
theorem window_of_reachable {L : Libs} {s : Service}
    (h : Transition.Reachable (step L) (fun _ _ => True) (Init L) s) :
    (∀ pre key mid post, s.keys = pre ++ key :: (mid ++ key :: post) →
      4096 ≤ (mid.toFinset.erase key).card) ∧
    (∀ pre r post, s.log = pre ++ r :: post →
      ((post.map Record.key).toFinset.erase r.key).card < 4096 →
      ∀ e s', step L s e = some s' → e.isTest = false → ∀ item ∈ s'.queued,
        item.payload.eventKey = r.key →
        ∃ old ∈ s.queued, old.id = item.id ∧ old.payload = item.payload) ∧
    (∀ (c : Call) (result : Option PushError) (fault : Option SaveFault),
      s.store.fastPath c.op = some result →
      s.store.mutate L (c.op.change L) fault = (s.store, result)) := by
  refine ⟨?_, ?_, fun c result fault hfast => Store.mutate_of_fastPath hfast fault⟩
  · obtain ⟨base, hw⟩ := windowed_of_reachable h
    exact hw.spaced
  · intro pre r post hlog hcard e s' hs he item hitem hkey
    rcases entered_of_step L hs he hitem with hold | hrec
    · exact hold
    · obtain ⟨base, hw⟩ := windowed_of_reachable (h.next trivial hs)
      have hspaced := hw.spaced
      unfold keys at hspaced
      rw [hrec, hlog, List.map_append, List.map_append, List.map_cons] at hspaced
      exact absurd hkey (hspaced.ne_of_card_lt hcard)

theorem window_of_reachable_recorded :
    ∃ s : Service, s.log = [sampleCall.record] ∧ s.queued.length = 2 ∧
      ∀ e s', step sampleLibs s e = some s' → e.isTest = false → ∀ item ∈ s'.queued,
        item.payload.eventKey = sampleCall.record.key →
        ∃ old ∈ s.queued, old.id = item.id ∧ old.payload = item.payload := by
  have hinit : Init sampleLibs { store := { data := sampleState, disk := sampleState } } :=
    init_of_valid (by decide) (by decide)
  obtain ⟨s, hreach, hp⟩ := Transition.Reachable.exists_of_run (step sampleLibs) (fun _ _ => True)
    [.enter sampleCall, .resume 0 none]
    (fun s => decide (s.log = [sampleCall.record] ∧ s.queued.length = 2)) hinit
    ⟨trivial, fun _ _ => ⟨trivial, fun _ _ => trivial⟩⟩ (by decide +kernel)
  obtain ⟨hlog, hlen⟩ := of_decide_eq_true hp
  exact ⟨s, hlog, hlen, (window_of_reachable hreach).2.1 [] sampleCall.record [] hlog (by simp)⟩

end Service

end Push
