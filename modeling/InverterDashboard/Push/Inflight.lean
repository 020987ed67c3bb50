import InverterDashboard.Push.Atomic
import InverterDashboard.Push.Dispatcher

set_option relaxedAutoImplicit false
set_option autoImplicit false

/-!
# Deliveries in flight

Every gap between a worker's look at the store and its request is covered: the operation that takes
the delivery out of the queue cancels the registered context in the same critical section, and the
last look comes after the registration. `finish` takes away one of the attempts that the last look
has found.

## Main definitions

* `Push.Store.Covers` — what the store owes to a worker.
* `Push.budget` — the attempts that the queued deliveries of an identifier have left.

## Main results

* `Push.Store.Covers.mutate` — a mutation keeps a worker's delivery in order or cancels its context.
* `Push.budget_shifted`, `Push.budget_dropped`, `Push.budget_finish` — what a mutation does to the
  budget.
-/

namespace Push

/-! ## What a mutation keeps -/

/-- The deliveries that an operation would queue are named. -/
def Op.Names (L : Libs) (about : About) (data : DiskState) : Op → Prop
  | .enqueue payload epoch _ _ =>
    ∀ item ∈ added payload epoch data.subscriptions.entries, item.Named about
  | .queueTest endpoint now id =>
    (deliveryOf (testPayload L id now) "" (subscriptionID L endpoint)).Named about
  | _ => True

section Change

variable {L : Libs} {about : About} {data : DiskState} {op : Op}

/-- `finish` leaves the identifiers and the events alone. -/
theorem finishChange_mem {item q : Delivery} {status : ℤ} {transient : Bool} {now : Instant}
    (h : q ∈ (finishChange item status transient now data).data.queue) :
    ∃ old ∈ data.queue, q = old ∨
      old.id = item.id ∧ old.attempts < 2 ∧ ∃ next,
        q = { old with attempts := old.attempts + 1, nextAttemptMS := next } := by
  unfold finishChange at h
  by_cases hany : (data.queue.any fun q => q.id = item.id ∧ q.attempts = item.attempts) = true
  · rw [if_pos hany] at h
    obtain ⟨old, hold, hq⟩ := List.mem_filterMap.mp h
    refine ⟨old, hold, ?_⟩
    by_cases hid : old.id = item.id
    · obtain ⟨-, rfl | ⟨hlt, next, -, rfl⟩⟩ := finishItem_eq_some hq
      · exact Or.inl rfl
      · exact Or.inr ⟨hid, hlt, next, rfl⟩
    · left
      unfold finishItem at hq
      rw [if_pos hid] at hq
      split_ifs at hq <;> exact (Option.some.inj hq).symm
  · rw [if_neg hany] at h
    exact ⟨q, h, Or.inl rfl⟩

/-- Where the deliveries of the new state come from. -/
theorem Op.change_mem (hch : (op.change L data).verdict = .changed) {q : Delivery}
    (hq : q ∈ (op.change L data).data.queue) :
    q ∈ data.queue ∨
      (∃ payload epoch prime visit, op = .enqueue payload epoch prime visit ∧ epoch = data.epoch ∧
        q ∈ added payload epoch data.subscriptions.entries) ∨
      (∃ endpoint now id, op = .queueTest endpoint now id ∧
        q = deliveryOf (testPayload L id now) "" (subscriptionID L endpoint)) ∨
      ∃ old ∈ data.queue, old.attempts < 2 ∧ ∃ next,
        q = { old with attempts := old.attempts + 1, nextAttemptMS := next } := by
  cases op with
  | register sub prefs =>
    change (registerChange L sub prefs data).verdict = .changed at hch
    change q ∈ (registerChange L sub prefs data).data.queue at hq
    rw [(registerChange_spec hch).2] at hq
    exact Or.inl (List.mem_of_mem_filter hq)
  | delete endpoint =>
    change (deleteChange L endpoint data).verdict = .changed at hch
    change q ∈ (deleteChange L endpoint data).data.queue at hq
    rw [deleteChange_spec hch] at hq
    exact Or.inl (List.mem_of_mem_filter hq)
  | resetEpoch epoch => exact Or.inl (List.mem_of_mem_filter hq)
  | enqueue payload epoch prime visit =>
    obtain ⟨hepoch, -, hdata, -⟩ := enqueueChange_spec hch
    have hqueue : ((Op.enqueue payload epoch prime visit).change L data).data.queue = data.queue ++
        if prime then [] else added payload epoch (visit.order data.subscriptions.entries) :=
      congrArg DiskState.queue hdata
    rw [hqueue] at hq
    rcases List.mem_append.mp hq with hold | hnew
    · exact Or.inl hold
    · right
      left
      split_ifs at hnew
      · exact absurd hnew (by simp)
      · have hperm : (visit.order data.subscriptions.entries).Perm data.subscriptions.entries :=
          visit.perm _
        exact ⟨payload, epoch, prime, visit, rfl, hepoch.symm,
          ((hperm.filter _).map _).subset hnew⟩
  | queueTest endpoint now id =>
    change (queueTestChange L endpoint id now data).verdict = .changed at hch
    change q ∈ (queueTestChange L endpoint id now data).data.queue at hq
    obtain ⟨sub, -, -, -, -, hdata⟩ := queueTestChange_eq hch
    rw [hdata] at hq
    rcases List.mem_append.mp hq with hold | hnew
    · exact Or.inl hold
    · exact Or.inr (Or.inr (Or.inl ⟨endpoint, now, id, rfl, List.mem_singleton.mp hnew⟩))
  | pending now => exact Or.inl (List.mem_of_mem_filter hq)
  | finish item status transient now =>
    obtain ⟨old, hold, rfl | ⟨-, hlt, next, rfl⟩⟩ := finishChange_mem hq
    · exact Or.inl hold
    · exact Or.inr (Or.inr (Or.inr ⟨old, hold, hlt, next, rfl⟩))

/-- The names stay. -/
theorem Op.change_named (hnames : ∀ q ∈ data.queue, q.Named about) (hop : op.Names L about data)
    (hch : (op.change L data).verdict = .changed) :
    ∀ q ∈ (op.change L data).data.queue, q.Named about := by
  intro q hq
  rcases Op.change_mem hch hq with hold | ⟨payload, epoch, prime, visit, rfl, -, hnew⟩ |
    ⟨endpoint, now, id, rfl, rfl⟩ | ⟨old, hold, -, next, rfl⟩
  · exact hnames q hold
  · exact hop q hnew
  · exact hop
  · exact hnames old hold

/-- The epoch only changes in `ResetEpoch`, which leaves nothing but tests. -/
theorem Op.change_epoch (hch : (op.change L data).verdict = .changed) :
    (op.change L data).data.epoch = data.epoch ∨
      ∀ q ∈ (op.change L data).data.queue, q.payload.kind = "test" := by
  cases op with
  | register sub prefs =>
    left
    show (registerChange L sub prefs data).data.epoch = data.epoch
    rw [(registerChange_spec hch).2]
  | delete endpoint =>
    left
    show (deleteChange L endpoint data).data.epoch = data.epoch
    rw [deleteChange_spec hch]
  | resetEpoch epoch =>
    right
    intro q hq
    simpa using (List.mem_filter.mp hq).2
  | enqueue payload epoch prime visit =>
    left
    obtain ⟨-, -, hdata, -⟩ := enqueueChange_spec hch
    generalize pushKey data.dedupe payload.eventKey = ring at hdata
    show (enqueueChange payload epoch prime visit data).data.epoch = data.epoch
    rw [hdata]
  | queueTest endpoint now id =>
    left
    show (queueTestChange L endpoint id now data).data.epoch = data.epoch
    obtain ⟨sub, -, -, -, -, hdata⟩ := queueTestChange_eq hch
    rw [hdata]
  | pending now => exact Or.inl rfl
  | finish item status transient now =>
    left
    show (finishChange item status transient now data).data.epoch = data.epoch
    rw [(finishChange_spec hch).2]

theorem Op.change_trimmed (htrim : data.Trimmed) (hch : (op.change L data).verdict = .changed) :
    (op.change L data).data.Trimmed := by
  intro q hq
  have hepoch : q.payload.kind = "test" ∨ q.epoch = data.epoch →
      q.payload.kind = "test" ∨ q.epoch = (op.change L data).data.epoch := by
    intro hold
    rcases Op.change_epoch hch with heq | htest
    · rw [heq]
      exact hold
    · exact Or.inl (htest q hq)
  rcases Op.change_mem hch hq with hold | ⟨payload, epoch, prime, visit, -, hcur, hnew⟩ |
    ⟨endpoint, now, id, -, rfl⟩ | ⟨old, hold, hlt, next, rfl⟩
  · exact ⟨(htrim q hold).1, hepoch (htrim q hold).2⟩
  · obtain ⟨e, -, rfl⟩ := List.mem_map.mp hnew
    exact ⟨zero_lt_three, hepoch (Or.inr hcur)⟩
  · exact ⟨zero_lt_three, Or.inl (makePayload_members L _ _ _ _ _ _ _).2.1⟩
  · refine ⟨?_, hepoch (htrim old hold).2⟩
    dsimp only
    omega

end Change

/-! ## What the store owes to a worker -/

/-- The context of a worker is cancelled. -/
def Store.Cancels (s : Store) (stopped : Bool) (w : Worker) : Prop :=
  w.context ∈ s.cancelled ∨ stopped = true

/-- A registered context is cancelled or still registered; after the last look the delivery still
passes the check or the context is cancelled. -/
structure Store.Covers (s : Store) (stopped : Bool) (w : Worker) : Prop where
  active : w.phase.registers = true → s.Cancels stopped w ∨ (w.item.id, w.context) ∈ s.active
  age : w.phase.checked = true → w.item.payload.current w.checkedAt = true
  holds : w.phase.checked = true → s.holds w.item = true ∨ s.Cancels stopped w

theorem Phase.registers_of_checked {p : Phase} (h : p.checked = true) : p.registers = true := by
  cases p <;> first | rfl | exact absurd h (by decide)

/-- A worker that has no registered context is owed nothing. -/
theorem Store.Covers.of_idle {s : Store} {stopped : Bool} {w : Worker}
    (h : w.phase.registers = false) : s.Covers stopped w := by
  have hchecked : w.phase.checked ≠ true := by
    intro hc
    rw [Phase.registers_of_checked hc] at h
    exact absurd h (by simp)
  exact ⟨fun hr => absurd (h.symm.trans hr) (by simp), fun hc => absurd hc hchecked,
    fun hc => absurd hc hchecked⟩

theorem mem_retired {s : Store} {data : DiskState} {id : String} {context : ℕ}
    (h : (id, context) ∈ s.active) (hnone : withID id data.queue = []) :
    context ∈ s.retired data := by
  unfold Store.retired
  rw [List.mem_toFinset, List.mem_map]
  refine ⟨(id, context), List.mem_filter.mpr ⟨h, ?_⟩, rfl⟩
  rw [List.all_eq_true]
  intro q hq
  have hne : q.id ≠ id := by
    intro hid
    have hmem := mem_withID.mpr ⟨hq, hid⟩
    rw [hnone] at hmem
    exact absurd hmem (by simp)
  exact decide_eq_true hne

/-- **A mutation covers a worker.** It keeps the worker's delivery in order, or it cancels the
worker's context in the same critical section.

**Proof sketch.** An operation that is refused or changes nothing leaves the store as it is. A
failed `save` cancels every registered context. A successful one cancels those whose identifier is
not queued any more; if the worker's is still queued, its delivery passes the check as before. -/
theorem Store.Covers.mutate {L : Libs} {about : About} {s : Store} {stopped : Bool} {w : Worker}
    (h : s.Covers stopped w) (hnames : ∀ q ∈ s.data.queue, q.Named about)
    (hitem : w.item.Named about) (htrim : s.data.Trimmed) {op : Op}
    (hfinish : w.phase.registers = true → ∀ done status transient now,
      op = .finish done status transient now → done.id ≠ w.item.id)
    (fault : Option SaveFault) : (s.mutate L (op.change L) fault).1.Covers stopped w := by
  generalize hr : s.mutate L (op.change L) fault = r
  have hcases := s.mutate_cases L (op.change L) fault
  rw [hr] at hcases
  cases hcases with
  | refused _ => exact h
  | rejected _ _ => exact h
  | unchanged _ _ => exact h
  | @unsaved disk e hu hv hsave =>
    have hcancel : w.phase.registers = true → Store.Cancels { s with
        disk := disk
        failed := true
        cancelled := s.cancelled ∪ (s.active.map Prod.snd).toFinset } stopped w := by
      intro hreg
      rcases h.active hreg with (hc | hc) | hactive
      · exact Or.inl (Finset.mem_union_left _ hc)
      · exact Or.inr hc
      · exact Or.inl (Finset.mem_union_right _
          (List.mem_toFinset.mpr (List.mem_map_of_mem hactive)))
    exact ⟨fun hreg => Or.inl (hcancel hreg), h.age,
      fun hc => Or.inr (hcancel (Phase.registers_of_checked hc))⟩
  | @saved disk hu hv hsave =>
    -- the context is cancelled, or the identifier is still queued and the context registered
    have hactive : w.phase.registers = true →
        (w.context ∈ s.cancelled ∪ s.retired (op.change L s.data).data ∨ stopped = true) ∨
        withID w.item.id (op.change L s.data).data.queue ≠ [] ∧
        (w.item.id, w.context) ∈ s.active := by
      intro hreg
      rcases h.active hreg with (hc | hc) | hmem
      · exact Or.inl (Or.inl (Finset.mem_union_left _ hc))
      · exact Or.inl (Or.inr hc)
      · by_cases hnone : withID w.item.id (op.change L s.data).data.queue = []
        · exact Or.inl (Or.inl (Finset.mem_union_right _ (mem_retired hmem hnone)))
        · exact Or.inr ⟨hnone, hmem⟩
    refine ⟨fun hreg => ?_, h.age, fun hc => ?_⟩
    · rcases hactive hreg with hcancel | ⟨hsome, hmem⟩
      · exact Or.inl hcancel
      · right
        obtain ⟨q, hq⟩ := List.exists_mem_of_ne_nil _ hsome
        obtain ⟨hqueue, hid⟩ := mem_withID.mp hq
        exact List.mem_filter.mpr ⟨hmem, List.any_eq_true.mpr ⟨q, hqueue, decide_eq_true hid⟩⟩
    · have hreg := Phase.registers_of_checked hc
      rcases hactive hreg with hcancel | ⟨hsome, -⟩
      · exact Or.inr hcancel
      · rcases h.holds hc with hholds | hcancel
        · simp only [Store.holds, hu, Bool.not_false, Bool.true_and] at hholds
          rcases DiskState.holds_change L hnames hitem htrim hholds (hfinish hreg) hv with
            hnew | hnil
          · left
            simp only [Store.holds, Store.unusable] at hu ⊢
            rw [hu]
            exact hnew
          · exact absurd hnil hsome
        · exact Or.inr (hcancel.imp_left (Finset.mem_union_left _))

/-! ## The budget of an identifier -/

/-- The attempts a delivery has left. -/
def Delivery.left (q : Delivery) : ℕ := (3 - q.attempts).toNat

/-- The attempts that the queued deliveries of an identifier have left. -/
def budget (id : String) (queue : List Delivery) : ℕ := ((withID id queue).map Delivery.left).sum

theorem budget_of_nil {id : String} {queue : List Delivery} (h : withID id queue = []) :
    budget id queue = 0 := by
  simp [budget, h]

theorem left_pos {q : Delivery} (h : q.attempts < 3) : 0 < q.left := by
  unfold Delivery.left
  omega

theorem sum_left_of_zero {new : List Delivery} (h : ∀ q ∈ new, q.attempts = 0) :
    (new.map Delivery.left).sum = 3 * new.length := by
  induction new with
  | nil => rfl
  | cons q new ih =>
    have hq : q.left = 3 := by
      unfold Delivery.left
      rw [h q List.mem_cons_self]
      rfl
    rw [List.map_cons, List.sum_cons, hq, ih fun q' hq' => h q' (List.mem_cons_of_mem _ hq'),
      List.length_cons]
    omega

theorem sum_left_sublist {l l' : List Delivery} (h : l'.Sublist l) :
    (l'.map Delivery.left).sum ≤ (l.map Delivery.left).sum :=
  (h.map Delivery.left).sum_le_sum (by simp)

/-- A mutation adds three attempts for each admitted delivery, at most. -/
theorem budget_shifted {id : String} {queue queue' : List Delivery} (h : Shifted id queue queue') :
    budget id queue' ≤
      budget id queue + 3 * ((withID id queue').length - (withID id queue).length) := by
  unfold budget
  rcases h with hsub | ⟨new, hnew, hzero⟩
  · exact (sum_left_sublist hsub).trans (Nat.le_add_right _ _)
  · rw [hnew, List.map_append, List.sum_append, sum_left_of_zero hzero, List.length_append]
    omega

/-- A mutation that takes away the last delivery with some number of attempts takes away budget. -/
theorem budget_dropped {id : String} {queue queue' : List Delivery} (h : Shifted id queue queue')
    {q : Delivery} (hq : q ∈ queue) (hid : q.id = id) (hatt : q.attempts < 3)
    (hgone : ∀ q' ∈ queue', q'.id = id → q'.attempts ≠ q.attempts) :
    budget id queue' + 1 ≤ budget id queue ∧
      (withID id queue').length ≤ (withID id queue).length := by
  have hmem : q ∈ withID id queue := mem_withID.mpr ⟨hq, hid⟩
  rcases h with hsub | ⟨new, hnew, -⟩
  · refine ⟨?_, hsub.length_le⟩
    have hnot : q ∉ withID id queue' := fun hq' =>
      hgone q (mem_withID.mp hq').1 hid rfl
    -- the rest is still part of what was there without `q`
    have hrest : (withID id queue').Sublist ((withID id queue).erase q) := by
      have herase := hsub.erase q
      rwa [List.erase_of_not_mem hnot] at herase
    have hsum := sum_left_sublist hrest
    have hperm := (List.perm_cons_erase hmem).map Delivery.left
    have hsplit := hperm.sum_eq
    rw [List.map_cons, List.sum_cons] at hsplit
    have hpos := left_pos hatt
    unfold budget
    omega
  · have hmem' : q ∈ withID id queue' := by
      rw [hnew]
      exact List.mem_append_left _ hmem
    exact absurd rfl (hgone q (mem_withID.mp hmem').1 hid)

/-- A queued delivery with attempts left counts. -/
theorem budget_pos {id : String} {queue : List Delivery} {q : Delivery} (hq : q ∈ queue)
    (hid : q.id = id) (hatt : q.attempts < 3) : 1 ≤ budget id queue := by
  have hle : q.left ≤ budget id queue :=
    List.single_le_sum (fun _ _ => Nat.zero_le _) _
      (List.mem_map_of_mem (mem_withID.mpr ⟨hq, hid⟩))
  have hpos := left_pos hatt
  omega

section Finish

variable {item : Delivery} {status : ℤ} {transient : Bool} {now : Instant} {data : DiskState}

/-- `finish` of another identifier only takes deliveries away. -/
theorem finishChange_shifted {id : String} (hne : id ≠ item.id) :
    Shifted id data.queue (finishChange item status transient now data).data.queue := by
  left
  unfold finishChange
  by_cases hany : (data.queue.any fun q => q.id = item.id ∧ q.attempts = item.attempts) = true
  swap
  · rw [if_neg hany]
  rw [if_pos hany]
  dsimp only
  generalize (if status = 404 ∨ status = 410 then
      data.subscriptions.erase item.subscriptionID else data.subscriptions) = subs
  induction data.queue with
  | nil => exact List.Sublist.refl _
  | cons q queue ih =>
    by_cases hid : q.id = id
    · have hq : finishItem item transient now subs data.epoch q = none ∨
          finishItem item transient now subs data.epoch q = some q := by
        unfold finishItem
        rw [if_pos (show q.id ≠ item.id by rw [hid]; exact hne)]
        split_ifs
        · exact Or.inl rfl
        · exact Or.inr rfl
      have hcons : withID id (q :: queue) = q :: withID id queue := by simp [withID, hid]
      rcases hq with hq | hq
      · rw [List.filterMap_cons_none hq, hcons]
        exact ih.cons _
      · have hcons' : withID id
            (q :: queue.filterMap (finishItem item transient now subs data.epoch)) =
            q :: withID id (queue.filterMap (finishItem item transient now subs data.epoch)) := by
          simp [withID, hid]
        rw [List.filterMap_cons_some hq, hcons, hcons']
        exact ih.cons_cons _
    · have hcons : withID id (q :: queue) = withID id queue := by simp [withID, hid]
      rw [hcons]
      cases hq : finishItem item transient now subs data.epoch q with
      | none =>
        rw [List.filterMap_cons_none hq]
        exact ih
      | some q' =>
        have hid' : q'.id ≠ id := by
          obtain ⟨-, rfl | ⟨-, next, -, rfl⟩⟩ := finishItem_eq_some hq <;> exact hid
        have hcons' : withID id (q' :: queue.filterMap
            (finishItem item transient now subs data.epoch)) =
            withID id (queue.filterMap (finishItem item transient now subs data.epoch)) := by
          simp [withID, hid']
        rw [List.filterMap_cons_some hq, hcons']
        exact ih

/-- The attempts left after `finish`, one by one. -/
theorem finishItem_left (transient : Bool) (now : Instant)
    (subs : AList fun _ : String => StoredSubscription) (epoch : String) (q : Delivery)
    (hid : q.id = item.id) :
    (finishItem item transient now subs epoch q).elim 0 Delivery.left ≤ q.left ∧
      (q.attempts < 3 →
        (finishItem item transient now subs epoch q).elim 0 Delivery.left + 1 ≤ q.left) ∧
      ∀ q', finishItem item transient now subs epoch q = some q' → q'.id = item.id := by
  unfold finishItem
  rw [if_neg (show ¬q.id ≠ item.id by simpa using hid)]
  split_ifs with h₁ h₂
  · refine ⟨Nat.zero_le _, fun hlt => left_pos hlt, fun q' h => absurd h (by simp)⟩
  · simp only [Delivery.retries, Bool.and_eq_true, decide_eq_true_eq] at h₂
    have hlt := h₂.1.1.2
    refine ⟨?_, fun _ => ?_, fun q' h => ?_⟩
    · simp only [Option.elim_some, Delivery.left]
      omega
    · simp only [Option.elim_some, Delivery.left]
      omega
    · rw [← Option.some.inj h]
      exact hid
  · refine ⟨Nat.zero_le _, fun hlt => left_pos hlt, fun q' h => absurd h (by simp)⟩

/-- **`finish` takes an attempt away** from a delivery that is still queued. -/
theorem budget_finish (hch : (finishChange item status transient now data).verdict = .changed)
    (hatt : item.attempts < 3) :
    budget item.id (finishChange item status transient now data).data.queue + 1 ≤
        budget item.id data.queue ∧
      (withID item.id (finishChange item status transient now data).data.queue).length ≤
        (withID item.id data.queue).length := by
  obtain ⟨hqueued, hdata⟩ := finishChange_spec hch
  rw [hdata]
  dsimp only
  generalize finishSubscriptions item status data = subs
  -- one delivery after the other; at least one of them has the item's number of attempts
  have hgen : ∀ queue : List Delivery,
      budget item.id (queue.filterMap (finishItem item transient now subs data.epoch)) ≤
          budget item.id queue ∧
        (withID item.id (queue.filterMap (finishItem item transient now subs data.epoch))).length ≤
          (withID item.id queue).length ∧
        ((∃ q ∈ queue, q.id = item.id ∧ q.attempts = item.attempts) →
          budget item.id (queue.filterMap (finishItem item transient now subs data.epoch)) + 1 ≤
            budget item.id queue) := by
    intro queue
    induction queue with
    | nil => exact ⟨le_refl _, le_refl _, fun h => absurd h (by simp)⟩
    | cons q queue ih =>
      obtain ⟨ihle, ihlen, ihlt⟩ := ih
      by_cases hid : q.id = item.id
      · obtain ⟨hle, hlt, hids⟩ := finishItem_left transient now subs data.epoch q hid
        have hcons : withID item.id (q :: queue) = q :: withID item.id queue := by
          simp [withID, hid]
        have hb : budget item.id (q :: queue) = q.left + budget item.id queue := by
          simp [budget, hcons]
        have hb' : budget item.id ((q :: queue).filterMap
            (finishItem item transient now subs data.epoch)) =
            (finishItem item transient now subs data.epoch q).elim 0 Delivery.left +
              budget item.id (queue.filterMap (finishItem item transient now subs data.epoch)) := by
          cases hq : finishItem item transient now subs data.epoch q with
          | none => rw [List.filterMap_cons_none hq, Option.elim_none, Nat.zero_add]
          | some q' =>
            rw [List.filterMap_cons_some hq]
            simp [budget, withID, hids q' hq]
        have hlen : (withID item.id ((q :: queue).filterMap
            (finishItem item transient now subs data.epoch))).length ≤
            1 + (withID item.id (queue.filterMap
              (finishItem item transient now subs data.epoch))).length := by
          cases hq : finishItem item transient now subs data.epoch q with
          | none =>
            rw [List.filterMap_cons_none hq]
            omega
          | some q' =>
            rw [List.filterMap_cons_some hq]
            simp only [withID, hids q' hq, decide_true, List.filter_cons_of_pos, List.length_cons]
            omega
        rw [hb, hb', hcons, List.length_cons]
        refine ⟨by omega, by omega, ?_⟩
        rintro ⟨q₀, hq₀, hid₀, hatt₀⟩
        rcases List.mem_cons.mp hq₀ with rfl | hq₀
        · have := hlt (by omega)
          omega
        · have := ihlt ⟨q₀, hq₀, hid₀, hatt₀⟩
          omega
      · have hcons : withID item.id (q :: queue) = withID item.id queue := by simp [withID, hid]
        have hb : budget item.id (q :: queue) = budget item.id queue := by simp [budget, hcons]
        have hcons' : withID item.id ((q :: queue).filterMap
            (finishItem item transient now subs data.epoch)) =
            withID item.id (queue.filterMap (finishItem item transient now subs data.epoch)) := by
          cases hq : finishItem item transient now subs data.epoch q with
          | none => rw [List.filterMap_cons_none hq]
          | some q' =>
            have hid' : q'.id ≠ item.id := by
              obtain ⟨-, rfl | ⟨-, next, -, rfl⟩⟩ := finishItem_eq_some hq <;> exact hid
            rw [List.filterMap_cons_some hq]
            simp [withID, hid']
        have hb' : budget item.id ((q :: queue).filterMap
            (finishItem item transient now subs data.epoch)) =
            budget item.id (queue.filterMap (finishItem item transient now subs data.epoch)) := by
          simp only [budget, hcons']
        rw [hb, hb', hcons, hcons']
        refine ⟨ihle, ihlen, ?_⟩
        rintro ⟨q₀, hq₀, hid₀, hatt₀⟩
        rcases List.mem_cons.mp hq₀ with rfl | hq₀
        · exact absurd hid₀ hid
        · exact ihlt ⟨q₀, hq₀, hid₀, hatt₀⟩
  obtain ⟨-, hlen, hlt⟩ := hgen data.queue
  exact ⟨hlt hqueued, hlen⟩

end Finish

end Push
