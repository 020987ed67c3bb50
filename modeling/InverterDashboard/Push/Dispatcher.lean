import InverterDashboard.Push.Durable

set_option relaxedAutoImplicit false
set_option autoImplicit false

/-!
# The dispatcher and its workers

`internal/push/sender.go`. The loop takes a snapshot of the due deliveries and starts a worker for
each, at most two at a time and one for each identifier. A worker looks at the store, registers the
context of its request, looks again when the library has encrypted the payload, and hands the
request over. Each of these is a critical section of its own, and anything may happen to the store
between two of them.

A ledger counts, for every identifier and every stretch of time in which it stays queued, how often
it was admitted, how often a worker's last look succeeded, and how many requests were handed over.

## Main definitions

* `Push.Store.holds`, `Push.Store.current` — what a worker checks.
* `Push.Phase`, `Push.Worker` — a worker.
* `Push.Ledger` — the counts.
* `Push.Dispatcher`, `Push.Dispatcher.step` — the system.

## Main results

* `Push.Op.change_withID` — what an operation does to the deliveries of one identifier.
* `Push.DiskState.holds_change` — a delivery that an operation leaves queued still passes the check.
-/

namespace Push

/-! ## The check of a worker -/

/-- What `current` asks of the stored data: the subscription exists and allows the kind, the epoch
is current, and the delivery is queued with the same number of attempts. -/
def DiskState.holds (data : DiskState) (item : Delivery) : Bool :=
  ((data.subscriptions.lookup item.subscriptionID).any fun sub =>
    sub.preferences.allows item.payload.kind) &&
  (decide (item.payload.kind = "test") || decide (item.epoch = data.epoch)) &&
  data.queue.any fun q => decide (q.id = item.id ∧ q.attempts = item.attempts)

/-- `current`, apart from the age of the event. -/
def Store.holds (s : Store) (item : Delivery) : Bool := !s.unusable && s.data.holds item

/-- `current`. -/
def Store.current (s : Store) (item : Delivery) (now : Instant) : Bool :=
  s.holds item && item.payload.current now

/-! ## Workers -/

/-- Where a worker is. -/
inductive Phase where
  /-- Counted as in flight. -/
  | started
  /-- The first look succeeded. -/
  | passed
  /-- The context is registered. -/
  | registered
  /-- The look of `guardedClient.Do` succeeded. -/
  | rechecked
  /-- The context was not cancelled either. -/
  | cleared
  /-- The library returned, with or without a request. -/
  | answered
  /-- `finish` returned. -/
  | finished
  /-- The context is released. -/
  | released
  deriving DecidableEq

namespace Phase

/-- The request carries a registered context. -/
def registers : Phase → Bool
  | .registered | .rechecked | .cleared => true
  | _ => false

/-- Between the last look and the request. -/
def checked : Phase → Bool
  | .rechecked | .cleared => true
  | _ => false

/-- Between the last look and the end of `finish`. -/
def spends : Phase → Bool
  | .rechecked | .cleared | .answered => true
  | _ => false

end Phase

/-- A worker: its delivery, the number of its context, when it last looked, and the stretch of the
ledger it looked in. -/
structure Worker where
  item : Delivery
  phase : Phase := .started
  context : ℕ := 0
  checkedAt : Instant := 0
  generation : ℕ := 0

/-! ## The ledger -/

/-- The queued deliveries with an identifier. -/
def withID (id : String) (queue : List Delivery) : List Delivery := queue.filter fun q => q.id = id

/-- For an identifier, the stretches of time in which it is queued are numbered; the counts are for
each stretch. -/
structure Ledger where
  generation : String → ℕ := fun _ => 0
  admitted : String → ℕ → ℕ := fun _ _ => 0
  checks : String → ℕ → ℕ := fun _ _ => 0
  requests : String → ℕ → ℕ := fun _ _ => 0

namespace Ledger

/-- A mutation of the queue: new deliveries are admitted, and an identifier that is not queued any
more begins its next stretch. -/
def mutated (l : Ledger) (old new : List Delivery) : Ledger :=
  { l with
    generation := fun id => if withID id new = [] then l.generation id + 1 else l.generation id
    admitted := fun id g =>
      if g = l.generation id then l.admitted id g +
        ((withID id new).length - (withID id old).length)
      else l.admitted id g }

/-- One more at an identifier and a stretch. -/
def bump (count : String → ℕ → ℕ) (id : String) (g : ℕ) : String → ℕ → ℕ :=
  fun id' g' => if id' = id ∧ g' = g then count id' g' + 1 else count id' g'

end Ledger

/-! ## The system -/

/-- The store, the rest of the loop's snapshot, the deliveries in flight, the number of contexts
made so far, whether the dispatcher was closed, and the ledger. -/
structure Dispatcher where
  store : Store
  items : List Delivery := []
  workers : List Worker := []
  contexts : ℕ := 0
  stopped : Bool := false
  ledger : Ledger := {}

/-- The mutations of the dispatcher itself. -/
def Op.internal : Op → Bool
  | .pending _ | .finish _ _ _ _ => true
  | _ => false

namespace Dispatcher

/-- The steps of the system. -/
inductive Event where
  /-- The critical section of an operation from elsewhere. The first section of `Enqueue` only
  reads, and may have come at any time before. -/
  | perform (op : Op) (fault : Option SaveFault)
  /-- `Store.Close`. -/
  | close
  /-- `Dispatcher.Close`. -/
  | stop
  /-- A context reaches its deadline. -/
  | expire (context : ℕ)
  /-- The ticker: `pending`. -/
  | tick (now : Instant) (fault : Option SaveFault)
  /-- The loop goes on with its next delivery. -/
  | spawn
  /-- `deliver` looks at the store. -/
  | look (i : ℕ) (now : Instant)
  /-- `deliver` registers the context. -/
  | register (i : ℕ)
  /-- `deliver` finds that nothing of the event's life is left. -/
  | tooLate (i : ℕ)
  /-- `guardedClient.Do` looks at the store. -/
  | recheck (i : ℕ) (now : Instant)
  /-- `guardedClient.Do` looks at the context. -/
  | clear (i : ℕ)
  /-- `guardedClient.Do` hands the request to the client. -/
  | hand (i : ℕ)
  /-- The library fails before the request, or `guardedClient.Do` finds the event expired. -/
  | abandon (i : ℕ)
  /-- `finish`. -/
  | finish (i : ℕ) (status : ℤ) (transient : Bool) (now : Instant) (fault : Option SaveFault)
  /-- The deferred cancellation of `deliver`. -/
  | release (i : ℕ)
  /-- The delivery is not in flight any more. -/
  | remove (i : ℕ)

/-- The context of a worker is cancelled. -/
def cancelled (d : Dispatcher) (w : Worker) : Bool :=
  decide (w.context ∈ d.store.cancelled) || d.stopped

/-- A mutation of the store. -/
def mutated (d : Dispatcher) (store : Store) : Dispatcher :=
  { d with
    store := store
    ledger := d.ledger.mutated d.store.data.queue store.data.queue }

/-- Worker `i` moves on. -/
def move (d : Dispatcher) (i : ℕ) (w : Worker) : Dispatcher :=
  { d with workers := d.workers.set i w }

/-- One step. -/
def step (L : Libs) (d : Dispatcher) : Event → Option Dispatcher
  | .perform op fault =>
    if op.internal then none
    else match op.accept L with
      | .error _ => some d
      | .ok op => some (d.mutated (d.store.mutate L (op.change L) fault).1)
  | .close => some { d with store := d.store.close }
  | .stop => some { d with stopped := true }
  | .expire context => some { d with
      store := { d.store with cancelled := insert context d.store.cancelled } }
  | .tick now fault =>
    match d.items with
    | _ :: _ => none
    | [] =>
      let r := d.store.mutate L (pendingChange now) fault
      some { d.mutated r.1 with items := if r.2.isNone then dueItems now d.store.data else [] }
  | .spawn =>
    match d.items with
    | [] => none
    | item :: rest =>
      if 2 ≤ d.workers.length then some { d with items := [] }
      else if d.workers.any fun w => w.item.id = item.id then some { d with items := rest }
      else some { d with items := rest, workers := d.workers ++ [{ item := item }] }
  | .look i now =>
    match d.workers[i]? with
    | none => none
    | some w =>
      if w.phase = .started then
        some (d.move i { w with
          phase := if d.store.current w.item now && !d.stopped then .passed else .released })
      else none
  | .register i =>
    match d.workers[i]? with
    | none => none
    | some w =>
      if w.phase = .passed ∧ w.item.payload.size ≤ maxPayloadBytes then
        some { d.move i { w with phase := .registered, context := d.contexts } with
          contexts := d.contexts + 1
          store := { d.store with
            active := (w.item.id, d.contexts) :: d.store.active.filter fun a => a.1 ≠ w.item.id } }
      else none
  | .tooLate i =>
    match d.workers[i]? with
    | none => none
    | some w => if w.phase = .registered then some (d.move i { w with phase := .finished })
        else none
  | .recheck i now =>
    match d.workers[i]? with
    | none => none
    | some w =>
      if w.phase = .registered then
        if d.store.current w.item now then
          some { d.move i { w with
              phase := .rechecked
              checkedAt := now
              generation := d.ledger.generation w.item.id } with
            ledger := { d.ledger with
              checks := Ledger.bump d.ledger.checks w.item.id (d.ledger.generation w.item.id) } }
        else some (d.move i { w with phase := .answered })
      else none
  | .clear i =>
    match d.workers[i]? with
    | none => none
    | some w =>
      if w.phase = .rechecked then
        some (d.move i { w with phase := if d.cancelled w then .answered else .cleared })
      else none
  | .hand i =>
    match d.workers[i]? with
    | none => none
    | some w =>
      if w.phase = .cleared then
        some { d.move i { w with phase := .answered } with
          ledger := { d.ledger with
            requests := Ledger.bump d.ledger.requests w.item.id w.generation } }
      else none
  | .abandon i =>
    match d.workers[i]? with
    | none => none
    | some w =>
      if w.phase = .registered ∨ w.phase = .cleared then
        some (d.move i { w with phase := .answered })
      else none
  | .finish i status transient now fault =>
    match d.workers[i]? with
    | none => none
    | some w =>
      if w.phase = .answered then
        some ((d.move i { w with phase := .finished }).mutated
          (d.store.mutate L (finishChange w.item status transient now) fault).1)
      else if w.phase = .passed ∧ maxPayloadBytes < w.item.payload.size ∧ status = 400 ∧
          transient = false then
        some ((d.move i { w with phase := .released }).mutated
          (d.store.mutate L (finishChange w.item status transient now) fault).1)
      else none
  | .release i =>
    match d.workers[i]? with
    | none => none
    | some w =>
      if w.phase = .finished then
        some { d.move i { w with phase := .released } with
          store := { d.store with
            active := d.store.active.filter fun a => a.1 ≠ w.item.id
            cancelled := insert w.context d.store.cancelled } }
      else none
  | .remove i =>
    match d.workers[i]? with
    | none => none
    | some w => if w.phase = .released then some { d with workers := d.workers.eraseIdx i }
        else none

/-- A process starts with a store that was loaded, or a new one. -/
inductive Init (L : Libs) : Dispatcher → Prop
  | intro {s : Service} : Service.Init L s →
      Init L { store := s.store, ledger := { admitted := fun id g =>
        if g = 0 then (withID id s.store.data.queue).length else 0 } }

end Dispatcher

/-! ## What an operation does to the deliveries of one identifier -/

theorem mem_withID {id : String} {queue : List Delivery} {q : Delivery} :
    q ∈ withID id queue ↔ q ∈ queue ∧ q.id = id := by
  simp [withID, List.mem_filter]

theorem withID_append (id : String) (l m : List Delivery) :
    withID id (l ++ m) = withID id l ++ withID id m := List.filter_append ..

/-- Some deliveries of the identifier are left, or new ones without an attempt are added. -/
def Shifted (id : String) (queue queue' : List Delivery) : Prop :=
  (withID id queue').Sublist (withID id queue) ∨
    ∃ new, withID id queue' = withID id queue ++ new ∧ ∀ q ∈ new, q.attempts = 0

theorem Shifted.refl (id : String) (queue : List Delivery) : Shifted id queue queue :=
  Or.inl (List.Sublist.refl _)

theorem Shifted.filter (id : String) (queue : List Delivery) (p : Delivery → Bool) :
    Shifted id queue (queue.filter p) := Or.inl (List.filter_sublist.filter _)

theorem Shifted.append (id : String) (queue : List Delivery) {new : List Delivery}
    (h : ∀ q ∈ new, q.attempts = 0) : Shifted id queue (queue ++ new) :=
  Or.inr ⟨withID id new, withID_append id queue new, fun q hq => h q (mem_withID.mp hq).1⟩

/-- The operations from elsewhere, and `pending`. -/
theorem Op.change_withID (L : Libs) {op : Op} (hop : ∀ item status transient now,
      op ≠ .finish item status transient now) {data : DiskState}
    (hch : (op.change L data).verdict = .changed) (id : String) :
    Shifted id data.queue (op.change L data).data.queue := by
  cases op with
  | register sub prefs =>
    change (registerChange L sub prefs data).verdict = .changed at hch
    show Shifted id data.queue (registerChange L sub prefs data).data.queue
    rw [(registerChange_spec hch).2]
    exact Shifted.filter _ _ _
  | delete endpoint =>
    change (deleteChange L endpoint data).verdict = .changed at hch
    show Shifted id data.queue (deleteChange L endpoint data).data.queue
    rw [deleteChange_spec hch]
    exact Shifted.filter _ _ _
  | resetEpoch epoch => exact Shifted.filter _ _ _
  | enqueue payload epoch prime visit =>
    obtain ⟨-, -, hdata, -⟩ := enqueueChange_spec hch
    have hqueue : ((Op.enqueue payload epoch prime visit).change L data).data.queue = data.queue ++
        if prime then [] else added payload epoch (visit.order data.subscriptions.entries) :=
      congrArg DiskState.queue hdata
    rw [hqueue]
    refine Shifted.append _ _ fun q hq => ?_
    split_ifs at hq
    · exact absurd hq (by simp)
    · obtain ⟨e, -, rfl⟩ := List.mem_map.mp hq
      rfl
  | queueTest endpoint now test =>
    change (queueTestChange L endpoint test now data).verdict = .changed at hch
    show Shifted id data.queue (queueTestChange L endpoint test now data).data.queue
    obtain ⟨sub, -, -, -, -, hdata⟩ := queueTestChange_eq hch
    rw [hdata]
    refine Shifted.append _ _ fun q hq => ?_
    rw [List.mem_singleton.mp hq]
    rfl
  | pending now => exact Shifted.filter _ _ _
  | finish item status transient now => exact absurd rfl (hop item status transient now)

/-! ## What an operation does to the check -/

/-- What an identifier stands for: the kind, the subscription and the time of its event. -/
abbrev About : Type := String → String × String × ℤ

/-- The delivery is one of what its identifier stands for. The identifier is built from the hash of
the event and the hash of the endpoint. -/
def Delivery.Named (about : About) (q : Delivery) : Prop :=
  about q.id = (q.payload.kind, q.subscriptionID, q.payload.sourceTimestampMS)

instance (about : About) (q : Delivery) : Decidable (q.Named about) :=
  inferInstanceAs (Decidable (_ = _))

/-- Deliveries of one identifier agree. -/
theorem Delivery.Named.congr {about : About} {q q' : Delivery} (h : q.Named about)
    (h' : q'.Named about) (hid : q.id = q'.id) :
    q.payload.kind = q'.payload.kind ∧ q.subscriptionID = q'.subscriptionID ∧
      q.payload.sourceTimestampMS = q'.payload.sourceTimestampMS := by
  have heq := h.symm.trans ((congrArg about hid).trans h')
  simpa using heq

/-- After `pending` every queued delivery has attempts left and is of the current epoch. -/
def DiskState.Trimmed (data : DiskState) : Prop :=
  ∀ q ∈ data.queue, q.attempts < 3 ∧ (q.payload.kind = "test" ∨ q.epoch = data.epoch)

theorem DiskState.holds_iff {data : DiskState} {item : Delivery} :
    data.holds item = true ↔
      (∃ sub, data.subscriptions.lookup item.subscriptionID = some sub ∧
        sub.preferences.allows item.payload.kind = true) ∧
      (item.payload.kind = "test" ∨ item.epoch = data.epoch) ∧
      ∃ q ∈ data.queue, q.id = item.id ∧ q.attempts = item.attempts := by
  unfold DiskState.holds
  simp only [Bool.and_eq_true, Bool.or_eq_true, decide_eq_true_eq, List.any_eq_true,
    Option.any_eq_true]
  tauto

section Holds

variable {about : About} {data : DiskState} {item : Delivery}

/-- A filter that does not tell deliveries of one identifier apart keeps all of them or none. -/
theorem filter_keeps_or_drops {queue : List Delivery} {p : Delivery → Bool} {b : Bool}
    (hp : ∀ q ∈ queue, q.id = item.id → p q = b)
    (h : ∃ q ∈ queue, q.id = item.id ∧ q.attempts = item.attempts) :
    (b = true ∧ ∃ q ∈ queue.filter p, q.id = item.id ∧ q.attempts = item.attempts) ∨
      withID item.id (queue.filter p) = [] := by
  cases b with
  | true =>
    obtain ⟨q, hq, hid, hatt⟩ := h
    exact Or.inl ⟨rfl, q, List.mem_filter.mpr ⟨hq, hp q hq hid⟩, hid, hatt⟩
  | false =>
    right
    rw [withID, List.filter_eq_nil_iff]
    intro q hq hid
    obtain ⟨hmem, hpq⟩ := List.mem_filter.mp hq
    rw [hp q hmem (by simpa using hid)] at hpq
    exact absurd hpq (by simp)

theorem holds_register (L : Libs) (hnames : ∀ q ∈ data.queue, q.Named about)
    (hitem : item.Named about) (h : data.holds item = true) {sub : Subscription}
    {prefs : Preferences}
    (hch : (registerChange L sub prefs data).verdict = .changed) :
    (registerChange L sub prefs data).data.holds item = true ∨
      withID item.id (registerChange L sub prefs data).data.queue = [] := by
  rw [(registerChange_spec hch).2]
  obtain ⟨⟨old, hold, hallow⟩, hepoch, hq⟩ := DiskState.holds_iff.mp h
  have hp : ∀ q ∈ data.queue, q.id = item.id →
      (decide (q.subscriptionID ≠ subscriptionID L sub.endpoint) || prefs.allows q.payload.kind) =
        (decide (item.subscriptionID ≠ subscriptionID L sub.endpoint) ||
          prefs.allows item.payload.kind) := by
    intro q hq hid
    obtain ⟨hkind, hsub, -⟩ := (hnames q hq).congr hitem hid
    rw [hkind, hsub]
  rcases filter_keeps_or_drops hp hq with ⟨hb, hq'⟩ | hnil
  · left
    rw [DiskState.holds_iff]
    refine ⟨?_, hepoch, hq'⟩
    dsimp only
    by_cases hid : item.subscriptionID = subscriptionID L sub.endpoint
    · rw [hid, AList.lookup_insert]
      refine ⟨_, rfl, ?_⟩
      simpa [hid] using hb
    · rw [AList.lookup_insert_ne hid]
      exact ⟨old, hold, hallow⟩
  · exact Or.inr hnil

theorem holds_delete (L : Libs) (hnames : ∀ q ∈ data.queue, q.Named about)
    (hitem : item.Named about) (h : data.holds item = true) {endpoint : String}
    (hch : (deleteChange L endpoint data).verdict = .changed) :
    (deleteChange L endpoint data).data.holds item = true ∨
      withID item.id (deleteChange L endpoint data).data.queue = [] := by
  rw [deleteChange_spec hch]
  obtain ⟨⟨old, hold, hallow⟩, hepoch, hq⟩ := DiskState.holds_iff.mp h
  have hp : ∀ q ∈ data.queue, q.id = item.id →
      decide (q.subscriptionID ≠ subscriptionID L endpoint) =
        decide (item.subscriptionID ≠ subscriptionID L endpoint) := by
    intro q hq hid
    rw [((hnames q hq).congr hitem hid).2.1]
  rcases filter_keeps_or_drops hp hq with ⟨hb, hq'⟩ | hnil
  · left
    rw [DiskState.holds_iff]
    refine ⟨⟨old, ?_, hallow⟩, hepoch, hq'⟩
    have hne : item.subscriptionID ≠ subscriptionID L endpoint := by simpa using hb
    dsimp only
    rw [AList.lookup_erase_ne hne]
    exact hold
  · exact Or.inr hnil

theorem holds_resetEpoch (hnames : ∀ q ∈ data.queue, q.Named about) (hitem : item.Named about)
    (h : data.holds item = true) (epoch : String) :
    (resetEpochChange epoch data).data.holds item = true ∨
      withID item.id (resetEpochChange epoch data).data.queue = [] := by
  obtain ⟨hsub, -, hq⟩ := DiskState.holds_iff.mp h
  have hp : ∀ q ∈ data.queue, q.id = item.id →
      decide (q.payload.kind = "test") = decide (item.payload.kind = "test") := by
    intro q hq hid
    rw [((hnames q hq).congr hitem hid).1]
  rcases filter_keeps_or_drops hp hq with ⟨hb, hq'⟩ | hnil
  · exact Or.inl (DiskState.holds_iff.mpr ⟨hsub, Or.inl (of_decide_eq_true hb), hq'⟩)
  · exact Or.inr hnil

theorem holds_pending (hnames : ∀ q ∈ data.queue, q.Named about) (hitem : item.Named about)
    (htrim : data.Trimmed) (h : data.holds item = true) (now : Instant) :
    (pendingChange now data).data.holds item = true ∨
      withID item.id (pendingChange now data).data.queue = [] := by
  obtain ⟨hsub, hepoch, hq⟩ := DiskState.holds_iff.mp h
  have hp : ∀ q ∈ data.queue, q.id = item.id →
      q.lives data.epoch now = item.payload.current now := by
    intro q hq hid
    obtain ⟨hatt, hep⟩ := htrim q hq
    have hts := ((hnames q hq).congr hitem hid).2.2
    have hcur : q.payload.current now = item.payload.current now := by
      unfold Payload.current
      rw [hts]
    have hep' : (decide (q.payload.kind = "test") || decide (q.epoch = data.epoch)) = true := by
      simpa using hep
    rw [Delivery.lives, hcur, decide_eq_true hatt, hep', Bool.and_true, Bool.and_true]
  rcases filter_keeps_or_drops hp hq with ⟨-, hq'⟩ | hnil
  · exact Or.inl (DiskState.holds_iff.mpr ⟨hsub, hepoch, hq'⟩)
  · exact Or.inr hnil

/-- `finish` of another identifier. -/
theorem holds_finish (hnames : ∀ q ∈ data.queue, q.Named about) (hitem : item.Named about)
    (h : data.holds item = true) {done : Delivery} (hne : done.id ≠ item.id) {status : ℤ}
    {transient : Bool} {now : Instant}
    (hch : (finishChange done status transient now data).verdict = .changed) :
    (finishChange done status transient now data).data.holds item = true ∨
      withID item.id (finishChange done status transient now data).data.queue = [] := by
  rw [(finishChange_spec hch).2]
  dsimp only
  obtain ⟨⟨sub, hsub, hallow⟩, hepoch, q, hq, hid, hatt⟩ := DiskState.holds_iff.mp h
  have hlookup : ∀ sub', (finishSubscriptions done status data).lookup item.subscriptionID =
      some sub' → sub' = sub := by
    intro sub' h'
    unfold finishSubscriptions at h'
    split_ifs at h' with hstatus
    · by_cases hsame : item.subscriptionID = done.subscriptionID
      · rw [hsame, AList.lookup_erase] at h'
        exact absurd h' (by simp)
      · rw [AList.lookup_erase_ne hsame] at h'
        exact Option.some.inj (h'.symm.trans hsub)
    · exact Option.some.inj (h'.symm.trans hsub)
  generalize finishSubscriptions done status data = subs at hlookup ⊢
  have hkept : ∀ q' ∈ data.queue, q'.id = item.id →
      finishItem done transient now subs data.epoch q' =
        if (subs.lookup item.subscriptionID).isNone then none else some q' := by
    intro q' hq' hid'
    unfold finishItem
    rw [((hnames q' hq').congr hitem hid').2.1]
    by_cases hnone : (subs.lookup item.subscriptionID).isNone = true
    · rw [if_pos hnone, if_pos hnone]
    · rw [if_neg hnone, if_neg hnone, if_pos (by rw [hid']; exact hne.symm)]
  cases hsubs : subs.lookup item.subscriptionID with
  | none =>
    right
    rw [withID, List.filter_eq_nil_iff]
    intro q' hq' hid'
    obtain ⟨q₀, hq₀, hsome⟩ := List.mem_filterMap.mp hq'
    have hid₀ : q₀.id = item.id := by
      obtain ⟨-, rfl | ⟨-, next, -, rfl⟩⟩ := finishItem_eq_some hsome
      · simpa using hid'
      · simpa using hid'
    rw [hkept q₀ hq₀ hid₀, hsubs] at hsome
    exact absurd hsome (by simp)
  | some sub' =>
    left
    rw [DiskState.holds_iff]
    refine ⟨⟨sub', hsubs, ?_⟩, hepoch, q, List.mem_filterMap.mpr ⟨q, hq, ?_⟩, hid, hatt⟩
    · rw [hlookup sub' hsubs]
      exact hallow
    · rw [hkept q hq hid, hsubs]
      rfl

/-- **The check survives**: a delivery that passes the check still passes it after an operation that
leaves its identifier queued. -/
theorem DiskState.holds_change (L : Libs) (hnames : ∀ q ∈ data.queue, q.Named about)
    (hitem : item.Named about) (htrim : data.Trimmed) (h : data.holds item = true) {op : Op}
    (hfinish : ∀ done status transient now, op = .finish done status transient now →
      done.id ≠ item.id)
    (hch : (op.change L data).verdict = .changed) :
    (op.change L data).data.holds item = true ∨
      withID item.id (op.change L data).data.queue = [] := by
  cases op with
  | register sub prefs => exact holds_register L hnames hitem h hch
  | delete endpoint => exact holds_delete L hnames hitem h hch
  | resetEpoch epoch => exact holds_resetEpoch hnames hitem h epoch
  | enqueue payload epoch prime visit =>
    left
    obtain ⟨hsub, hepoch, q, hq, hid, hatt⟩ := DiskState.holds_iff.mp h
    obtain ⟨-, -, hdata, -⟩ := enqueueChange_spec hch
    have hdata : ((Op.enqueue payload epoch prime visit).change L data).data = _ := hdata
    rw [hdata, DiskState.holds_iff]
    exact ⟨hsub, hepoch, q, List.mem_append_left _ hq, hid, hatt⟩
  | queueTest endpoint now test =>
    left
    obtain ⟨⟨sub, hsub, hallow⟩, hepoch, q, hq, hid, hatt⟩ := DiskState.holds_iff.mp h
    change (queueTestChange L endpoint test now data).verdict = .changed at hch
    show (queueTestChange L endpoint test now data).data.holds item = true
    obtain ⟨sub', hlookup, -, -, -, hdata⟩ := queueTestChange_eq hch
    rw [hdata, DiskState.holds_iff]
    refine ⟨?_, hepoch, q, List.mem_append_left _ hq, hid, hatt⟩
    dsimp only
    by_cases hsame : item.subscriptionID = subscriptionID L endpoint
    · rw [hsame, AList.lookup_insert]
      rw [hsame, hlookup] at hsub
      obtain rfl := Option.some.inj hsub
      exact ⟨_, rfl, hallow⟩
    · rw [AList.lookup_insert_ne hsame]
      exact ⟨sub, hsub, hallow⟩
  | pending now => exact holds_pending hnames hitem htrim h now
  | finish done status transient now =>
    exact holds_finish hnames hitem h (hfinish done status transient now rfl) hch

end Holds

end Push
