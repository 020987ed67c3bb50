import InverterDashboard.Push.System

set_option relaxedAutoImplicit false
set_option autoImplicit false

/-!
# What the store writes can be loaded again

`validDiskState` is a conjunction of a dozen conditions; every change function keeps them, with one
exception: the ring of recorded keys forgets a key after 4096 others while a delivery of that key
may still be queued, and an `Enqueue` that records the key again then queues a second delivery with
the same identifier.

## Main definitions

* `Push.Valid` — `validDiskState`, as a structure.
* `Push.Service.Sane` — the calls of the processor, on a clock after the Unix epoch.
* `Push.Service.Unrepeated` — no step queues an identifier that is queued already.

## Main results

* `Push.Valid.change` — every change function keeps `Valid`.
* `Push.Service.valid_of_reachable` — in every run without a repeated identifier both the state in
  memory and the file are valid, and a restart accepts the file.
-/

namespace Push

/-! ## Validity as a structure -/

/-- The conditions of `validDiskState`. -/
structure Valid (L : Libs) (data : DiskState) : Prop where
  version : data.schemaVersion = 1
  subscriptions_le : data.subscriptions.entries.length ≤ maxSubscriptions
  dedupe_le : data.dedupe.length ≤ maxDedupe
  queue_le : data.queue.length ≤ maxPending
  tests_le : data.tests.length ≤ 10
  keys : L.validKeys data.privateKey data.publicKey = true
  subscription : ∀ e ∈ data.subscriptions.entries,
    e.1 = subscriptionID L e.2.subscription.endpoint ∧
      L.validSubscription e.2.subscription = true
  digests : ∀ key ∈ data.dedupe, digestID key = true
  dedupe_nodup : data.dedupe.Nodup
  ids_nodup : (data.queue.map Delivery.id).Nodup
  deliveries : ∀ item ∈ data.queue, item.valid data.subscriptions = true

theorem valid_iff (L : Libs) (data : DiskState) :
    validDiskState L data = true ↔ Valid L data := by
  simp only [validDiskState, Bool.and_eq_true, decide_eq_true_eq, List.all_eq_true]
  constructor
  · rintro ⟨⟨⟨⟨⟨⟨⟨⟨⟨⟨h₁, h₂⟩, h₃⟩, h₄⟩, h₅⟩, h₆⟩, h₇⟩, h₈⟩, h₉⟩, h₁₀⟩, h₁₁⟩
    exact ⟨h₁, h₂, h₃, h₄, h₅, h₆, h₇, h₈, h₉, h₁₀, h₁₁⟩
  · rintro ⟨h₁, h₂, h₃, h₄, h₅, h₆, h₇, h₈, h₉, h₁₀, h₁₁⟩
    exact ⟨⟨⟨⟨⟨⟨⟨⟨⟨⟨h₁, h₂⟩, h₃⟩, h₄⟩, h₅⟩, h₆⟩, h₇⟩, h₈⟩, h₉⟩, h₁₀⟩, h₁₁⟩

/-- A delivery stays valid while its subscription exists. -/
theorem Delivery.valid_of_mem {item : Delivery}
    {subs subs' : AList fun _ : String => StoredSubscription} (h : item.valid subs = true)
    (hmem : item.subscriptionID ∈ subs') : item.valid subs' = true := by
  simp only [Delivery.valid, Bool.and_eq_true] at h ⊢
  exact ⟨⟨⟨⟨AList.lookup_isSome.mpr hmem, h.1.1.1.2⟩, h.1.1.2⟩, h.1.2⟩, h.2⟩

theorem Delivery.mem_of_valid {item : Delivery}
    {subs : AList fun _ : String => StoredSubscription} (h : item.valid subs = true) :
    item.subscriptionID ∈ subs := by
  simp only [Delivery.valid, Bool.and_eq_true] at h
  exact AList.lookup_isSome.mp h.1.1.1.1

/-- An insertion makes the map longer by one at most, and no longer where it replaces an entry. -/
theorem length_insert_le {subs : AList fun _ : String => StoredSubscription} {id : String}
    {sub : StoredSubscription} {n : ℕ} (hle : subs.entries.length ≤ n)
    (hroom : id ∈ subs ∨ subs.entries.length < n) : (subs.insert id sub).entries.length ≤ n := by
  have hentries : (subs.insert id sub).entries = ⟨id, sub⟩ :: List.kerase id subs.entries := rfl
  rw [hentries, List.length_cons]
  rcases hroom with hmem | hlt
  · obtain ⟨b, l₁, l₂, -, h₁, h₂⟩ := List.exists_of_kerase (AList.mem_keys.mp hmem)
    rw [h₁] at hle
    rw [h₂]
    simp only [List.length_append, List.length_cons] at hle ⊢
    omega
  · exact Nat.succ_le_of_lt
      (lt_of_le_of_lt (List.kerase_sublist id subs.entries).length_le hlt)

theorem mem_insert_entries {subs : AList fun _ : String => StoredSubscription} {id : String}
    {sub : StoredSubscription} {e : Sigma fun _ : String => StoredSubscription}
    (h : e ∈ (subs.insert id sub).entries) : e = ⟨id, sub⟩ ∨ e ∈ subs.entries := by
  have hentries : (subs.insert id sub).entries = ⟨id, sub⟩ :: List.kerase id subs.entries := rfl
  rw [hentries, List.mem_cons] at h
  exact h.imp_right fun he => (List.kerase_sublist id subs.entries).subset he

/-- A set of subscriptions that may be stored. -/
structure ValidSubscriptions (L : Libs) (subs : AList fun _ : String => StoredSubscription) :
    Prop where
  length_le : subs.entries.length ≤ maxSubscriptions
  entry : ∀ e ∈ subs.entries,
    e.1 = subscriptionID L e.2.subscription.endpoint ∧
      L.validSubscription e.2.subscription = true

theorem Valid.validSubscriptions {L : Libs} {data : DiskState} (h : Valid L data) :
    ValidSubscriptions L data.subscriptions := ⟨h.subscriptions_le, h.subscription⟩

theorem ValidSubscriptions.erase {L : Libs} {subs : AList fun _ : String => StoredSubscription}
    (h : ValidSubscriptions L subs) (id : String) : ValidSubscriptions L (subs.erase id) :=
  ⟨(List.kerase_sublist id subs.entries).length_le.trans h.length_le,
    fun e he => h.entry e ((List.kerase_sublist id subs.entries).subset he)⟩

/-- An insertion under its own identifier, with room for one more unless it replaces an entry. -/
theorem ValidSubscriptions.insert {L : Libs} {subs : AList fun _ : String => StoredSubscription}
    (h : ValidSubscriptions L subs) {id : String} {sub : StoredSubscription}
    (hid : id = subscriptionID L sub.subscription.endpoint)
    (hvalid : L.validSubscription sub.subscription = true)
    (hroom : id ∈ subs ∨ subs.entries.length < maxSubscriptions) :
    ValidSubscriptions L (subs.insert id sub) := by
  refine ⟨length_insert_le h.length_le hroom, fun e he => ?_⟩
  rcases mem_insert_entries he with rfl | he
  · exact ⟨hid, hvalid⟩
  · exact h.entry e he

/-- The change functions that do not add deliveries: a part of the queue stays, under the same
identifiers, and refers to subscriptions that exist. -/
theorem Valid.narrow {L : Libs} {data : DiskState} (h : Valid L data) (epoch : String)
    {subs : AList fun _ : String => StoredSubscription} {queue : List Delivery}
    (hsubs : ValidSubscriptions L subs)
    (hids : (queue.map Delivery.id).Sublist (data.queue.map Delivery.id))
    (hvalid : ∀ item ∈ queue, item.valid subs = true) :
    Valid L { data with epoch := epoch, subscriptions := subs, queue := queue } where
  version := h.version
  subscriptions_le := hsubs.length_le
  dedupe_le := h.dedupe_le
  queue_le := by
    have hlen := hids.length_le
    rw [List.length_map, List.length_map] at hlen
    exact hlen.trans h.queue_le
  tests_le := h.tests_le
  keys := h.keys
  subscription := hsubs.entry
  digests := h.digests
  dedupe_nodup := h.dedupe_nodup
  ids_nodup := h.ids_nodup.sublist hids
  deliveries := hvalid

theorem Valid.withTests {L : Libs} {data : DiskState} (h : Valid L data) {tests : List ℤ}
    (hlen : tests.length ≤ 10) : Valid L { data with tests := tests } := { h with tests_le := hlen }

theorem Valid.withDedupe {L : Libs} {data : DiskState} (h : Valid L data) {dedupe : List String}
    (hlen : dedupe.length ≤ maxDedupe) (hdigests : ∀ key ∈ dedupe, digestID key = true)
    (hnodup : dedupe.Nodup) : Valid L { data with dedupe := dedupe } :=
  { h with dedupe_le := hlen, digests := hdigests, dedupe_nodup := hnodup }

/-! ## What a change is -/

section Spec

variable {L : Libs} {data : DiskState}

/-- A `Register` that changes the state: a record of this very subscription, or room for one more.
-/
theorem registerChange_spec {sub : Subscription} {prefs : Preferences}
    (hch : (registerChange L sub prefs data).verdict = .changed) :
    (subscriptionID L sub.endpoint ∈ data.subscriptions ∨
        data.subscriptions.entries.length < maxSubscriptions) ∧
      (registerChange L sub prefs data).data = { data with
        subscriptions := data.subscriptions.insert (subscriptionID L sub.endpoint)
          ⟨sub, prefs, ((data.subscriptions.lookup (subscriptionID L sub.endpoint)).map
            StoredSubscription.lastTestMS).getD 0⟩
        queue := data.queue.filter fun item =>
          item.subscriptionID ≠ subscriptionID L sub.endpoint ||
            prefs.allows item.payload.kind } := by
  unfold registerChange at hch ⊢
  dsimp only at hch ⊢
  split_ifs at hch ⊢ with h₁ h₂
  refine ⟨?_, rfl⟩
  by_cases hmem : subscriptionID L sub.endpoint ∈ data.subscriptions
  · exact Or.inl hmem
  · right
    rw [AList.lookup_eq_none.mpr hmem] at h₂
    simpa using h₂

/-- A `Delete` that changes the state. -/
theorem deleteChange_spec {endpoint : String}
    (hch : (deleteChange L endpoint data).verdict = .changed) :
    (deleteChange L endpoint data).data = { data with
      subscriptions := data.subscriptions.erase (subscriptionID L endpoint)
      queue := data.queue.filter fun item =>
        item.subscriptionID ≠ subscriptionID L endpoint } := by
  unfold deleteChange at hch ⊢
  dsimp only at hch ⊢
  split_ifs at hch ⊢
  rfl

/-- A `QueueTest` that changes the state found a subscription, room in the queue and room under both
limits of the rate. -/
theorem queueTestChange_eq {endpoint id : String} {now : Instant}
    (hch : (queueTestChange L endpoint id now data).verdict = .changed) :
    ∃ sub, data.subscriptions.lookup (subscriptionID L endpoint) = some sub ∧
      data.queue.length < maxPending ∧
      (data.tests.filter fun at_ => unixMilli now - at_ < 60000).length < 10 ∧
      (sub.lastTestMS = 0 ∨ 60000 ≤ unixMilli now - sub.lastTestMS) ∧
      (queueTestChange L endpoint id now data).data = { data with
        tests := (data.tests.filter fun at_ => unixMilli now - at_ < 60000) ++ [unixMilli now]
        subscriptions := data.subscriptions.insert (subscriptionID L endpoint)
          { sub with lastTestMS := unixMilli now }
        queue := data.queue ++
          [deliveryOf (testPayload L id now) "" (subscriptionID L endpoint)] } := by
  unfold queueTestChange at hch ⊢
  cases hsub : data.subscriptions.lookup (subscriptionID L endpoint) with
  | none => simp [hsub] at hch
  | some sub =>
    simp only [hsub] at hch ⊢
    split_ifs at hch ⊢ with hfull hlimit
    simp only [not_or, not_and_or, not_lt, not_le, ne_eq, not_not] at hlimit
    exact ⟨sub, rfl, not_le.mp hfull, hlimit.1, hlimit.2, rfl⟩

/-- The subscriptions that `finish` leaves. -/
def finishSubscriptions (item : Delivery) (status : ℤ) (data : DiskState) :
    AList fun _ : String => StoredSubscription :=
  if status = 404 ∨ status = 410 then data.subscriptions.erase item.subscriptionID
  else data.subscriptions

/-- A `finish` that changes the state found its delivery. -/
theorem finishChange_spec {item : Delivery} {status : ℤ} {transient : Bool} {now : Instant}
    (hch : (finishChange item status transient now data).verdict = .changed) :
    (∃ q ∈ data.queue, q.id = item.id ∧ q.attempts = item.attempts) ∧
      (finishChange item status transient now data).data = { data with
        subscriptions := finishSubscriptions item status data
        queue := data.queue.filterMap
          (finishItem item transient now (finishSubscriptions item status data) data.epoch) } := by
  unfold finishChange at hch ⊢
  by_cases hany : (data.queue.any fun q => q.id = item.id ∧ q.attempts = item.attempts) = true
  · rw [if_pos hany]
    obtain ⟨q, hq, hp⟩ := List.any_eq_true.mp hany
    exact ⟨⟨q, hq, of_decide_eq_true hp⟩, rfl⟩
  · rw [if_neg hany] at hch
    cases hch

end Spec

/-! ## One lemma for each change function -/

theorem Valid.register {L : Libs} {data : DiskState} (h : Valid L data) {sub : Subscription}
    (hsub : L.validSubscription sub = true) (prefs : Preferences)
    (hch : (registerChange L sub prefs data).verdict = .changed) :
    Valid L (registerChange L sub prefs data).data := by
  obtain ⟨hroom, hdata⟩ := registerChange_spec hch
  rw [hdata]
  refine h.narrow _ (h.validSubscriptions.insert rfl hsub hroom) (List.filter_sublist.map _) ?_
  intro item hitem
  have hold := h.deliveries item (List.mem_of_mem_filter hitem)
  exact Delivery.valid_of_mem hold
    ((AList.mem_insert _).mpr (Or.inr (Delivery.mem_of_valid hold)))

theorem Valid.delete {L : Libs} {data : DiskState} (h : Valid L data) (endpoint : String)
    (hch : (deleteChange L endpoint data).verdict = .changed) :
    Valid L (deleteChange L endpoint data).data := by
  rw [deleteChange_spec hch]
  refine h.narrow _ (h.validSubscriptions.erase _) (List.filter_sublist.map _) ?_
  intro item hitem
  obtain ⟨hmem, hne⟩ := List.mem_filter.mp hitem
  have hold := h.deliveries item hmem
  have hne : item.subscriptionID ≠ subscriptionID L endpoint := by simpa using hne
  exact Delivery.valid_of_mem hold (AList.mem_erase.mpr ⟨hne, Delivery.mem_of_valid hold⟩)

theorem Valid.resetEpoch {L : Libs} {data : DiskState} (h : Valid L data) (epoch : String) :
    Valid L (resetEpochChange epoch data).data :=
  h.narrow _ h.validSubscriptions (List.filter_sublist.map _)
    fun item hitem => h.deliveries item (List.mem_of_mem_filter hitem)

theorem Valid.pending {L : Libs} {data : DiskState} (h : Valid L data) (now : Instant) :
    Valid L (pendingChange now data).data :=
  h.narrow _ h.validSubscriptions (List.filter_sublist.map _)
    fun item hitem => h.deliveries item (List.mem_of_mem_filter hitem)

/-- What `finish` leaves of a queued delivery. -/
theorem finishItem_eq_some {item queued kept : Delivery} {transient : Bool} {now : Instant}
    {subs : AList fun _ : String => StoredSubscription} {epoch : String}
    (h : finishItem item transient now subs epoch queued = some kept) :
    queued.subscriptionID ∈ subs ∧
      (kept = queued ∨
        queued.attempts < 2 ∧
          ∃ next, next = unixMilli (now + seconds ((queued.attempts + 1) * 5)) ∧ kept =
            { queued with attempts := queued.attempts + 1, nextAttemptMS := next }) := by
  unfold finishItem at h
  split_ifs at h with h₁ h₂ h₃
  · have hmem : queued.subscriptionID ∈ subs :=
      AList.lookup_isSome.mp (Option.isSome_iff_ne_none.mpr (by simpa using h₁))
    exact ⟨hmem, Or.inl (Option.some.inj h).symm⟩
  · have hmem : queued.subscriptionID ∈ subs :=
      AList.lookup_isSome.mp (Option.isSome_iff_ne_none.mpr (by simpa using h₁))
    simp only [Delivery.retries, Bool.and_eq_true, decide_eq_true_eq] at h₃
    exact ⟨hmem, Or.inr ⟨h₃.1.1.2, _, rfl, (Option.some.inj h).symm⟩⟩

/-- A partial map that keeps identifiers keeps their order. -/
theorem ids_filterMap_sublist {f : Delivery → Option Delivery}
    (hf : ∀ q q', f q = some q' → q'.id = q.id) (queue : List Delivery) :
    ((queue.filterMap f).map Delivery.id).Sublist (queue.map Delivery.id) := by
  induction queue with
  | nil => exact List.Sublist.refl _
  | cons q queue ih =>
    cases hq : f q with
    | none =>
      rw [List.filterMap_cons_none hq, List.map_cons]
      exact ih.cons _
    | some q' =>
      rw [List.filterMap_cons_some hq, List.map_cons, List.map_cons, hf q q' hq]
      exact ih.cons_cons _

/-- The queue that `finish` leaves, whichever subscriptions remain. -/
theorem Valid.finished {L : Libs} {data : DiskState} (h : Valid L data)
    {subs : AList fun _ : String => StoredSubscription} (hsubs : ValidSubscriptions L subs)
    (item : Delivery) (transient : Bool) (now : Instant) :
    Valid L { data with
      subscriptions := subs
      queue := data.queue.filterMap (finishItem item transient now subs data.epoch) } := by
  refine h.narrow _ hsubs (ids_filterMap_sublist ?_ _) ?_
  · intro q q' hq
    obtain ⟨-, rfl | ⟨-, next, -, rfl⟩⟩ := finishItem_eq_some hq <;> rfl
  · intro kept hkept
    obtain ⟨queued, hqueued, hq⟩ := List.mem_filterMap.mp hkept
    have hold := h.deliveries queued hqueued
    obtain ⟨hmem, rfl | ⟨hlt, next, -, rfl⟩⟩ := finishItem_eq_some hq
    · exact Delivery.valid_of_mem hold hmem
    · have hnew := Delivery.valid_of_mem hold hmem
      simp only [Delivery.valid, Bool.and_eq_true, decide_eq_true_eq] at hnew ⊢
      exact ⟨⟨hnew.1.1, by omega⟩, by omega⟩

theorem Valid.finish {L : Libs} {data : DiskState} (h : Valid L data) (item : Delivery) (status : ℤ)
    (transient : Bool) (now : Instant)
    (hch : (finishChange item status transient now data).verdict = .changed) :
    Valid L (finishChange item status transient now data).data := by
  have hsubs : ValidSubscriptions L (finishSubscriptions item status data) := by
    unfold finishSubscriptions
    split_ifs
    · exact h.validSubscriptions.erase _
    · exact h.validSubscriptions
  rw [(finishChange_spec hch).2]
  exact h.finished hsubs item transient now

/-- The deliveries that `Enqueue` adds for a list of subscriptions. -/
def added (payload : Payload) (epoch : String)
    (entries : List (Sigma fun _ : String => StoredSubscription)) : List Delivery :=
  (entries.filter fun e => e.2.preferences.allows payload.kind).map fun e =>
    deliveryOf payload epoch e.1

/-- **The fan-out**: when it ends without an error, every subscription that allows the kind has got
its delivery, and the queue is not longer than it may be. -/
theorem fanOut_spec (payload : Payload) (epoch : String)
    (entries : List (Sigma fun _ : String => StoredSubscription)) (data : DiskState)
    (hch : (fanOut payload epoch entries data).verdict = .changed) :
    (fanOut payload epoch entries data).data =
        { data with queue := data.queue ++ added payload epoch entries } ∧
      (data.queue.length ≤ maxPending →
        (data.queue ++ added payload epoch entries).length ≤ maxPending) := by
  induction entries generalizing data with
  | nil => simp [fanOut, added]
  | cons e entries ih =>
    obtain ⟨id, sub⟩ := e
    unfold fanOut at hch ⊢
    by_cases hallow : sub.preferences.allows payload.kind = true
    · simp only [hallow, Bool.not_true, Bool.false_eq_true, if_false] at hch ⊢
      by_cases hfull : maxPending ≤ data.queue.length
      · rw [if_pos hfull] at hch
        exact absurd hch (by simp)
      · rw [if_neg hfull] at hch ⊢
        obtain ⟨hdata, hlen⟩ := ih _ hch
        have hadded : added payload epoch (⟨id, sub⟩ :: entries) =
            deliveryOf payload epoch id :: added payload epoch entries := by
          simp [added, hallow]
        rw [hdata, hadded]
        refine ⟨by simp, fun _ => ?_⟩
        have hle : (data.queue ++ [deliveryOf payload epoch id]).length ≤ maxPending := by
          rw [List.length_append, List.length_singleton]
          omega
        simpa using hlen hle
    · have hadded : added payload epoch (⟨id, sub⟩ :: entries) = added payload epoch entries := by
        simp [added, hallow]
      simp only [hallow, Bool.not_false, if_true] at hch ⊢
      rw [hadded]
      exact ih data hch

/-- What an `Enqueue` that changes the state does: its epoch is current, its key is new and becomes
the latest of the ring, and unless it is silent every subscription that allows the kind gets a
delivery. -/
theorem enqueueChange_spec {payload : Payload} {epoch : String} {prime : Bool} {visit : Visit}
    {data : DiskState} (hch : (enqueueChange payload epoch prime visit data).verdict = .changed) :
    data.epoch = epoch ∧ payload.eventKey ∉ data.dedupe ∧
      (enqueueChange payload epoch prime visit data).data =
        { data with
          dedupe := pushKey data.dedupe payload.eventKey
          queue := data.queue ++
            if prime then [] else added payload epoch (visit.order data.subscriptions.entries) } ∧
      (data.queue.length ≤ maxPending → (data.queue ++ if prime then [] else
        added payload epoch (visit.order data.subscriptions.entries)).length ≤ maxPending) := by
  unfold enqueueChange at hch ⊢
  by_cases hskip : data.epoch ≠ epoch ∨ payload.eventKey ∈ data.dedupe
  · rw [if_pos hskip] at hch
    exact absurd hch (by simp)
  rw [if_neg hskip] at hch ⊢
  obtain ⟨hepoch, hkey⟩ := not_or.mp hskip
  refine ⟨not_not.mp hepoch, hkey, ?_⟩
  generalize pushKey data.dedupe payload.eventKey = ring at hch ⊢
  cases prime with
  | true =>
    simp only [if_true, List.append_nil]
    exact ⟨trivial, id⟩
  | false =>
    simp only [Bool.false_eq_true, if_false] at hch ⊢
    exact fanOut_spec _ _ _ _ hch

theorem deliveryOf_id (payload : Payload) (epoch id : String) :
    (deliveryOf payload epoch id).id = payload.eventKey ++ ":" ++ id := rfl

theorem deliveryOf_id_ne (payload : Payload) (epoch id : String) :
    (deliveryOf payload epoch id).id ≠ "" := by
  intro h
  have hlen := congrArg (fun s : String => s.toList.length) h
  simp [deliveryOf_id] at hlen

/-- Different subscriptions get deliveries with different identifiers. -/
theorem added_ids_nodup (payload : Payload) (epoch : String)
    {entries : List (Sigma fun _ : String => StoredSubscription)}
    (h : (entries.map Sigma.fst).Nodup) :
    ((added payload epoch entries).map Delivery.id).Nodup := by
  have hinj : Function.Injective fun id : String => (deliveryOf payload epoch id).id := by
    intro a b hab
    exact (String.append_right_inj _).mp hab
  have hsub : ((entries.filter fun e => e.2.preferences.allows payload.kind).map Sigma.fst).Nodup :=
    h.sublist (List.filter_sublist.map _)
  have hmap : (added payload epoch entries).map Delivery.id =
      ((entries.filter fun e => e.2.preferences.allows payload.kind).map Sigma.fst).map
        fun id => (deliveryOf payload epoch id).id := by
    simp [added, Function.comp_def]
  rw [hmap]
  exact hsub.map hinj

/-- A new delivery to a subscription that exists is valid. -/
theorem deliveryOf_valid {payload : Payload} (epoch : String) {id : String}
    {subs : AList fun _ : String => StoredSubscription} (hpayload : payload.persistedValid = true)
    (hmem : id ∈ subs) : (deliveryOf payload epoch id).valid subs = true := by
  have hlookup : (subs.lookup id).isSome = true := AList.lookup_isSome.mpr hmem
  have hid := deliveryOf_id_ne payload epoch id
  unfold Delivery.valid
  rw [decide_eq_true hid]
  simp [deliveryOf, hlookup, hpayload]

/-- The ring after a new key: short, without repetition, and of digests. -/
theorem pushKey_spec {dedupe : List String} {key : String} (hnew : key ∉ dedupe)
    (hnodup : dedupe.Nodup) :
    (pushKey dedupe key).length ≤ maxDedupe ∧ (pushKey dedupe key).Nodup ∧
      ∀ k ∈ pushKey dedupe key, k ∈ dedupe ∨ k = key := by
  unfold pushKey
  refine ⟨?_, ?_, ?_⟩
  · rw [List.length_drop]
    exact tsub_tsub_le
  · have hall : (dedupe ++ [key]).Nodup := by
      rw [List.nodup_append]
      refine ⟨hnodup, List.nodup_singleton key, ?_⟩
      intro a ha b hb heq
      exact hnew (List.mem_singleton.mp hb ▸ heq ▸ ha)
    exact hall.sublist (List.drop_sublist _ _)
  · intro k hk
    have hmem := List.mem_of_mem_drop hk
    simpa using hmem

/-- The record of a key keeps `Valid`. -/
theorem Valid.remember {L : Libs} {data : DiskState} (h : Valid L data) {key : String}
    (hnew : key ∉ data.dedupe) (hkey : digestID key = true) :
    Valid L { data with dedupe := pushKey data.dedupe key } := by
  obtain ⟨hlen, hnodup, hmem⟩ := pushKey_spec hnew h.dedupe_nodup
  have hdigests : ∀ k ∈ pushKey data.dedupe key, digestID k = true := by
    intro k hk
    rcases hmem k hk with hold | rfl
    · exact h.digests k hold
    · exact hkey
  exact h.withDedupe hlen hdigests hnodup

/-- Deliveries with new identifiers may be appended. -/
theorem Valid.append {L : Libs} {data : DiskState} (h : Valid L data) {items : List Delivery}
    (hlen : (data.queue ++ items).length ≤ maxPending) (hnodup : (items.map Delivery.id).Nodup)
    (hnew : ∀ item ∈ data.queue, ∀ item' ∈ items, item.id ≠ item'.id)
    (hvalid : ∀ item ∈ items, item.valid data.subscriptions = true) :
    Valid L { data with queue := data.queue ++ items } :=
  { h with
    queue_le := hlen
    ids_nodup := by
      rw [List.map_append, List.nodup_append]
      refine ⟨h.ids_nodup, hnodup, ?_⟩
      intro a ha b hb
      obtain ⟨item, hitem, rfl⟩ := List.mem_map.mp ha
      obtain ⟨item', hitem', rfl⟩ := List.mem_map.mp hb
      exact hnew item hitem item' hitem'
    deliveries := fun item hitem =>
      (List.mem_append.mp hitem).elim (h.deliveries item) (hvalid item) }

/-- An `Enqueue` that is admitted queues no delivery under an identifier that is queued already. -/
def Call.Unrepeated (c : Call) (data : DiskState) : Prop :=
  data.epoch = c.epoch → c.payload.eventKey ∉ data.dedupe → c.prime = false →
    ∀ item ∈ data.queue, ∀ item' ∈ added c.payload c.epoch data.subscriptions.entries,
      item.id ≠ item'.id

instance (c : Call) (data : DiskState) : Decidable (c.Unrepeated data) :=
  inferInstanceAs (Decidable (_ → _ → _ → _))

/-- The payload of a call may be stored. -/
structure Call.Ready (c : Call) : Prop where
  key : digestID c.payload.eventKey = true
  payload : c.prime = false → c.payload.persistedValid = true

theorem Valid.enqueue {L : Libs} {data : DiskState} (h : Valid L data) {c : Call} (hready : c.Ready)
    (hnew : c.Unrepeated data)
    (hch : (enqueueChange c.payload c.epoch c.prime c.visit data).verdict = .changed) :
    Valid L (enqueueChange c.payload c.epoch c.prime c.visit data).data := by
  obtain ⟨hepoch, hkey, hdata, hlen⟩ := enqueueChange_spec hch
  rw [hdata]
  have hrec := h.remember hkey hready.key
  generalize pushKey data.dedupe c.payload.eventKey = ring at hrec ⊢
  cases hprime : c.prime with
  | true =>
    simp only [if_true, List.append_nil]
    exact hrec
  | false =>
    rw [hprime] at hlen
    have hperm : (c.visit.order data.subscriptions.entries).Perm data.subscriptions.entries :=
      c.visit.perm _
    -- the map is visited in some order; what is added is the same up to that order
    have hadded : ∀ item ∈ added c.payload c.epoch (c.visit.order data.subscriptions.entries),
        item ∈ added c.payload c.epoch data.subscriptions.entries := by
      intro item hitem
      exact ((hperm.filter _).map _).subset hitem
    have hkeys : ((c.visit.order data.subscriptions.entries).map Sigma.fst).Nodup :=
      (hperm.map Sigma.fst).nodup_iff.mpr data.subscriptions.keys_nodup
    refine hrec.append (hlen h.queue_le) (added_ids_nodup _ _ hkeys) ?_ ?_
    · intro item hitem item' hitem'
      exact hnew hepoch hkey hprime item hitem item' (hadded item' hitem')
    · intro item hitem
      obtain ⟨e, he, rfl⟩ := List.mem_map.mp (hadded item hitem)
      have hmem : e.1 ∈ data.subscriptions :=
        AList.mem_keys.mpr (List.mem_map_of_mem (List.mem_of_mem_filter he))
      exact deliveryOf_valid c.epoch (hready.payload hprime) hmem

/-- `QueueTest` queues no delivery under an identifier that is queued already. -/
def UnrepeatedTest (L : Libs) (endpoint id : String) (now : Instant) (data : DiskState) : Prop :=
  ∀ item ∈ data.queue,
    item.id ≠ (deliveryOf (testPayload L id now) "" (subscriptionID L endpoint)).id

instance (L : Libs) (endpoint id : String) (now : Instant) (data : DiskState) :
    Decidable (UnrepeatedTest L endpoint id now data) :=
  inferInstanceAs (Decidable (∀ _ ∈ data.queue, _))

theorem testPayload_persistedValid (L : Libs) (id : String) {now : Instant} (h : AfterEpoch now) :
    (testPayload L id now).persistedValid = true :=
  persistedValid_makePayload L (by simp [kinds]) (Or.inr rfl) (fun _ => rfl) h.bounds h.bounds _ _ _

theorem Valid.queueTest {L : Libs} {data : DiskState} (h : Valid L data) {endpoint id : String}
    {now : Instant} (hclock : AfterEpoch now) (hnew : UnrepeatedTest L endpoint id now data)
    (hch : (queueTestChange L endpoint id now data).verdict = .changed) :
    Valid L (queueTestChange L endpoint id now data).data := by
  obtain ⟨sub, hlookup, hroom, hcount, -, hdata⟩ := queueTestChange_eq hch
  rw [hdata]
  have hmem : subscriptionID L endpoint ∈ data.subscriptions :=
    AList.lookup_isSome.mp (by rw [hlookup]; rfl)
  obtain ⟨hid, hvalid⟩ := h.subscription ⟨_, sub⟩ (List.of_mem_dlookup hlookup)
  have hsubs : ValidSubscriptions L (data.subscriptions.insert (subscriptionID L endpoint)
      { sub with lastTestMS := unixMilli now }) :=
    h.validSubscriptions.insert hid hvalid (Or.inl hmem)
  have hqueue : ∀ item ∈ data.queue, item.valid (data.subscriptions.insert
      (subscriptionID L endpoint) { sub with lastTestMS := unixMilli now }) = true := by
    intro item hitem
    have hold := h.deliveries item hitem
    exact Delivery.valid_of_mem hold
      ((AList.mem_insert _).mpr (Or.inr (Delivery.mem_of_valid hold)))
  have hlen : (data.queue ++
      [deliveryOf (testPayload L id now) "" (subscriptionID L endpoint)]).length
      ≤ maxPending := by
    rw [List.length_append, List.length_singleton]
    omega
  have hnodup : ([deliveryOf (testPayload L id now) "" (subscriptionID L endpoint)].map
      Delivery.id).Nodup := List.nodup_singleton _
  have htests : (data.tests.filter (fun at_ => unixMilli now - at_ < 60000) ++
      [unixMilli now]).length ≤ 10 := by
    rw [List.length_append, List.length_singleton]
    omega
  have hnarrow := (h.narrow data.epoch hsubs (List.Sublist.refl _) hqueue).withTests htests
  refine hnarrow.append hlen hnodup ?_ ?_
  · intro item hitem item' hitem'
    rw [List.mem_singleton.mp hitem']
    exact hnew item hitem
  · intro item hitem
    rw [List.mem_singleton.mp hitem]
    exact deliveryOf_valid "" (testPayload_persistedValid L id hclock)
      ((AList.mem_insert _).mpr (Or.inl rfl))

/-- `canonicalSubscription` returns subscriptions that pass the check. -/
theorem validSubscription_of_canonical {L : Libs} {sub sub' : Subscription}
    (h : canonicalSubscription L sub = some sub') : L.validSubscription sub' = true := by
  unfold canonicalSubscription at h
  obtain ⟨p256dh, -, h⟩ := Option.bind_eq_some_iff.mp h
  obtain ⟨auth, -, h⟩ := Option.bind_eq_some_iff.mp h
  dsimp only at h
  split_ifs at h with hvalid
  obtain rfl := Option.some.inj h
  exact hvalid

/-- **Every change function keeps validity**, `Enqueue` apart. -/
theorem Valid.change {L : Libs} {data : DiskState} (h : Valid L data) {op op' : Op}
    (hacc : op.accept L = .ok op') (hop : ∀ c : Call, op' ≠ c.op)
    (htest : ∀ endpoint now id, op = .queueTest endpoint now id →
      AfterEpoch now ∧ UnrepeatedTest L endpoint id now data)
    (hch : (op'.change L data).verdict = .changed) : Valid L (op'.change L data).data := by
  cases op with
  | register sub prefs =>
    unfold Op.accept at hacc
    dsimp only at hacc
    cases hsub : canonicalSubscription L sub with
    | none =>
      rw [hsub] at hacc
      exact absurd hacc (by simp)
    | some sub' =>
      rw [hsub] at hacc
      obtain rfl := Except.ok.inj hacc
      exact h.register (validSubscription_of_canonical hsub) prefs hch
  | delete endpoint =>
    obtain rfl := Except.ok.inj hacc
    exact h.delete endpoint hch
  | resetEpoch epoch =>
    obtain rfl := Except.ok.inj hacc
    exact h.resetEpoch epoch
  | enqueue payload epoch prime visit =>
    unfold Op.accept at hacc
    dsimp only at hacc
    split_ifs at hacc
    obtain rfl := Except.ok.inj hacc
    exact absurd rfl (hop ⟨payload, epoch, prime, visit⟩)
  | queueTest endpoint now id =>
    obtain rfl := Except.ok.inj hacc
    obtain ⟨hclock, hnew⟩ := htest endpoint now id rfl
    exact h.queueTest hclock hnew hch
  | pending now =>
    obtain rfl := Except.ok.inj hacc
    exact h.pending now
  | finish item status transient now =>
    obtain rfl := Except.ok.inj hacc
    exact h.finish item status transient now hch

/-- What the processor passes to `Enqueue` may be stored. -/
theorem Built.ready {L : Libs} {now : Instant} {c : Call} (h : Built L now c)
    (hclock : c.prime = false → AfterEpoch now) : c.Ready := by
  cases h with
  | native hsource hcur =>
    refine ⟨?_, fun hprime => ?_⟩
    · rw [(makePayload_members L _ _ _ _ _ _ _).1]
      exact digestID_eventKey L _ _ _ _
    · have hbounds := (hclock hprime).bounds_of_current (hcur hprime)
      rw [(makePayload_members L _ _ _ _ _ _ _).2.2] at hbounds
      dsimp only
      exact persistedValid_makePayload L (by simp [kinds]) hsource (by simp) hbounds
        (hclock hprime).bounds _ _ _
  | synthetic hkind =>
    refine ⟨?_, fun hprime => ?_⟩
    · rw [(makePayload_members L _ _ _ _ _ _ _).1]
      exact digestID_eventKey L _ _ _ _
    · have hkinds : ∀ k ∈ ["ev", "water", "lowBattery"], k ∈ kinds ∧ k ≠ "test" := by decide +kernel
      obtain ⟨hmem, hne⟩ := hkinds _ hkind
      dsimp only
      exact persistedValid_makePayload L hmem (Or.inl rfl) (fun h => absurd h hne)
        (hclock hprime).bounds (hclock hprime).bounds _ _ _

namespace Service

/-! ## Runs -/

/-- The calls of the program: `Enqueue` as the processor calls it, on a clock after the Unix epoch
where a delivery may follow. -/
def Sane (L : Libs) : Event → Prop
  | .enter c => ∃ now, Built L now c ∧ (c.prime = false → AfterEpoch now)
  | .call (.queueTest _ now _) _ => AfterEpoch now
  | _ => True

/-- No step queues a delivery under an identifier that is queued already. -/
def Unrepeated (L : Libs) (s : Service) : Event → Prop
  | .resume i _ => ∀ c ∈ s.waiting[i]?, c.Unrepeated s.store.data
  | .call (.queueTest endpoint now id) _ => UnrepeatedTest L endpoint id now s.store.data
  | _ => True

/-- Both states are valid, the file is not too long, and the waiting calls may be stored. -/
structure Sound (L : Libs) (s : Service) : Prop where
  data : Valid L s.store.data
  disk : Valid L s.store.disk
  size : L.storeSize s.store.disk ≤ maxStoreBytes
  waiting : ∀ c ∈ s.waiting, c.Ready

theorem Sound.of_init {L : Libs} {s : Service} (h : Init L s) : Sound L s := by
  cases h with
  | fresh hkeys hsize =>
    have hvalid : Valid L (Store.freshState _ _) :=
      ⟨rfl, Nat.zero_le _, Nat.zero_le _, Nat.zero_le _, Nat.zero_le _, hkeys,
        List.forall_mem_nil _, List.forall_mem_nil _, List.nodup_nil, List.nodup_nil,
        List.forall_mem_nil _⟩
    exact ⟨hvalid, hvalid, hsize, List.forall_mem_nil _⟩
  | loaded hload =>
    obtain ⟨hsize, hvalid, rfl⟩ := Store.load_eq_some hload
    have hvalid := (valid_iff L _).mp hvalid
    exact ⟨hvalid, hvalid, hsize, List.forall_mem_nil _⟩

/-- A valid next state keeps the store sound, whatever `mutate` made of it. -/
theorem Sound.kept {L : Libs} {s : Service} (h : Sound L s) {next : DiskState} {wrote : Bool}
    {store : Store} (hkept : s.store.Kept L next wrote store)
    (hnext : wrote = true → Valid L next) :
    Valid L store.data ∧ Valid L store.disk ∧ L.storeSize store.disk ≤ maxStoreBytes := by
  cases hkept with
  | same _ hdata hdisk _ =>
    rw [hdata, hdisk]
    exact ⟨h.data, h.disk, h.size⟩
  | saved hw _ hdata hdisk hsize =>
    rw [hdata, hdisk]
    exact ⟨hnext hw, hnext hw, hsize⟩
  | written hw _ hdata hdisk _ hsize =>
    rw [hdata, hdisk]
    exact ⟨h.data, hnext hw, hsize⟩

theorem sound_step (L : Libs) (s : Service) (e : Event) (s' : Service) (h : Sound L s)
    (hok : Sane L e ∧ Unrepeated L s e) (hs : step L s e = some s') : Sound L s' := by
  obtain ⟨hsane, hnew⟩ := hok
  cases step_moved L hs with
  | @called op op' fault store hacc hop hkept hch =>
    have htest : ∀ endpoint now id, op = .queueTest endpoint now id →
        AfterEpoch now ∧ UnrepeatedTest L endpoint id now s.store.data := by
      rintro endpoint now id rfl
      exact ⟨hsane, hnew⟩
    obtain ⟨h₁, h₂, h₃⟩ := h.kept hkept fun hw => h.data.change hacc hop htest (hch hw)
    exact ⟨h₁, h₂, h₃, h.waiting⟩
  | refused => exact h
  | skipped => exact h
  | @entered c hsize =>
    obtain ⟨now, hbuilt, hclock⟩ := hsane
    refine ⟨h.data, h.disk, h.size, ?_⟩
    intro c' hc'
    rcases List.mem_append.mp hc' with hold | hnew'
    · exact h.waiting c' hold
    · rw [List.mem_singleton.mp hnew']
      exact hbuilt.ready hclock
  | @resumed i fault c store hc hkept hch =>
    have hready : c.Ready := h.waiting c (List.mem_of_getElem? hc)
    obtain ⟨h₁, h₂, h₃⟩ := h.kept hkept fun hw =>
      h.data.enqueue hready (hnew c hc) (hch hw)
    exact ⟨h₁, h₂, h₃, fun c' hc' => h.waiting c' ((List.eraseIdx_sublist _ _).subset hc')⟩
  | closed =>
    refine ⟨?_, ?_, ?_, h.waiting⟩
    · rw [close_data]
      exact h.data
    · rw [close_disk]
      exact h.disk
    · rw [close_disk]
      exact h.size
  | restarted hload =>
    obtain ⟨hsize, -, rfl⟩ := Store.load_eq_some hload
    exact ⟨h.disk, h.disk, hsize, List.forall_mem_nil _⟩

/-- **What the store writes can be loaded again.** In every run in which no step queues an
identifier that is queued already, the state in memory and the file are valid, and a restart
accepts the file.

**Proof sketch.** Induction over the run. A step that writes nothing changes neither state; one that
writes stores what its change function made of a valid state, and each of them keeps validity. -/
theorem valid_of_reachable {L : Libs} {s : Service}
    (h : Transition.Reachable (step L) (fun s e => Sane L e ∧ Unrepeated L s e) (Init L) s) :
    validDiskState L s.store.data = true ∧ validDiskState L s.store.disk = true ∧
      (Store.load L s.store.disk).isSome = true := by
  have hsound : Sound L s :=
    Transition.Reachable.invariant (fun _ => Sound.of_init) (sound_step L) h
  have hdisk := (valid_iff L _).mpr hsound.disk
  refine ⟨(valid_iff L _).mpr hsound.data, hdisk, ?_⟩
  unfold Store.load
  rw [if_pos ⟨hsound.size, hdisk⟩]
  rfl

/-! ## A delivery that the ring has forgotten -/

/-- A browser's subscription. -/
def sampleSubscription : Subscription :=
  { endpoint := "https://fcm.googleapis.com/fcm/send/a"
    auth := "AAAAAAAAAAAAAAAAAAAAAA"
    p256dh := "BGsX0fLhLEJH-Lzm5WOkQPJ3A32BLeszoPShOUXYmMKWT-NC4v4af5uO5-tKfA-eFivOM1drMV7Oy7ZAaDe_UfU" }

/-- The hashes of that subscription's endpoint and of one event. -/
def sampleHash (text : String) : String :=
  if text = "https://fcm.googleapis.com/fcm/send/a" then
    "168cd2d59d77208396024219a6d9fa252a0f611dd98493a6912f5a5014d105ec"
  else if text = "[\"native\",\"victron\",\"alarm-1\",1760000000000]" then
    "325ddaeec0e3e8ec6936f4ccac9199e733d954bbd45d43c1513c45665099abac"
  else "e3b0c44298fc1c149afbf4c8996fb92427ae41e4649b934ca495991b7852b855"

theorem digestID_sampleHash (text : String) : digestID (sampleHash text) = true := by
  unfold sampleHash
  split_ifs <;> decide +kernel

/-- The libraries on those texts and keys. -/
def sampleLibs : Libs where
  sha256 := sampleHash
  digest := digestID_sampleHash
  decodeKey := some
  validSubscription sub := decide (sub = sampleSubscription)
  validKeys privateKey publicKey :=
    decide (privateKey = "AAAAAAAAAAAAAAAAAAAAAAAAAAAAAAAAAAAAAAAAAAE" ∧
      publicKey = sampleSubscription.p256dh)
  storeSize data := 300 + 400 * data.subscriptions.entries.length + 70 * data.dedupe.length +
    1000 * data.queue.length + 20 * data.tests.length

/-- 1760000000 s after the epoch. -/
def sampleNow : Instant := seconds 1760000000

/-- A warning of that instant. -/
def sampleCall : Call :=
  { payload :=
      makePayload sampleLibs "native" "victron" "alarm-1" "Low battery" "" sampleNow sampleNow
    epoch := "e1"
    prime := false
    visit := Visit.same }

theorem sane_sampleCall : Sane sampleLibs (.enter sampleCall) :=
  ⟨sampleNow, .native (Or.inl rfl) (fun _ => by decide +kernel), fun _ => by decide +kernel⟩

/-- A file with one subscription. -/
def sampleState : DiskState :=
  { schemaVersion := 1
    privateKey := "AAAAAAAAAAAAAAAAAAAAAAAAAAAAAAAAAAAAAAAAAAE"
    publicKey := sampleSubscription.p256dh
    epoch := "e1"
    subscriptions := AList.singleton
      "168cd2d59d77208396024219a6d9fa252a0f611dd98493a6912f5a5014d105ec"
      ⟨sampleSubscription, defaultPreferences, 0⟩
    dedupe := []
    queue := []
    tests := [] }

/-- The warning is queued for the subscription, and the ring does not hold its key any more. -/
def agedState : DiskState :=
  { sampleState with
    queue := added sampleCall.payload "e1" sampleState.subscriptions.entries }

theorem init_of_valid {L : Libs} {disk : DiskState} (hsize : L.storeSize disk ≤ maxStoreBytes)
    (hvalid : validDiskState L disk = true) : Init L { store := { data := disk, disk := disk } } :=
  .loaded (if_pos ⟨hsize, hvalid⟩)

/-- The waiting call may be resumed and then leaves one delivery and one key in the file. -/
def queuesOnce (s : Service) : Bool :=
  decide (∀ c ∈ s.waiting[0]?, c.Unrepeated s.store.data) &&
    (step sampleLibs s (.resume 0 none)).any fun s' : Service =>
      decide (s'.store.disk.queue.length = 1) && decide (s'.store.disk.dedupe.length = 1)

theorem valid_of_reachable_queued :
    ∃ s : Service, s.store.disk.queue.length = 1 ∧ s.store.disk.dedupe.length = 1 ∧
      validDiskState sampleLibs s.store.data = true ∧
      validDiskState sampleLibs s.store.disk = true ∧
      (Store.load sampleLibs s.store.disk).isSome = true := by
  have hinit : Init sampleLibs { store := { data := sampleState, disk := sampleState } } :=
    init_of_valid (by decide +kernel) (by decide +kernel)
  obtain ⟨s₁, hreach, hp⟩ := Transition.Reachable.exists_of_run (step sampleLibs)
    (fun s e => Sane sampleLibs e ∧ Unrepeated sampleLibs s e) [.enter sampleCall]
    queuesOnce hinit ⟨⟨sane_sampleCall, trivial⟩, fun _ _ => trivial⟩ (by decide +kernel)
  rw [queuesOnce, Bool.and_eq_true, decide_eq_true_eq] at hp
  obtain ⟨s, hstep, hlen⟩ := (Option.any_eq_true _ _).mp hp.2
  rw [Bool.and_eq_true, decide_eq_true_eq, decide_eq_true_eq] at hlen
  have hok : Sane sampleLibs (.resume 0 none) ∧ Unrepeated sampleLibs s₁ (.resume 0 none) :=
    ⟨trivial, hp.1⟩
  exact ⟨s, hlen.1, hlen.2, valid_of_reachable (hreach.next hok hstep)⟩

theorem corrupt_after_repeat :
    ∃ s : Service, Transition.Reachable (step sampleLibs) (fun _ e => Sane sampleLibs e)
        (Init sampleLibs) s ∧
      (validDiskState sampleLibs s.store.data = false ∧
        validDiskState sampleLibs s.store.disk = false ∧
        (Store.load sampleLibs s.store.disk).isNone = true) := by
  have hinit : Init sampleLibs { store := { data := agedState, disk := agedState } } :=
    init_of_valid (by decide +kernel) (by decide +kernel)
  obtain ⟨s, hreach, hp⟩ := Transition.Reachable.exists_of_run (step sampleLibs)
    (fun _ e => Sane sampleLibs e) [.enter sampleCall, .resume 0 none]
    (fun s => decide (validDiskState sampleLibs s.store.data = false ∧
      validDiskState sampleLibs s.store.disk = false ∧
        (Store.load sampleLibs s.store.disk).isNone = true))
    hinit ⟨sane_sampleCall, fun _ _ => ⟨trivial, fun _ _ => trivial⟩⟩ (by decide +kernel)
  exact ⟨s, hreach, of_decide_eq_true hp⟩

end Service

end Push
