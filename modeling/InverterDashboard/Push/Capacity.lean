import InverterDashboard.Push.Atomic
import InverterDashboard.Push.Encoding

set_option relaxedAutoImplicit false
set_option autoImplicit false

/-!
# The store is never too long to be saved

Every change function keeps a state within its limits, so no run of the store reaches a state that
is longer than 8 MiB. A repeated identifier, which a restart would refuse, does no harm here.

## Main definitions

* `Push.Canonical` — what the limits need beside `validDiskState`.
* `Push.Service.Regular` — the calls of the program.
* `Push.Service.encodedStep` — the service, on a store that measures the bytes it writes.

## Main results

* `Push.Storable.change`, `Push.Storable.enqueue` — every change function keeps the limits.
* `Push.Service.saves_of_reachable` — no save fails for size, and the store gives up only after a
  fault of the file system.
-/

namespace Push

open Go (IntSize)

variable {L : Libs} {data : DiskState}

/-! ## States within the limits -/

/-- The conditions on a state beside `validDiskState`: canonical subscriptions, keys of the
canonical length, epochs and identifiers of their form, and numbers of the type `int64`. -/
structure Canonical (L : Libs) (data : DiskState) : Prop where
  privateKey : byteLength data.privateKey = 43
  publicKey : byteLength data.publicKey = 87
  epoch : isEpoch data.epoch = true
  subscription : ∀ e ∈ data.subscriptions.entries, e.2.Storable L
  id : ∀ item ∈ data.queue, item.id = item.payload.eventKey ++ ":" ++ item.subscriptionID
  deliveryEpoch : ∀ item ∈ data.queue, isEpoch item.epoch = true
  nextAttempt : ∀ item ∈ data.queue, IntSize.bits64.Holds item.nextAttemptMS
  test : ∀ at_ ∈ data.tests, IntSize.bits64.Holds at_

theorem holds_zero : IntSize.bits64.Holds 0 := by decide

/-- What `persistedValid` says of the key and the size. -/
theorem Payload.of_persistedValid {p : Payload} (h : p.persistedValid = true) :
    digestID p.eventKey = true ∧ p.size ≤ maxPayloadBytes := by
  simp only [Payload.persistedValid, Bool.and_eq_true, decide_eq_true_eq] at h
  tauto

/-- A valid canonical state is within the limits. -/
theorem Canonical.storable (h : Canonical L data) (hvalid : Valid L data) : Storable L data where
  version := hvalid.version
  privateKey := h.privateKey
  publicKey := h.publicKey
  epoch := h.epoch
  subscriptions_le := hvalid.subscriptions_le
  subscription e he := by
    refine ⟨?_, h.subscription e he⟩
    rw [(hvalid.subscription e he).1]
    exact L.digest _
  dedupe_le := hvalid.dedupe_le
  digest := hvalid.digests
  queue_le := hvalid.queue_le
  delivery item hitem := by
    have hv := hvalid.deliveries item hitem
    have hmem := Delivery.mem_of_valid hv
    simp only [Delivery.valid, Bool.and_eq_true, decide_eq_true_eq] at hv
    obtain ⟨hkey, hsize⟩ := Payload.of_persistedValid hv.1.1.2
    obtain ⟨sub, hsub⟩ := Option.isSome_iff_exists.mp (AList.lookup_isSome.mpr hmem)
    have hid : item.subscriptionID = subscriptionID L sub.subscription.endpoint :=
      (hvalid.subscription ⟨_, sub⟩ (List.of_mem_dlookup hsub)).1
    have hdigest : digestID item.subscriptionID = true := hid ▸ L.digest _
    exact ⟨h.id item hitem, hkey, hdigest, h.deliveryEpoch item hitem, hsize, ⟨hv.1.2, hv.2⟩,
      h.nextAttempt item hitem⟩
  tests_le := hvalid.tests_le
  test := h.test

/-! ## One lemma for each change function -/

/-- Another set of subscriptions, and deliveries that are no more than before. -/
theorem Storable.replace (h : Storable L data) {subs : AList fun _ : String => StoredSubscription}
    (hsubs : subs.entries.length ≤ maxSubscriptions)
    (hsub : ∀ e ∈ subs.entries, digestID e.1 = true ∧ e.2.Storable L) {queue : List Delivery}
    (hlen : queue.length ≤ maxPending) (hitem : ∀ item ∈ queue, item.Storable) :
    Storable L { data with subscriptions := subs, queue := queue } :=
  { h with
    subscriptions_le := hsubs
    subscription := hsub
    queue_le := hlen
    delivery := hitem }

theorem Storable.filter_queue (h : Storable L data) (p : Delivery → Bool) :
    (data.queue.filter p).length ≤ maxPending ∧ ∀ item ∈ data.queue.filter p, item.Storable :=
  ⟨(List.length_filter_le _ _).trans h.queue_le,
    fun item hitem => h.delivery item (List.mem_of_mem_filter hitem)⟩

/-- A record in place of another one, or where there is room. -/
theorem Storable.insert (h : Storable L data) {id : String} {sub : StoredSubscription}
    (hid : digestID id = true) (hsub : sub.Storable L)
    (hroom : id ∈ data.subscriptions ∨ data.subscriptions.entries.length < maxSubscriptions) :
    (data.subscriptions.insert id sub).entries.length ≤ maxSubscriptions ∧
      ∀ e ∈ (data.subscriptions.insert id sub).entries, digestID e.1 = true ∧ e.2.Storable L := by
  refine ⟨length_insert_le h.subscriptions_le hroom, fun e he => ?_⟩
  rcases mem_insert_entries he with rfl | he
  · exact ⟨hid, hsub⟩
  · exact h.subscription e he

theorem Storable.erase (h : Storable L data) (id : String) :
    (data.subscriptions.erase id).entries.length ≤ maxSubscriptions ∧
      ∀ e ∈ (data.subscriptions.erase id).entries, digestID e.1 = true ∧ e.2.Storable L :=
  ⟨(List.kerase_sublist id data.subscriptions.entries).length_le.trans h.subscriptions_le,
    fun e he => h.subscription e ((List.kerase_sublist id data.subscriptions.entries).subset he)⟩

theorem Storable.register (h : Storable L data) {raw sub : Subscription}
    (hraw : canonicalSubscription L raw = some sub) {prefs : Preferences}
    (hch : (registerChange L sub prefs data).verdict = .changed) :
    Storable L (registerChange L sub prefs data).data := by
  obtain ⟨hroom, hdata⟩ := registerChange_spec hch
  rw [hdata]
  have htime : IntSize.bits64.Holds (((data.subscriptions.lookup
      (subscriptionID L sub.endpoint)).map StoredSubscription.lastTestMS).getD 0) := by
    cases hold : data.subscriptions.lookup (subscriptionID L sub.endpoint) with
    | none => exact holds_zero
    | some old => exact (h.subscription ⟨_, old⟩ (List.of_mem_dlookup hold)).2.lastTest
  have hnew : StoredSubscription.Storable L ⟨sub, prefs, ((data.subscriptions.lookup
      (subscriptionID L sub.endpoint)).map StoredSubscription.lastTestMS).getD 0⟩ :=
    ⟨⟨raw, hraw⟩, htime⟩
  obtain ⟨hlen, hsubs⟩ := h.insert (L.digest sub.endpoint) hnew hroom
  obtain ⟨hqueue, hitems⟩ := h.filter_queue fun item =>
    item.subscriptionID ≠ subscriptionID L sub.endpoint || prefs.allows item.payload.kind
  exact h.replace hlen hsubs hqueue hitems

theorem Storable.delete (h : Storable L data) {endpoint : String}
    (hch : (deleteChange L endpoint data).verdict = .changed) :
    Storable L (deleteChange L endpoint data).data := by
  rw [deleteChange_spec hch]
  obtain ⟨hlen, hsubs⟩ := h.erase (subscriptionID L endpoint)
  obtain ⟨hqueue, hitems⟩ := h.filter_queue fun item =>
    item.subscriptionID ≠ subscriptionID L endpoint
  exact h.replace hlen hsubs hqueue hitems

theorem Storable.resetEpoch (h : Storable L data) {epoch : String} (hepoch : isEpoch epoch = true) :
    Storable L (resetEpochChange epoch data).data := by
  obtain ⟨hqueue, hitems⟩ := h.filter_queue fun item => item.payload.kind = "test"
  exact { h with epoch := hepoch, queue_le := hqueue, delivery := hitems }

theorem Storable.pending (h : Storable L data) (now : Instant) :
    Storable L (pendingChange now data).data := by
  obtain ⟨hqueue, hitems⟩ := h.filter_queue fun item => item.lives data.epoch now
  exact h.replace h.subscriptions_le h.subscription hqueue hitems

/-- An instant whose milliseconds, and those of the next attempts after it, fit their type. -/
def InRange (now : Instant) : Prop :=
  IntSize.bits64.Holds (unixMilli now) ∧ IntSize.bits64.Holds (unixMilli (now + seconds 10))

instance (now : Instant) : Decidable (InRange now) := inferInstanceAs (Decidable (_ ∧ _))

theorem InRange.holds {now : Instant} (h : InRange now) {n : ℤ} (hpos : 0 ≤ n) (hle : n ≤ 2) :
    IntSize.bits64.Holds (unixMilli (now + seconds (n * 5))) := by
  obtain ⟨⟨hlo, -⟩, -, hhi⟩ := h
  unfold unixMilli seconds at *
  constructor <;> omega

theorem Storable.finish (h : Storable L data) {item : Delivery} {status : ℤ} {transient : Bool}
    {now : Instant} (hnow : InRange now)
    (hch : (finishChange item status transient now data).verdict = .changed) :
    Storable L (finishChange item status transient now data).data := by
  have hsubs : (finishSubscriptions item status data).entries.length ≤ maxSubscriptions ∧
      ∀ e ∈ (finishSubscriptions item status data).entries,
        digestID e.1 = true ∧ e.2.Storable L := by
    unfold finishSubscriptions
    split_ifs
    · exact h.erase _
    · exact ⟨h.subscriptions_le, h.subscription⟩
  rw [(finishChange_spec hch).2]
  refine h.replace hsubs.1 hsubs.2 ((List.length_filterMap_le _ _).trans h.queue_le) ?_
  intro kept hkept
  obtain ⟨queued, hqueued, hq⟩ := List.mem_filterMap.mp hkept
  have hold := h.delivery queued hqueued
  obtain ⟨-, rfl | ⟨hlt, next, rfl, rfl⟩⟩ := finishItem_eq_some hq
  · exact hold
  · have hpos := hold.attempts.1
    exact { hold with
      attempts := ⟨by dsimp only; omega, by dsimp only; omega⟩
      nextAttempt := hnow.holds (by omega) (by omega) }

/-- A delivery of a payload that fits, to a subscription that exists. -/
theorem storable_deliveryOf {payload : Payload} (hkey : digestID payload.eventKey = true)
    (hsize : payload.size ≤ maxPayloadBytes) {epoch id : String} (hepoch : isEpoch epoch = true)
    (hid : digestID id = true) : (deliveryOf payload epoch id).Storable :=
  ⟨rfl, hkey, hid, hepoch, hsize, ⟨le_rfl, zero_le_three⟩, holds_zero⟩

/-- The payload of a test fits at any time. -/
theorem size_testPayload_le (L : Libs) (id : String) {now : Instant} (h : InRange now) :
    (testPayload L id now).size ≤ maxPayloadBytes := by
  have hkey := jsonStringSize_le (eventKey L "test" "system" id (unixMilli now))
  rw [length_of_digestID (digestID_eventKey L "test" "system" id (unixMilli now))] at hkey
  have htime := jsonIntSize_le_of_holds h.1
  have hrest : Payload.frame.length ≤ 200 ∧ jsonIntSize 1 = 1 ∧ jsonStringSize "test" = 6 ∧
      jsonStringSize "system" = 8 ∧ jsonStringSize "" = 2 ∧ jsonStringSize "/" = 3 ∧
      jsonStringSize (if boundedText "Test notification" 120 = "" then "Notification"
        else boundedText "Test notification" 120) = 19 := by decide
  unfold testPayload makePayload
  dsimp only
  refine size_fitBody_le rfl ?_ _ _
  unfold Payload.size maxPayloadBytes
  dsimp only
  omega

theorem Storable.queueTest (h : Storable L data) {endpoint id : String} {now : Instant}
    (hnow : InRange now) (hch : (queueTestChange L endpoint id now data).verdict = .changed) :
    Storable L (queueTestChange L endpoint id now data).data := by
  obtain ⟨sub, hlookup, hroom, hcount, -, hdata⟩ := queueTestChange_eq hch
  rw [hdata]
  have hmem : subscriptionID L endpoint ∈ data.subscriptions :=
    AList.lookup_isSome.mp (by rw [hlookup]; rfl)
  have hsub := (h.subscription ⟨_, sub⟩ (List.of_mem_dlookup hlookup)).2
  have hnew : StoredSubscription.Storable L { sub with lastTestMS := unixMilli now } :=
    ⟨hsub.accepted, hnow.1⟩
  obtain ⟨hlen, hsubs⟩ := h.insert (L.digest endpoint) hnew (Or.inl hmem)
  have hkey : digestID (testPayload L id now).eventKey = true := by
    rw [testPayload, (makePayload_members L _ _ _ _ _ _ _).1]
    exact digestID_eventKey L _ _ _ _
  have hqueue : (data.queue ++
      [deliveryOf (testPayload L id now) "" (subscriptionID L endpoint)]).length ≤ maxPending := by
    rw [List.length_append, List.length_singleton]
    omega
  have htests : (data.tests.filter (fun at_ => unixMilli now - at_ < 60000) ++
      [unixMilli now]).length ≤ 10 := by
    rw [List.length_append, List.length_singleton]
    omega
  refine { h.replace hlen hsubs hqueue ?_ with tests_le := htests, test := ?_ }
  · intro item hitem
    rcases List.mem_append.mp hitem with hold | hnew
    · exact h.delivery item hold
    · rw [List.mem_singleton.mp hnew]
      exact storable_deliveryOf hkey (size_testPayload_le L id hnow) rfl (L.digest endpoint)
  · intro at_ hat
    rcases List.mem_append.mp hat with hold | hnew
    · exact h.test at_ (List.mem_of_mem_filter hold)
    · rw [List.mem_singleton.mp hnew]
      exact hnow.1

/-- What an `Enqueue` needs to keep a state within the limits. -/
structure Call.Bounded (c : Call) : Prop where
  key : digestID c.payload.eventKey = true
  size : c.payload.size ≤ maxPayloadBytes

theorem Storable.enqueue (h : Storable L data) {c : Call} (hc : c.Bounded)
    (hch : (enqueueChange c.payload c.epoch c.prime c.visit data).verdict = .changed) :
    Storable L (enqueueChange c.payload c.epoch c.prime c.visit data).data := by
  obtain ⟨hepoch, -, hdata, hlen⟩ := enqueueChange_spec hch
  have hring : (pushKey data.dedupe c.payload.eventKey).length ≤ maxDedupe ∧
      ∀ key ∈ pushKey data.dedupe c.payload.eventKey, digestID key = true := by
    refine ⟨?_, fun key hkey => ?_⟩
    · unfold pushKey
      rw [List.length_drop]
      exact tsub_tsub_le
    · rcases List.mem_append.mp (List.mem_of_mem_drop hkey) with hold | hnew
      · exact h.digest key hold
      · rw [List.mem_singleton.mp hnew]
        exact hc.key
  rw [hdata]
  generalize pushKey data.dedupe c.payload.eventKey = ring at hring ⊢
  refine { h with
    dedupe_le := hring.1
    digest := hring.2
    queue_le := hlen h.queue_le
    delivery := fun item hitem => ?_ }
  rcases List.mem_append.mp hitem with hold | hnew
  · exact h.delivery item hold
  · split_ifs at hnew
    · cases hnew
    · obtain ⟨e, he, rfl⟩ := List.mem_map.mp hnew
      have hmem : e ∈ data.subscriptions.entries :=
        (c.visit.perm _).subset (List.mem_of_mem_filter he)
      exact storable_deliveryOf hc.key hc.size (hepoch ▸ h.epoch) (h.subscription e hmem).1

/-- The arguments that the program passes to the operations: epochs of `randomID`, and clocks whose
milliseconds fit their type. -/
def Op.Regular : Op → Prop
  | .resetEpoch epoch => isEpoch epoch = true
  | .queueTest _ now _ => InRange now
  | .finish _ _ _ now => InRange now
  | _ => True

instance : DecidablePred Op.Regular
  | .resetEpoch epoch => inferInstanceAs (Decidable (isEpoch epoch = true))
  | .queueTest _ now _ => inferInstanceAs (Decidable (InRange now))
  | .finish _ _ _ now => inferInstanceAs (Decidable (InRange now))
  | .register _ _ | .delete _ | .enqueue _ _ _ _ | .pending _ => isTrue trivial

/-- **Every change function keeps the limits**, `Enqueue` apart. -/
theorem Storable.change (h : Storable L data) {op op' : Op} (hacc : op.accept L = .ok op')
    (hop : ∀ c : Call, op' ≠ c.op) (hregular : op.Regular)
    (hch : (op'.change L data).verdict = .changed) : Storable L (op'.change L data).data := by
  cases op with
  | register sub prefs =>
    unfold Op.accept at hacc
    dsimp only at hacc
    cases hsub : canonicalSubscription L sub with
    | none =>
      rw [hsub] at hacc
      cases hacc
    | some sub' =>
      rw [hsub] at hacc
      obtain rfl := Except.ok.inj hacc
      exact h.register hsub hch
  | delete endpoint =>
    obtain rfl := Except.ok.inj hacc
    exact h.delete hch
  | resetEpoch epoch =>
    obtain rfl := Except.ok.inj hacc
    exact h.resetEpoch hregular
  | enqueue payload epoch prime visit =>
    unfold Op.accept at hacc
    dsimp only at hacc
    split_ifs at hacc
    obtain rfl := Except.ok.inj hacc
    exact absurd rfl (hop ⟨payload, epoch, prime, visit⟩)
  | queueTest endpoint now id =>
    obtain rfl := Except.ok.inj hacc
    exact h.queueTest hregular hch
  | pending now =>
    obtain rfl := Except.ok.inj hacc
    exact h.pending now
  | finish item status transient now =>
    obtain rfl := Except.ok.inj hacc
    exact h.finish hregular hch

/-! ## Saving -/

/-- A call that does not fail for size, and after which the store has given up only if it had given
up before or met a fault of the file system. -/
def Store.InSize (s : Store) (fault : Option SaveFault) (r : Store × Option PushError) : Prop :=
  r.2 ≠ some .limitExceeded ∧ (r.1.failed = true → s.failed = true ∨ fault.isSome = true)

theorem Store.save_ne_limitExceeded {s : Store} {next : DiskState} {fault : Option SaveFault}
    (h : L.storeSize next ≤ maxStoreBytes) :
    (s.save L next fault).2 ≠ some .limitExceeded := by
  unfold Store.save
  rw [if_neg (not_lt.mpr h)]
  cases fault with
  | none => simp
  | some f => cases f <;> simp [SaveFault.error]

/-- `mutate` of a change that leaves a state within the size. -/
theorem Store.inSize_mutate {s : Store} {change : DiskState → Change} {fault : Option SaveFault}
    (hsize : (change s.data).verdict = .changed →
      L.storeSize (change s.data).data ≤ maxStoreBytes)
    (hne : (change s.data).verdict ≠ .failed .limitExceeded) :
    s.InSize fault (s.mutate L change fault) := by
  generalize hr : s.mutate L change fault = r
  have hcases := s.mutate_cases L change fault
  rw [hr] at hcases
  cases hcases with
  | refused _ => exact ⟨by simp, Or.inl⟩
  | @rejected e _ hv =>
    rw [hv] at hne
    exact ⟨fun h => hne (congrArg Verdict.failed (Option.some.inj h)), Or.inl⟩
  | unchanged _ _ => exact ⟨by simp, Or.inl⟩
  | @unsaved disk e _ hv hsave =>
    have hlimit : (s.save L (change s.data).data fault).2 ≠ some .limitExceeded :=
      Store.save_ne_limitExceeded (hsize hv)
    rw [hsave] at hlimit
    refine ⟨hlimit, fun _ => Or.inr ?_⟩
    cases fault with
    | none =>
      unfold Store.save at hsave
      rw [if_neg (not_lt.mpr (hsize hv))] at hsave
      cases hsave
    | some f => rfl
  | saved _ _ _ => exact ⟨by simp, Or.inl⟩

theorem fanOut_ne_limitExceeded (payload : Payload) (epoch : String)
    (entries : List (Sigma fun _ : String => StoredSubscription)) (data : DiskState) :
    (fanOut payload epoch entries data).verdict ≠ .failed .limitExceeded := by
  induction entries generalizing data with
  | nil => simp [fanOut]
  | cons e entries ih =>
    unfold fanOut
    split_ifs
    · exact ih data
    · simp
    · exact ih _

/-- No change function fails for size. -/
theorem Op.change_ne_limitExceeded (L : Libs) (op : Op) (data : DiskState) :
    (op.change L data).verdict ≠ .failed .limitExceeded := by
  cases op with
  | register sub prefs =>
    show (registerChange L sub prefs data).verdict ≠ _
    unfold registerChange
    dsimp only
    split_ifs <;> simp
  | delete endpoint =>
    show (deleteChange L endpoint data).verdict ≠ _
    unfold deleteChange
    dsimp only
    split_ifs <;> simp
  | resetEpoch epoch => exact Verdict.noConfusion
  | enqueue payload epoch prime visit =>
    show (enqueueChange payload epoch prime visit data).verdict ≠ _
    unfold enqueueChange
    dsimp only
    split_ifs
    · simp
    · simp
    · exact fanOut_ne_limitExceeded _ _ _ _
  | queueTest endpoint now id =>
    show (queueTestChange L endpoint id now data).verdict ≠ _
    unfold queueTestChange
    dsimp only
    split
    · simp
    · split_ifs <;> simp
  | pending now =>
    show (pendingChange now data).verdict ≠ _
    unfold pendingChange
    dsimp only
    split_ifs <;> simp
  | finish item status transient now =>
    show (finishChange item status transient now data).verdict ≠ _
    unfold finishChange
    split_ifs <;> simp

/-- The checks of the arguments neither fail for size nor make an `Enqueue` of another operation. -/
theorem Op.accept_cases (L : Libs) {op : Op} (hop : ∀ c : Call, op ≠ c.op) :
    (∃ e, op.accept L = .error e ∧ e ≠ .limitExceeded) ∨
      ∃ op', op.accept L = .ok op' ∧ ∀ c : Call, op' ≠ c.op := by
  cases op with
  | register sub prefs =>
    unfold Op.accept
    dsimp only
    cases canonicalSubscription L sub with
    | none => exact Or.inl ⟨_, rfl, by simp⟩
    | some sub' => exact Or.inr ⟨_, rfl, by simp [Call.op]⟩
  | enqueue payload epoch prime visit => exact absurd rfl (hop ⟨payload, epoch, prime, visit⟩)
  | delete endpoint => exact Or.inr ⟨_, rfl, hop⟩
  | resetEpoch epoch => exact Or.inr ⟨_, rfl, hop⟩
  | queueTest endpoint now id => exact Or.inr ⟨_, rfl, hop⟩
  | pending now => exact Or.inr ⟨_, rfl, hop⟩
  | finish item status transient now => exact Or.inr ⟨_, rfl, hop⟩

/-- An operation on a state within the limits. -/
theorem Store.inSize_perform {s : Store} (h : Storable L s.data)
    (hsize : ∀ next, Storable L next → L.storeSize next ≤ maxStoreBytes) {op : Op}
    (hop : ∀ c : Call, op ≠ c.op) (hregular : op.Regular) (fault : Option SaveFault) :
    s.InSize fault (s.perform L op fault) := by
  rcases Op.accept_cases L hop with ⟨e, hacc, hne⟩ | ⟨op', hacc, hop'⟩
  · have hperform : s.perform L op fault = (s, some e) := by
      unfold Store.perform
      rw [hacc]
    rw [hperform]
    exact ⟨fun heq => hne (Option.some.inj heq), Or.inl⟩
  · rw [Store.perform_eq_mutate hacc]
    exact Store.inSize_mutate (fun hch => hsize _ (h.change hacc hop' hregular hch))
      (op'.change_ne_limitExceeded L s.data)

/-! ## The bytes that are measured -/

/-- How empty lists are written plays no part in the limits. -/
theorem storable_withNils {nils : Nils} : Storable (L.withNils nils) data ↔ Storable L data := by
  have hsub : ∀ sub : StoredSubscription, sub.Storable (L.withNils nils) ↔ sub.Storable L :=
    fun sub => ⟨fun h => ⟨h.accepted, h.lastTest⟩, fun h => ⟨h.accepted, h.lastTest⟩⟩
  constructor
  · rintro ⟨h₁, h₂, h₃, h₄, h₅, h₆, h₇, h₈, h₉, h₁₀, h₁₁, h₁₂⟩
    exact ⟨h₁, h₂, h₃, h₄, h₅, fun e he => ⟨(h₆ e he).1, (hsub e.2).mp (h₆ e he).2⟩, h₇, h₈, h₉,
      h₁₀, h₁₁, h₁₂⟩
  · rintro ⟨h₁, h₂, h₃, h₄, h₅, h₆, h₇, h₈, h₉, h₁₀, h₁₁, h₁₂⟩
    exact ⟨h₁, h₂, h₃, h₄, h₅, fun e he => ⟨(h₆ e he).1, (hsub e.2).mpr (h₆ e he).2⟩, h₇, h₈, h₉,
      h₁₀, h₁₁, h₁₂⟩

theorem valid_withNils {nils : Nils} : Valid (L.withNils nils) data ↔ Valid L data :=
  ⟨fun h => ⟨h.version, h.subscriptions_le, h.dedupe_le, h.queue_le, h.tests_le, h.keys,
      h.subscription, h.digests, h.dedupe_nodup, h.ids_nodup, h.deliveries⟩,
    fun h => ⟨h.version, h.subscriptions_le, h.dedupe_le, h.queue_le, h.tests_le, h.keys,
      h.subscription, h.digests, h.dedupe_nodup, h.ids_nodup, h.deliveries⟩⟩

namespace Service

/-- The error that a step returns to the caller of an operation. -/
def reply (L : Libs) (s : Service) : Event → Option PushError
  | .call op fault => (s.store.perform L op fault).2
  | .resume i fault => s.waiting[i]?.bind fun c => (s.store.mutate L (c.op.change L) fault).2
  | _ => none

/-- The fault of the file system that a step meets. -/
def Event.fault : Event → Option SaveFault
  | .call _ fault => fault
  | .resume _ fault => fault
  | _ => none

/-- The calls of the program: `Enqueue` as the processor calls it, epochs of `randomID`, and clocks
whose milliseconds fit their type. -/
def Regular (L : Libs) : Event → Prop
  | .call op _ => op.Regular
  | .enter c => ∃ now, Built L now c
  | _ => True

/-- One step of a service that measures the bytes it writes; which empty lists are nil depends on
how the state came about, and is left open in every step. -/
def encodedStep (L : Libs) (s : Service) (e : Event × Nils) : Option Service :=
  step (L.withNils e.2) s e.1

/-- A run starts with a new installation or an accepted file, in canonical form. -/
def Starts (L : Libs) (s : Service) : Prop :=
  (∃ nils, Init (L.withNils nils) s) ∧ Canonical L s.store.data

/-- Both states are within the limits, and so are the waiting calls. -/
structure InLimits (L : Libs) (s : Service) : Prop where
  data : Storable L s.store.data
  disk : Storable L s.store.disk
  waiting : ∀ c ∈ s.waiting, c.Bounded

theorem InLimits.of_starts {s : Service} (h : Starts L s) : InLimits L s := by
  obtain ⟨⟨nils, hinit⟩, hcanonical⟩ := h
  have hdata : Storable L s.store.data :=
    hcanonical.storable (valid_withNils.mp (Sound.of_init hinit).data)
  cases hinit with
  | fresh _ _ => exact ⟨hdata, hdata, List.forall_mem_nil _⟩
  | loaded hload =>
    obtain ⟨-, -, rfl⟩ := Store.load_eq_some hload
    exact ⟨hdata, hdata, List.forall_mem_nil _⟩

/-- A next state within the limits keeps the store within them, whatever `mutate` made of it. -/
theorem InLimits.kept {s : Service} (h : InLimits L s) {nils : Nils} {next : DiskState}
    {wrote : Bool} {store : Store} (hkept : s.store.Kept (L.withNils nils) next wrote store)
    (hnext : wrote = true → Storable (L.withNils nils) next) :
    Storable L store.data ∧ Storable L store.disk := by
  cases hkept with
  | same _ hdata hdisk _ =>
    rw [hdata, hdisk]
    exact ⟨h.data, h.disk⟩
  | saved hw _ hdata hdisk _ =>
    rw [hdata, hdisk]
    exact ⟨storable_withNils.mp (hnext hw), storable_withNils.mp (hnext hw)⟩
  | written hw _ hdata hdisk _ _ =>
    rw [hdata, hdisk]
    exact ⟨h.data, storable_withNils.mp (hnext hw)⟩

/-- What the processor passes to `Enqueue`, once its size was accepted. -/
theorem bounded_of_built {now : Instant} {c : Call} (h : Built L now c)
    (hsize : c.payload.size ≤ maxPayloadBytes) : c.Bounded := by
  refine ⟨?_, hsize⟩
  cases h with
  | native _ _ =>
    rw [(makePayload_members L _ _ _ _ _ _ _).1]
    exact digestID_eventKey L _ _ _ _
  | synthetic _ =>
    rw [(makePayload_members L _ _ _ _ _ _ _).1]
    exact digestID_eventKey L _ _ _ _

/-- **Step.** A regular step keeps the limits. -/
theorem inLimits_step {s s' : Service} {e : Event} {nils : Nils} (h : InLimits L s)
    (hregular : Regular L e) (hs : step (L.withNils nils) s e = some s') : InLimits L s' := by
  have hdata : Storable (L.withNils nils) s.store.data := storable_withNils.mpr h.data
  cases step_moved (L.withNils nils) hs with
  | called hacc hop hkept hch =>
    obtain ⟨h₁, h₂⟩ := h.kept hkept fun hw => hdata.change hacc hop hregular (hch hw)
    exact ⟨h₁, h₂, h.waiting⟩
  | refused => exact h
  | skipped => exact h
  | @entered c hsize =>
    obtain ⟨now, hbuilt⟩ := hregular
    refine ⟨h.data, h.disk, fun c' hc' => ?_⟩
    rcases List.mem_append.mp hc' with hold | hnew
    · exact h.waiting c' hold
    · rw [List.mem_singleton.mp hnew]
      exact bounded_of_built hbuilt hsize
  | @resumed i fault c store hc hkept hch =>
    have hbounded : c.Bounded := h.waiting c (List.mem_of_getElem? hc)
    obtain ⟨h₁, h₂⟩ := h.kept hkept fun hw => hdata.enqueue hbounded (hch hw)
    exact ⟨h₁, h₂, fun c' hc' => h.waiting c' ((List.eraseIdx_sublist _ _).subset hc')⟩
  | closed =>
    refine ⟨?_, ?_, h.waiting⟩
    · rw [close_data]
      exact h.data
    · rw [close_disk]
      exact h.disk
  | restarted hload =>
    obtain ⟨-, -, rfl⟩ := Store.load_eq_some hload
    exact ⟨h.disk, h.disk, List.forall_mem_nil _⟩

/-- Within the limits a step does not fail for size, and leaves a store that has given up only if it
had given up before or met a fault of the file system. -/
theorem saves_of_inLimits {N : Net} {s s' : Service} {e : Event} {nils : Nils}
    (h : InLimits (L.withNet N) s) (hregular : Regular (L.withNet N) e)
    (hs : step ((L.withNet N).withNils nils) s e = some s') :
    s.reply ((L.withNet N).withNils nils) e ≠ some .limitExceeded ∧
      (s'.store.failed = true → s.store.failed = true ∨ e.fault.isSome = true) := by
  have hdata : Storable ((L.withNet N).withNils nils) s.store.data := storable_withNils.mpr h.data
  have hsize : ∀ next, Storable ((L.withNet N).withNils nils) next →
      ((L.withNet N).withNils nils).storeSize next ≤ maxStoreBytes :=
    fun next hnext => (storable_withNils.mp hnext).length_marshal_le nils
  cases e with
  | call op fault =>
    by_cases hop : ∀ c : Call, op ≠ c.op
    · have hin := Store.inSize_perform hdata hsize hop hregular fault
      have hstep : s' = { s with
          store := (s.store.perform ((L.withNet N).withNils nils) op fault).1 } := by
        cases op with
        | enqueue payload epoch prime visit => exact absurd rfl (hop ⟨payload, epoch, prime, visit⟩)
        | _ => exact (Option.some.inj hs).symm
      rw [hstep]
      exact hin
    · obtain ⟨c, hc⟩ := not_forall.mp hop
      rw [not_not.mp hc] at hs
      cases hs
  | enter c =>
    refine ⟨by simp [reply], fun hf => Or.inl ?_⟩
    cases step_moved _ hs with
    | skipped => exact hf
    | entered _ => exact hf
  | resume i fault =>
    unfold step at hs
    cases hc : s.waiting[i]? with
    | none => simp [hc] at hs
    | some c =>
      simp only [hc] at hs
      obtain rfl := Option.some.inj hs
      have hbounded : c.Bounded := h.waiting c (List.mem_of_getElem? hc)
      have hin : s.store.InSize fault
          (s.store.mutate ((L.withNet N).withNils nils)
            (c.op.change ((L.withNet N).withNils nils)) fault) :=
        Store.inSize_mutate (fun hch => hsize _ (hdata.enqueue hbounded hch))
          (c.op.change_ne_limitExceeded _ s.store.data)
      simp only [reply, hc, Option.bind_some]
      exact hin
  | close =>
    obtain rfl := Option.some.inj hs
    refine ⟨by simp [reply], fun hf => Or.inl ?_⟩
    rwa [close_failed] at hf
  | restart =>
    refine ⟨by simp [reply], fun hf => ?_⟩
    obtain ⟨store, hload, rfl⟩ := Option.map_eq_some_iff.mp hs
    obtain ⟨-, -, rfl⟩ := Store.load_eq_some hload
    cases hf

/-- **The store can always be saved.** A valid canonical state has at most 8 MiB, and so saving it
does not fail for size. In every run of regular calls, from a new installation or a canonical file,
no operation fails for size, and the store gives up only after a fault of the file system.

**Proof sketch.** The limits bound every part of the encoding, and every change function keeps them:
what it adds was checked before, or is bounded by its own limit. -/
theorem saves_of_reachable (L : Libs) (N : Net) :
    (∀ data nils, validDiskState (L.withNet N) data = true → Canonical (L.withNet N) data →
      (data.marshal nils).length ≤ maxStoreBytes ∧
        ∀ (s : Store) (fault : Option SaveFault),
          (s.save ((L.withNet N).withNils nils) data fault).2 ≠ some .limitExceeded) ∧
    ∀ s, Transition.Reachable (encodedStep (L.withNet N)) (fun _ e => Regular (L.withNet N) e.1)
        (Starts (L.withNet N)) s →
      ∀ e nils s', Regular (L.withNet N) e → encodedStep (L.withNet N) s (e, nils) = some s' →
        s.reply ((L.withNet N).withNils nils) e ≠ some .limitExceeded ∧
          (s'.store.failed = true → s.store.failed = true ∨ e.fault.isSome = true) := by
  refine ⟨fun data nils hvalid hcanonical => ?_, fun s hreach e nils s' hregular hs => ?_⟩
  · have hlen := (hcanonical.storable ((valid_iff _ _).mp hvalid)).length_marshal_le nils
    exact ⟨hlen, fun s fault => Store.save_ne_limitExceeded hlen⟩
  · have hlimits : InLimits (L.withNet N) s :=
      hreach.invariant (fun _ => InLimits.of_starts) fun _ _ _ h hok hstep =>
        inLimits_step h hok hstep
    exact saves_of_inLimits hlimits hregular hs

/-! ## A canonical file -/

/-- The checks on the sample's endpoint and keys: the keys are those of the generator of the curve.
-/
def sampleNet : Net where
  parse endpoint :=
    if endpoint = sampleSubscription.endpoint then
      some ⟨"https", "", false, "fcm.googleapis.com", "/fcm/send/a", ""⟩
    else none
  parseAddr _ := false
  newPublicKey key := decide (Go.Base64.rawURLDecode sampleSubscription.p256dh = some key)
  publicKey privateKey :=
    if privateKey = List.replicate 31 0 ++ [1] then
      Go.Base64.rawURLDecode sampleSubscription.p256dh
    else none

/-- The sample's file with an epoch of `randomID`. -/
def canonicalState : DiskState := { sampleState with epoch := "0f1e2d3c4b5a69788796a5b4c3d2e1f0" }

/-- A warning in that epoch. -/
def canonicalCall : Call :=
  { payload := makePayload (sampleLibs.withNet sampleNet) "native" "victron" "alarm-1" "Low battery"
      "" sampleNow sampleNow
    epoch := canonicalState.epoch
    prime := false
    visit := Visit.same }

theorem canonical_canonicalState : Canonical (sampleLibs.withNet sampleNet) canonicalState where
  privateKey := by decide
  publicKey := by decide
  epoch := by decide
  subscription e he := by
    rw [List.mem_singleton.mp he]
    exact ⟨⟨sampleSubscription, by decide⟩, by decide⟩
  id := List.forall_mem_nil _
  deliveryEpoch := List.forall_mem_nil _
  nextAttempt := List.forall_mem_nil _
  test := List.forall_mem_nil _

/-- The file may be saved, and so may what the waiting warning makes of it. -/
theorem saves_of_reachable_waiting :
    (canonicalState.marshal {}).length ≤ maxStoreBytes ∧
      ∃ s s' : Service, s.waiting.length = 1 ∧
        encodedStep (sampleLibs.withNet sampleNet) s (.resume 0 none, {}) = some s' ∧
        s.reply ((sampleLibs.withNet sampleNet).withNils {}) (.resume 0 none) ≠
          some .limitExceeded ∧ s'.store.failed = false := by
  have hvalid : validDiskState (sampleLibs.withNet sampleNet) canonicalState = true := by
    decide
  have hsize : (canonicalState.marshal {}).length ≤ maxStoreBytes :=
    ((saves_of_reachable sampleLibs sampleNet).1 _ {} hvalid canonical_canonicalState).1
  have hinit : Init ((sampleLibs.withNet sampleNet).withNils {})
      { store := { data := canonicalState, disk := canonicalState } } :=
    init_of_valid (by rwa [Libs.storeSize_withNils])
      ((valid_iff _ _).mpr (valid_withNils.mpr ((valid_iff _ _).mp hvalid)))
  have hstart : Starts (sampleLibs.withNet sampleNet)
      { store := { data := canonicalState, disk := canonicalState } } :=
    ⟨⟨{}, hinit⟩, canonical_canonicalState⟩
  have hbuilt : Built (sampleLibs.withNet sampleNet) sampleNow canonicalCall :=
    .native (Or.inl rfl) fun _ => by decide
  obtain ⟨s, hreach, hp⟩ := Transition.Reachable.exists_of_run
    (encodedStep (sampleLibs.withNet sampleNet))
    (fun _ e => Regular (sampleLibs.withNet sampleNet) e.1) [(.enter canonicalCall, {})]
    (fun s => decide (s.waiting.length = 1) && !s.store.failed)
    hstart ⟨⟨sampleNow, hbuilt⟩, fun _ _ => trivial⟩ (by decide +kernel)
  simp only [Bool.and_eq_true, decide_eq_true_eq, Bool.not_eq_true'] at hp
  obtain ⟨c, hc⟩ := List.length_eq_one_iff.mp hp.1
  obtain ⟨s', hs⟩ : ∃ s', encodedStep (sampleLibs.withNet sampleNet) s (.resume 0 none, {}) =
      some s' := by
    simp [encodedStep, step, hc]
  obtain ⟨hreply, hfailed⟩ := (saves_of_reachable sampleLibs sampleNet).2 s hreach
    (.resume 0 none) {} s' trivial hs
  refine ⟨hsize, s, s', hp.1, hs, hreply, ?_⟩
  have hnot := mt hfailed (by simp [hp.2, Event.fault])
  simpa using hnot

end Service

end Push
