import InverterDashboard.Push.Model

set_option relaxedAutoImplicit false
set_option autoImplicit false

/-!
# The notification store

`internal/push/store.go` and the two mutations of `sender.go`. Every operation is a change function
under `mutate`: it works on a copy, the copy is written to a temporary file and renamed over the old
one, and only then it becomes the state in memory.

## Main definitions

* `Push.Change`, `Push.Op`, `Push.Op.change` — the change functions.
* `Push.SaveFault` — the seven points at which `save` can fail.
* `Push.Store`, `Push.Store.mutate`, `Push.Store.perform` — the store.
* `Push.validDiskState`, `Push.Store.load` — what a restart accepts.

## Main results

* `Push.Store.save_cases`, `Push.Store.mutate_cases` — the ways `save` and `mutate` end.
-/

namespace Push

/-! ## Errors and change functions -/

/-- The errors of the package. -/
inductive PushError where
  | unavailable
  | conflict
  | capacity
  | notFound
  | rateLimit
  | tooLarge
  | endpoint
  | limitExceeded
  | cannotSave
  | cannotCommit
  | directoryUnavailable
  | cannotSynchronize
  deriving DecidableEq

/-- The texts of the errors. -/
def PushError.text : PushError → String
  | .unavailable => "push state unavailable"
  | .conflict => "subscription key conflict"
  | .capacity => "notification capacity reached"
  | .notFound => "subscription not registered"
  | .rateLimit => "notification rate limit reached"
  | .tooLarge => "notification payload is too large"
  | .endpoint => "invalid push service endpoint"
  | .limitExceeded => "push state limit exceeded"
  | .cannotSave => "push state cannot be saved"
  | .cannotCommit => "push state cannot be committed"
  | .directoryUnavailable => "push state directory unavailable"
  | .cannotSynchronize => "push state cannot be synchronized"

/-- What a change function says of its work. -/
inductive Verdict where
  | changed
  | unchanged
  | failed (e : PushError)
  deriving DecidableEq

/-- The copy a change function leaves behind, and its verdict. -/
structure Change where
  data : DiskState
  verdict : Verdict

/-- An order in which the language visits the entries of a map. -/
structure Visit where
  order : List (Sigma fun _ : String => StoredSubscription) →
    List (Sigma fun _ : String => StoredSubscription)
  perm : ∀ l, (order l).Perm l

/-- The order of the model's own list. -/
def Visit.same : Visit := ⟨id, fun _ => List.Perm.refl _⟩

/-- `canonicalSubscription`. -/
def canonicalSubscription (L : Libs) (sub : Subscription) : Option Subscription := do
  let p256dh ← L.decodeKey sub.p256dh
  let auth ← L.decodeKey sub.auth
  let sub := { sub with p256dh, auth }
  if L.validSubscription sub then some sub else none

/-- The change of `Register`. -/
def registerChange (L : Libs) (sub : Subscription) (prefs : Preferences) (data : DiskState) :
    Change :=
  let id := subscriptionID L sub.endpoint
  let old := data.subscriptions.lookup id
  if old.any fun o => o.subscription ≠ sub then ⟨data, .failed .conflict⟩
  else if old.isNone && decide (maxSubscriptions ≤ data.subscriptions.entries.length) then
    ⟨data, .failed .capacity⟩
  else
    ⟨{ data with
        subscriptions := data.subscriptions.insert id
          ⟨sub, prefs, (old.map StoredSubscription.lastTestMS).getD 0⟩
        queue := data.queue.filter fun item =>
          item.subscriptionID ≠ id || prefs.allows item.payload.kind }, .changed⟩

/-- The change of `Delete`. -/
def deleteChange (L : Libs) (endpoint : String) (data : DiskState) : Change :=
  let id := subscriptionID L endpoint
  if (data.subscriptions.lookup id).isNone then ⟨data, .unchanged⟩
  else
    ⟨{ data with
        subscriptions := data.subscriptions.erase id
        queue := data.queue.filter fun item => item.subscriptionID ≠ id }, .changed⟩

/-- The change of `ResetEpoch`. -/
def resetEpochChange (epoch : String) (data : DiskState) : Change :=
  ⟨{ data with
      epoch := epoch
      queue := data.queue.filter fun item => item.payload.kind = "test" }, .changed⟩

/-- The ring of `remember` after a key that is not in it. -/
def pushKey (dedupe : List String) (key : String) : List String :=
  (dedupe ++ [key]).drop ((dedupe ++ [key]).length - maxDedupe)

/-- The delivery of a payload to a subscription. -/
def deliveryOf (payload : Payload) (epoch id : String) : Delivery :=
  { id := payload.eventKey ++ ":" ++ id, subscriptionID := id, epoch := epoch, payload := payload }

/-- The loop of `Enqueue` over the subscriptions. -/
def fanOut (payload : Payload) (epoch : String) :
    List (Sigma fun _ : String => StoredSubscription) → DiskState → Change
  | [], data => ⟨data, .changed⟩
  | ⟨id, sub⟩ :: rest, data =>
    if !sub.preferences.allows payload.kind then fanOut payload epoch rest data
    else if maxPending ≤ data.queue.length then ⟨data, .failed .capacity⟩
    else fanOut payload epoch rest
      { data with queue := data.queue ++ [deliveryOf payload epoch id] }

/-- The change of `Enqueue`. -/
def enqueueChange (payload : Payload) (epoch : String) (prime : Bool) (visit : Visit)
    (data : DiskState) : Change :=
  if data.epoch ≠ epoch ∨ payload.eventKey ∈ data.dedupe then ⟨data, .unchanged⟩
  else
    let data := { data with dedupe := pushKey data.dedupe payload.eventKey }
    if prime then ⟨data, .changed⟩
    else fanOut payload epoch (visit.order data.subscriptions.entries) data

/-- The payload of `QueueTest`. -/
def testPayload (L : Libs) (id : String) (now : Instant) : Payload :=
  makePayload L "test" "system" id "Test notification" "Web Push is working for this browser."
  now now

/-- The change of `QueueTest`; the old times are filtered in place. -/
def queueTestChange (L : Libs) (endpoint id : String) (now : Instant) (data : DiskState) : Change :=
  let key := subscriptionID L endpoint
  match data.subscriptions.lookup key with
  | none => ⟨data, .failed .notFound⟩
  | some sub =>
    if maxPending ≤ data.queue.length then ⟨data, .failed .capacity⟩
    else
      let tests := data.tests.filter fun at_ => unixMilli now - at_ < 60000
      if 10 ≤ tests.length ∨ (sub.lastTestMS ≠ 0 ∧ unixMilli now - sub.lastTestMS < 60000) then
        ⟨{ data with tests := tests ++ data.tests.drop tests.length }, .failed .rateLimit⟩
      else
        ⟨{ data with
            tests := tests ++ [unixMilli now]
            subscriptions := data.subscriptions.insert key { sub with lastTestMS := unixMilli now }
            queue := data.queue ++ [deliveryOf (testPayload L id now) "" key] }, .changed⟩

/-- Whether `pending` keeps a delivery. -/
def Delivery.lives (item : Delivery) (epoch : String) (now : Instant) : Bool :=
  item.payload.current now && decide (item.attempts < 3) &&
    (decide (item.payload.kind = "test") || decide (item.epoch = epoch))

/-- The change of `pending`. -/
def pendingChange (now : Instant) (data : DiskState) : Change :=
  ⟨{ data with queue := data.queue.filter fun item => item.lives data.epoch now },
    if data.queue.all fun item => item.lives data.epoch now then .unchanged else .changed⟩

/-- The deliveries `pending` hands to the dispatcher. -/
def dueItems (now : Instant) (data : DiskState) : List Delivery :=
  (data.queue.filter fun item => item.lives data.epoch now).filter fun item =>
    item.nextAttemptMS ≤ unixMilli now

/-- Whether a failed delivery is tried again. -/
def Delivery.retries (item : Delivery) (transient : Bool) (epoch : String) (now : Instant) : Bool :=
  transient && decide (item.attempts < 2) && item.payload.current now &&
    (decide (item.payload.kind = "test") || decide (item.epoch = epoch))

/-- What `finish` makes of a queued delivery. -/
def finishItem (item : Delivery) (transient : Bool) (now : Instant)
    (subscriptions : AList fun _ : String => StoredSubscription) (epoch : String)
    (queued : Delivery) : Option Delivery :=
  if (subscriptions.lookup queued.subscriptionID).isNone then none
  else if queued.id ≠ item.id then some queued
  else if queued.retries transient epoch now then
    some { queued with
      attempts := queued.attempts + 1
      nextAttemptMS := unixMilli (now + seconds ((queued.attempts + 1) * 5)) }
  else none

/-- The change of `finish`. -/
def finishChange (item : Delivery) (status : ℤ) (transient : Bool) (now : Instant)
    (data : DiskState) : Change :=
  if data.queue.any fun q => q.id = item.id ∧ q.attempts = item.attempts then
    let subscriptions :=
      if status = 404 ∨ status = 410 then data.subscriptions.erase item.subscriptionID
      else data.subscriptions
    ⟨{ data with
        subscriptions := subscriptions
        queue := data.queue.filterMap (finishItem item transient now subscriptions data.epoch) },
      .changed⟩
  else ⟨data, .unchanged⟩

/-! ## The store -/

/-- The points at which `save` can fail. -/
inductive SaveFault where
  | createTemp
  | write
  | sync
  | close
  | rename
  | openDirectory
  | syncDirectory
  deriving DecidableEq

namespace SaveFault

/-- The new file is already in place. -/
def afterRename : SaveFault → Bool
  | .openDirectory | .syncDirectory => true
  | _ => false

/-- The error `save` returns. -/
def error : SaveFault → PushError
  | .createTemp | .write | .sync | .close => .cannotSave
  | .rename => .cannotCommit
  | .openDirectory => .directoryUnavailable
  | .syncDirectory => .cannotSynchronize

end SaveFault

/-- The store: the state in memory and on disk, and the contexts of deliveries in flight. -/
structure Store where
  data : DiskState
  disk : DiskState
  closed : Bool := false
  failed : Bool := false
  active : List (String × ℕ) := []
  cancelled : Finset ℕ := ∅

namespace Store

/-- The store takes no operation. -/
def unusable (s : Store) : Bool := s.closed || s.failed

/-- `save`: what is on disk then, and the error. -/
def save (L : Libs) (s : Store) (data : DiskState) (fault : Option SaveFault) :
    DiskState × Option PushError :=
  if maxStoreBytes < L.storeSize data then (s.disk, some .limitExceeded)
  else match fault with
    | none => (data, none)
    | some f => (if f.afterRename then data else s.disk, some f.error)

/-- The contexts of the deliveries that are not queued in `data`. -/
def retired (s : Store) (data : DiskState) : Finset ℕ :=
  ((s.active.filter fun a => data.queue.all fun item => item.id ≠ a.1).map Prod.snd).toFinset

/-- `mutate`. -/
def mutate (L : Libs) (s : Store) (change : DiskState → Change) (fault : Option SaveFault) :
    Store × Option PushError :=
  if s.unusable then (s, some .unavailable)
  else match (change s.data).verdict with
    | .failed e => (s, some e)
    | .unchanged => (s, none)
    | .changed =>
      match s.save L (change s.data).data fault with
      | (disk, some e) =>
        ({ s with
            disk := disk
            failed := true
            cancelled := s.cancelled ∪ (s.active.map Prod.snd).toFinset }, some e)
      | (disk, none) =>
        ({ s with
            data := (change s.data).data
            disk := disk
            active := s.active.filter fun a => (change s.data).data.queue.any fun item =>
            item.id = a.1
            cancelled := s.cancelled ∪ s.retired (change s.data).data }, none)

/-- `skipEnqueue`, on a usable store. -/
def skips (s : Store) (key epoch : String) : Bool :=
  decide (s.data.epoch ≠ epoch) || decide (key ∈ s.data.dedupe)

/-- `Close`. -/
def close (s : Store) : Store :=
  if s.closed then s
  else { s with closed := true, cancelled := s.cancelled ∪ (s.active.map Prod.snd).toFinset }

end Store

/-- The operations built on `mutate`. -/
inductive Op where
  | register (sub : Subscription) (prefs : Preferences)
  | delete (endpoint : String)
  | resetEpoch (epoch : String)
  | enqueue (payload : Payload) (epoch : String) (prime : Bool) (visit : Visit)
  | queueTest (endpoint : String) (now : Instant) (id : String)
  | pending (now : Instant)
  | finish (item : Delivery) (status : ℤ) (transient : Bool) (now : Instant)

/-- The change function of an operation, once its arguments were accepted. -/
def Op.change (L : Libs) : Op → DiskState → Change
  | .register sub prefs => registerChange L sub prefs
  | .delete endpoint => deleteChange L endpoint
  | .resetEpoch epoch => resetEpochChange epoch
  | .enqueue payload epoch prime visit => enqueueChange payload epoch prime visit
  | .queueTest endpoint now id => queueTestChange L endpoint id now
  | .pending now => pendingChange now
  | .finish item status transient now => finishChange item status transient now

/-- The checks of the arguments before `mutate`: the operation with canonical arguments. -/
def Op.accept (L : Libs) : Op → Except PushError Op
  | .register sub prefs =>
    match canonicalSubscription L sub with
    | some sub => .ok (.register sub prefs)
    | none => .error .endpoint
  | .enqueue payload epoch prime visit =>
    if maxPayloadBytes < payload.size then .error .tooLarge
    else .ok (.enqueue payload epoch prime visit)
  | op => .ok op

namespace Store

/-- The fast path of an operation: `Enqueue` returns at once for a known key or another epoch. -/
def fastPath (s : Store) : Op → Option (Option PushError)
  | .enqueue payload epoch _ _ =>
    if s.unusable then some (some .unavailable)
    else if s.skips payload.eventKey epoch then some none
    else none
  | _ => none

/-- An operation, run to completion. -/
def perform (L : Libs) (s : Store) (op : Op) (fault : Option SaveFault) :
    Store × Option PushError :=
  match op.accept L with
  | .error e => (s, some e)
  | .ok op =>
    match s.fastPath op with
    | some result => (s, result)
    | none => s.mutate L (op.change L) fault

end Store

/-! ## Loading -/

/-- The check of a queued delivery. -/
def Delivery.valid (item : Delivery)
    (subscriptions : AList fun _ : String => StoredSubscription) : Bool :=
  (subscriptions.lookup item.subscriptionID).isSome && decide (item.id ≠ "") &&
    item.payload.persistedValid && decide (0 ≤ item.attempts) && decide (item.attempts ≤ 3)

/-- `validDiskState`. -/
def validDiskState (L : Libs) (data : DiskState) : Bool :=
  decide (data.schemaVersion = 1) &&
    decide (data.subscriptions.entries.length ≤ maxSubscriptions) &&
    decide (data.dedupe.length ≤ maxDedupe) && decide (data.queue.length ≤ maxPending) &&
    decide (data.tests.length ≤ 10) && L.validKeys data.privateKey data.publicKey &&
    (data.subscriptions.entries.all fun e =>
      decide (e.1 = subscriptionID L e.2.subscription.endpoint) &&
        L.validSubscription e.2.subscription) &&
    data.dedupe.all digestID && decide data.dedupe.Nodup &&
    decide (data.queue.map Delivery.id).Nodup &&
    data.queue.all fun item => item.valid data.subscriptions

namespace Store

/-- The state of a new installation. -/
def freshState (privateKey publicKey : String) : DiskState :=
  { schemaVersion := 1, privateKey, publicKey, epoch := "", subscriptions := ∅, dedupe := [],
    queue := [], tests := [] }

/-- `load` of an existing file. -/
def load (L : Libs) (disk : DiskState) : Option Store :=
  if L.storeSize disk ≤ maxStoreBytes ∧ validDiskState L disk then
    some { data := disk, disk := disk }
  else none

/-! ## The ways `save` and `mutate` end -/

/-- The errors that only `save` returns. -/
def saveErrors : List PushError :=
  [.limitExceeded, .cannotSave, .cannotCommit, .directoryUnavailable, .cannotSynchronize]

/-- How a call of `save` ended. -/
inductive Saved (L : Libs) (s : Store) (data : DiskState) (fault : Option SaveFault) :
    DiskState × Option PushError → Prop
  /-- The old file is still in place. -/
  | before {e : PushError} : e ∈ saveErrors →
      maxStoreBytes < L.storeSize data ∨ fault.any (fun f => !f.afterRename) = true →
      Saved L s data fault (s.disk, some e)
  /-- The new file is in place, but the directory was not synchronized. -/
  | after {e : PushError} : e ∈ saveErrors → L.storeSize data ≤ maxStoreBytes →
      fault.any SaveFault.afterRename = true → Saved L s data fault (data, some e)
  /-- The new file is in place. -/
  | done : L.storeSize data ≤ maxStoreBytes → fault = none → Saved L s data fault (data, none)

theorem save_cases (L : Libs) (s : Store) (data : DiskState) (fault : Option SaveFault) :
    Saved L s data fault (s.save L data fault) := by
  unfold save
  by_cases hsize : maxStoreBytes < L.storeSize data
  · rw [if_pos hsize]
    exact .before (by decide) (Or.inl hsize)
  · rw [if_neg hsize]
    cases fault with
    | none => exact .done (not_lt.mp hsize) rfl
    | some f =>
      have herr : f.error ∈ saveErrors := by cases f <;> decide
      dsimp only
      cases ha : f.afterRename with
      | true => exact .after herr (not_lt.mp hsize) (by simpa using ha)
      | false => exact .before herr (Or.inr (by simpa using ha))

/-- How a call of `mutate` ended. -/
inductive Mutated (L : Libs) (s : Store) (change : DiskState → Change) (fault : Option SaveFault) :
    Store × Option PushError → Prop
  /-- The store takes no operation. -/
  | refused : s.unusable = true → Mutated L s change fault (s, some .unavailable)
  /-- The change function failed. -/
  | rejected {e : PushError} : s.unusable = false → (change s.data).verdict = .failed e →
      Mutated L s change fault (s, some e)
  /-- Nothing to do. -/
  | unchanged : s.unusable = false → (change s.data).verdict = .unchanged →
      Mutated L s change fault (s, none)
  /-- The new state was not saved, or not safely. -/
  | unsaved {disk : DiskState} {e : PushError} : s.unusable = false →
      (change s.data).verdict = .changed →
      s.save L (change s.data).data fault = (disk, some e) →
      Mutated L s change fault ({ s with
        disk := disk
        failed := true
        cancelled := s.cancelled ∪ (s.active.map Prod.snd).toFinset }, some e)
  /-- The new state was saved. -/
  | saved {disk : DiskState} : s.unusable = false → (change s.data).verdict = .changed →
      s.save L (change s.data).data fault = (disk, none) →
      Mutated L s change fault ({ s with
        data := (change s.data).data
        disk := disk
        active := s.active.filter fun a => (change s.data).data.queue.any fun item => item.id = a.1
        cancelled := s.cancelled ∪ s.retired (change s.data).data }, none)

theorem mutate_cases (L : Libs) (s : Store) (change : DiskState → Change)
    (fault : Option SaveFault) : Mutated L s change fault (s.mutate L change fault) := by
  unfold mutate
  by_cases hu : s.unusable = true
  · rw [if_pos hu]
    exact .refused hu
  · rw [if_neg hu]
    have hu : s.unusable = false := by simpa using hu
    cases hv : (change s.data).verdict with
    | failed e => exact .rejected hu hv
    | unchanged => exact .unchanged hu hv
    | changed =>
      dsimp only
      rcases hsave : s.save L (change s.data).data fault with ⟨disk, e⟩
      cases e with
      | none => exact .saved hu hv hsave
      | some e => exact .unsaved hu hv hsave

end Store

end Push
