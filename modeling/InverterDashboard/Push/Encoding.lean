import InverterDashboard.Go.Json
import InverterDashboard.Go.Word
import InverterDashboard.Push.Transport

set_option relaxedAutoImplicit false
set_option autoImplicit false

/-!
# The bytes of the store

`json.Marshal` of a `diskState`, and how long it gets. The limits come in different units: bytes of
an endpoint, characters of a key or a title, bytes of an encoded payload, elements of a list. A
character takes six bytes at most, and every part is bounded by its own limit.

## Main definitions

* `Push.DiskState.text`, `Push.DiskState.marshal` — `json.Marshal(data)`.
* `Push.Libs.withNils` — the libraries of a store that measures these bytes.
* `Push.Storable` — the limits of `validDiskState`, canonical subscriptions, keys, epochs and
  identifiers, and numbers of the type `int64`.

## Main results

* `Push.Storable.length_marshal_le` — a state within these limits has at most 8 MiB.
-/

namespace Push

open Go (utf8Bytes IntSize)

/-! ## The text -/

/-- Which of the empty lists are nil. The encoder writes those as `null`. -/
structure Nils where
  dedupe : Bool := false
  queue : Bool := false
  tests : Bool := false
  deriving DecidableEq

/-- Elements or members with commas between them. -/
def commaJoin : List String → String
  | [] => ""
  | [s] => s
  | s :: rest => s ++ "," ++ commaJoin rest

/-- A slice. -/
def sliceText (isNil : Bool) (elements : List String) : String :=
  if isNil && elements.isEmpty then "null" else "[" ++ commaJoin elements ++ "]"

/-- A `bool`. -/
def boolText (b : Bool) : String := if b then "true" else "false"

/-- `json.Marshal` of preferences. -/
def Preferences.text (p : Preferences) : String :=
  "\x7b\"native\":" ++ boolText p.native ++ ",\"ev\":" ++ boolText p.ev ++ ",\"water\":" ++
    boolText p.water ++ ",\"lowBattery\":" ++ boolText p.lowBattery ++ "\x7d"

/-- `json.Marshal` of a subscription. -/
def Subscription.text (s : Subscription) : String :=
  "\x7b\"endpoint\":" ++ jsonQuote s.endpoint ++ ",\"keys\":\x7b\"auth\":" ++ jsonQuote s.auth ++
    ",\"p256dh\":" ++ jsonQuote s.p256dh ++ "\x7d\x7d"

/-- `json.Marshal` of a stored subscription. -/
def StoredSubscription.text (s : StoredSubscription) : String :=
  "\x7b\"subscription\":" ++ s.subscription.text ++ ",\"preferences\":" ++ s.preferences.text ++
    ",\"lastTestMs\":" ++ toString s.lastTestMS ++ "\x7d"

/-- A member of the map of subscriptions. -/
def memberText (e : String × StoredSubscription) : String := jsonQuote e.1 ++ ":" ++ e.2.text

/-- `json.Marshal` of a delivery. -/
def Delivery.text (item : Delivery) : String :=
  "\x7b\"id\":" ++ jsonQuote item.id ++ ",\"subscriptionId\":" ++ jsonQuote item.subscriptionID ++
    ",\"epoch\":" ++ jsonQuote item.epoch ++ ",\"payload\":" ++ item.payload.text ++
    ",\"attempts\":" ++ toString item.attempts ++ ",\"nextAttemptMs\":" ++
    toString item.nextAttemptMS ++ "\x7d"

namespace DiskState

/-- The subscriptions in the order of their identifiers, as the encoder visits a map. -/
def members (data : DiskState) : List (String × StoredSubscription) :=
  Go.sortedEntries (data.subscriptions.entries.map fun e => (e.1, e.2))

/-- The text of `json.Marshal(data)`. -/
def text (data : DiskState) (nils : Nils) : String :=
  "\x7b\"schemaVersion\":" ++ toString data.schemaVersion ++ ",\"privateKey\":" ++
    jsonQuote data.privateKey ++ ",\"publicKey\":" ++ jsonQuote data.publicKey ++ ",\"epoch\":" ++
    jsonQuote data.epoch ++ ",\"subscriptions\":\x7b" ++ commaJoin (data.members.map memberText) ++
    "\x7d,\"dedupe\":" ++ sliceText nils.dedupe (data.dedupe.map jsonQuote) ++ ",\"queue\":" ++
    sliceText nils.queue (data.queue.map Delivery.text) ++ ",\"tests\":" ++
    sliceText nils.tests (data.tests.map toString) ++ "\x7d"

/-- `json.Marshal(data)`. -/
@[irreducible] def marshal (data : DiskState) (nils : Nils) : List UInt8 :=
  utf8Bytes (data.text nils).toList

theorem length_marshal (data : DiskState) (nils : Nils) :
    (data.marshal nils).length = byteLength (data.text nils) := by
  unfold marshal byteLength
  rfl

end DiskState

/-- The libraries of a store that measures the bytes it writes. -/
def Libs.withNils (L : Libs) (nils : Nils) : Libs :=
  { L with storeSize := fun data => (data.marshal nils).length }

@[simp] theorem Libs.storeSize_withNils (L : Libs) (nils : Nils) (data : DiskState) :
    (L.withNils nils).storeSize data = (data.marshal nils).length := rfl

/-! ## The parts -/

theorem length_toList_le_byteLength (s : String) : s.toList.length ≤ byteLength s := by
  have hone : ∀ n ∈ s.toList.map Char.utf8Size, 1 ≤ n := by
    intro n hn
    obtain ⟨c, -, rfl⟩ := List.mem_map.mp hn
    exact c.utf8Size_pos
  unfold byteLength
  rw [Go.length_utf8Bytes]
  simpa using List.length_le_sum_of_one_le _ hone

/-- A number of the type takes 20 bytes at most. -/
theorem jsonIntSize_le_of_holds {n : ℤ} (h : IntSize.bits64.Holds n) : jsonIntSize n ≤ 20 := by
  have hmax : IntSize.bits64.maxInt = 9223372036854775807 := by decide
  obtain ⟨hlo, hhi⟩ := h
  rw [hmax] at hlo hhi
  cases n with
  | ofNat m =>
    have hle : (m : ℤ) ≤ 9223372036854775807 := hhi
    have hm : m < 10 ^ 19 := by omega
    exact (Nat.repr_length m 19 (by norm_num) hm).trans (by norm_num)
  | negSucc m =>
    have htext : toString (Int.negSucc m) = "-" ++ toString (m + 1) := rfl
    have hm : m + 1 < 10 ^ 19 := by omega
    have hlen : (toString (m + 1)).length ≤ 19 := Nat.repr_length (m + 1) 19 (by norm_num) hm
    unfold jsonIntSize
    rw [htext, String.length_append]
    have hminus : "-".length = 1 := by decide
    omega

theorem byteLength_boolText_le (b : Bool) : byteLength (boolText b) ≤ 5 := by
  cases b <;> decide

/-- A list of short texts. -/
theorem byteLength_commaJoin_le {b : ℕ} {l : List String} (h : ∀ s ∈ l, byteLength s ≤ b) :
    byteLength (commaJoin l) ≤ l.length * (b + 1) := by
  have hcomma : byteLength "," = 1 := by decide
  have hempty : byteLength "" = 0 := by decide
  induction l using commaJoin.induct with
  | case1 => simp [commaJoin, hempty]
  | case2 s =>
    have hs := h s List.mem_cons_self
    simp only [commaJoin, List.length_singleton, one_mul]
    omega
  | case3 s rest hne ih =>
    obtain ⟨hs, hrest⟩ := List.forall_mem_cons.mp h
    have hle := ih hrest
    rw [commaJoin, byteLength_append, byteLength_append, hcomma, List.length_cons, Nat.add_mul]
    · omega
    · exact hne

theorem byteLength_sliceText_le {b : ℕ} (isNil : Bool) {l : List String}
    (h : ∀ s ∈ l, byteLength s ≤ b) : byteLength (sliceText isNil l) ≤ 4 + l.length * (b + 1) := by
  have hnull : byteLength "null" = 4 ∧ byteLength "[" = 1 ∧ byteLength "]" = 1 := by decide
  have hle := byteLength_commaJoin_le h
  unfold sliceText
  split_ifs
  · omega
  · rw [byteLength_append, byteLength_append, hnull.2.1, hnull.2.2]
    omega

/-! ## The limits -/

/-- An epoch: empty, or 32 hexadecimal digits. -/
def isEpoch (epoch : String) : Bool :=
  decide (epoch = "") || decide (epoch.toList.length = 32) && epoch.toList.all fun c =>
    ('0' ≤ c && c ≤ '9') || ('a' ≤ c && c ≤ 'f') || ('A' ≤ c && c ≤ 'F')

/-- A stored subscription: what `canonicalSubscription` made of some subscription, and a time. -/
structure StoredSubscription.Storable (L : Libs) (sub : StoredSubscription) : Prop where
  accepted : ∃ raw, canonicalSubscription L raw = some sub.subscription
  lastTest : IntSize.bits64.Holds sub.lastTestMS

/-- A queued delivery: the identifier is the event key and the subscription's identifier. -/
structure Delivery.Storable (item : Delivery) : Prop where
  id : item.id = item.payload.eventKey ++ ":" ++ item.subscriptionID
  key : digestID item.payload.eventKey = true
  subscription : digestID item.subscriptionID = true
  epoch : isEpoch item.epoch = true
  payload : item.payload.size ≤ maxPayloadBytes
  attempts : 0 ≤ item.attempts ∧ item.attempts ≤ 3
  nextAttempt : IntSize.bits64.Holds item.nextAttemptMS

/-- A state within all limits. -/
structure Storable (L : Libs) (data : DiskState) : Prop where
  version : data.schemaVersion = 1
  privateKey : byteLength data.privateKey = 43
  publicKey : byteLength data.publicKey = 87
  epoch : isEpoch data.epoch = true
  subscriptions_le : data.subscriptions.entries.length ≤ maxSubscriptions
  subscription : ∀ e ∈ data.subscriptions.entries, digestID e.1 = true ∧ e.2.Storable L
  dedupe_le : data.dedupe.length ≤ maxDedupe
  digest : ∀ key ∈ data.dedupe, digestID key = true
  queue_le : data.queue.length ≤ maxPending
  delivery : ∀ item ∈ data.queue, item.Storable
  tests_le : data.tests.length ≤ 10
  test : ∀ at_ ∈ data.tests, IntSize.bits64.Holds at_

theorem length_of_isEpoch {epoch : String} (h : isEpoch epoch = true) :
    epoch.toList.length ≤ 32 := by
  simp only [isEpoch, Bool.or_eq_true, Bool.and_eq_true, decide_eq_true_eq] at h
  rcases h with rfl | ⟨hlen, -⟩
  · decide
  · omega

/-! ## The bound -/

theorem StoredSubscription.Storable.byteLength_le {L : Libs} {N : Net}
    {e : String × StoredSubscription} (hid : digestID e.1 = true)
    (h : e.2.Storable (L.withNet N)) : byteLength (memberText e) ≤ 13600 := by
  obtain ⟨raw, hraw⟩ := h.accepted
  obtain ⟨-, hendpoint, hauth, hp256dh⟩ := canonicalSubscription_spec hraw
  have h₁ := jsonStringSize_le e.1
  have h₂ := jsonStringSize_le e.2.subscription.endpoint
  have h₃ := jsonStringSize_le e.2.subscription.auth
  have h₄ := jsonStringSize_le e.2.subscription.p256dh
  have h₅ := jsonIntSize_le_of_holds h.lastTest
  have hkey := length_of_digestID hid
  have hchars := length_toList_le_byteLength e.2.subscription.endpoint
  have hnative := byteLength_boolText_le e.2.preferences.native
  have hev := byteLength_boolText_le e.2.preferences.ev
  have hwater := byteLength_boolText_le e.2.preferences.water
  have hlow := byteLength_boolText_le e.2.preferences.lowBattery
  have hframe : byteLength ":" + byteLength "\x7b\"subscription\":" +
      byteLength "\x7b\"endpoint\":" + byteLength ",\"keys\":\x7b\"auth\":" +
      byteLength ",\"p256dh\":" + byteLength "\x7d\x7d" +
      byteLength ",\"preferences\":" + byteLength "\x7b\"native\":" + byteLength ",\"ev\":" +
      byteLength ",\"water\":" + byteLength ",\"lowBattery\":" + byteLength "\x7d" +
      byteLength ",\"lastTestMs\":" + byteLength "\x7d" ≤ 200 := by decide
  unfold maxEndpointBytes at hendpoint
  unfold memberText StoredSubscription.text Subscription.text Preferences.text
  simp only [byteLength_append, byteLength_jsonQuote, byteLength_toString]
  omega

theorem Delivery.Storable.byteLength_le {item : Delivery} (h : item.Storable) :
    byteLength item.text ≤ 4600 := by
  have h₁ := jsonStringSize_le item.id
  have h₂ := jsonStringSize_le item.subscriptionID
  have h₃ := jsonStringSize_le item.epoch
  have h₄ := jsonIntSize_le_of_holds h.nextAttempt
  have hattempts : IntSize.bits64.Holds item.attempts :=
    IntSize.holds_of_nonneg h.attempts.1 (h.attempts.2.trans (by decide))
  have h₅ := jsonIntSize_le_of_holds hattempts
  have hpayload : byteLength item.payload.text ≤ 3072 :=
    (Payload.length_marshal item.payload).trans_le h.payload
  have hkey := length_of_digestID h.key
  have hsub := length_of_digestID h.subscription
  have hepoch := length_of_isEpoch h.epoch
  have hid : item.id.toList.length = 129 := by
    rw [h.id, String.toList_append, String.toList_append, List.length_append, List.length_append,
      hkey, hsub]
    rfl
  have hframe : byteLength "\x7b\"id\":" + byteLength ",\"subscriptionId\":" +
      byteLength ",\"epoch\":" + byteLength ",\"payload\":" + byteLength ",\"attempts\":" +
      byteLength ",\"nextAttemptMs\":" + byteLength "\x7d" ≤ 100 := by decide
  unfold Delivery.text
  simp only [byteLength_append, byteLength_jsonQuote, byteLength_toString]
  omega

/-- **The bound.** A state within the limits has at most 8 MiB. -/
theorem Storable.length_marshal_le {L : Libs} {N : Net} {data : DiskState}
    (h : Storable (L.withNet N) data) (nils : Nils) :
    (data.marshal nils).length ≤ maxStoreBytes := by
  have hmembers : ∀ s ∈ data.members.map memberText, byteLength s ≤ 13600 := by
    intro s hs
    obtain ⟨m, hm, rfl⟩ := List.mem_map.mp hs
    obtain ⟨e, he, rfl⟩ := List.mem_map.mp ((List.perm_insertionSort _ _).subset hm)
    obtain ⟨hid, hsub⟩ := h.subscription e he
    exact hsub.byteLength_le hid
  have hdedupe : ∀ s ∈ data.dedupe.map jsonQuote, byteLength s ≤ 386 := by
    intro s hs
    obtain ⟨key, hkey, rfl⟩ := List.mem_map.mp hs
    have hle := jsonStringSize_le key
    rw [length_of_digestID (h.digest key hkey)] at hle
    rw [byteLength_jsonQuote]
    omega
  have hqueue : ∀ s ∈ data.queue.map Delivery.text, byteLength s ≤ 4600 := by
    intro s hs
    obtain ⟨item, hitem, rfl⟩ := List.mem_map.mp hs
    exact (h.delivery item hitem).byteLength_le
  have htests : ∀ s ∈ data.tests.map (toString : ℤ → String), byteLength s ≤ 20 := by
    intro s hs
    obtain ⟨at_, hat, rfl⟩ := List.mem_map.mp hs
    rw [byteLength_toString]
    exact jsonIntSize_le_of_holds (h.test at_ hat)
  have h₁ := byteLength_commaJoin_le hmembers
  have h₂ := byteLength_sliceText_le nils.dedupe hdedupe
  have h₃ := byteLength_sliceText_le nils.queue hqueue
  have h₄ := byteLength_sliceText_le nils.tests htests
  have hlen : data.members.length = data.subscriptions.entries.length := by
    unfold DiskState.members Go.sortedEntries
    rw [List.length_insertionSort, List.length_map]
  rw [List.length_map] at h₁ h₂ h₃ h₄
  rw [hlen] at h₁
  have hprivate := jsonStringSize_le data.privateKey
  have hpublic := jsonStringSize_le data.publicKey
  have hepoch := jsonStringSize_le data.epoch
  have hprivateLen := length_toList_le_byteLength data.privateKey
  have hpublicLen := length_toList_le_byteLength data.publicKey
  have hepochLen := length_of_isEpoch h.epoch
  have hversion : jsonIntSize 1 = 1 := by decide
  have hframe : byteLength "\x7b\"schemaVersion\":" + byteLength ",\"privateKey\":" +
      byteLength ",\"publicKey\":" + byteLength ",\"epoch\":" +
      byteLength ",\"subscriptions\":\x7b" + byteLength "\x7d,\"dedupe\":" +
      byteLength ",\"queue\":" + byteLength ",\"tests\":" + byteLength "\x7d" ≤ 200 := by
    decide
  have hkeys : byteLength data.privateKey = 43 ∧ byteLength data.publicKey = 87 :=
    ⟨h.privateKey, h.publicKey⟩
  have hsubs : data.subscriptions.entries.length ≤ 64 := h.subscriptions_le
  have hring : data.dedupe.length ≤ 4096 := h.dedupe_le
  have hpending : data.queue.length ≤ 1024 := h.queue_le
  have hcount := h.tests_le
  rw [DiskState.length_marshal]
  unfold DiskState.text maxStoreBytes
  rw [h.version]
  simp only [byteLength_append, byteLength_jsonQuote, byteLength_toString]
  omega

end Push
