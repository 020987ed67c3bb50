import Mathlib.Data.List.AList
import Mathlib.Tactic

set_option relaxedAutoImplicit false
set_option autoImplicit false

/-!
# Notifications: payloads, deliveries and preferences

`internal/push/model.go`. Instants are Unix nanoseconds. The hash, the checks of browser keys and
endpoints, and the length of the encoded store are the business of the standard library and enter as
a parameter.

## Main definitions

* `Push.Libs` — what the package calls for hashes, keys and the size of the encoded store.
* `Push.Payload`, `Push.makePayload`, `Payload.current`, `Payload.persistedValid`.
* `Push.Delivery`, `Push.StoredSubscription`, `Push.DiskState`.

## Main results

* `Push.fitBody_longest` — the loop of `makePayload` stops at the longest body that fits.
* `Push.persistedValid_makePayload` — what `makePayload` builds from a kind and a source of the
  package, after the Unix epoch, may be stored.
-/

namespace Push

/-! ## Texts and instants -/

/-- An instant in Unix nanoseconds. -/
abbrev Instant : Type := ℤ

/-- `UnixMilli`. -/
def unixMilli (t : Instant) : ℤ := t / 1000000

/-- A number of seconds. -/
def seconds (n : ℤ) : ℤ := n * 1000000000

/-- `digestID`: 64 lower-case hexadecimal digits. -/
def digestID (text : String) : Bool :=
  decide (text.toList.length = 64) && text.toList.all fun c =>
    ('0' ≤ c && c ≤ '9') || ('a' ≤ c && c ≤ 'f')

/-- `boundedText`. -/
def boundedText (text : String) (limit : ℕ) : String := String.ofList (text.toList.take limit)

/-- The bytes of a character inside a string that `json.Marshal` writes. -/
def jsonCharSize (c : Char) : ℕ :=
  if c = '"' ∨ c = '\\' then 2
  else if c.toNat < 0x20 then
    if c.toNat ∈ [0x08, 0x09, 0x0a, 0x0c, 0x0d] then 2 else 6
  else if c ∈ ['<', '>', '&'] ∨ c.toNat = 0x2028 ∨ c.toNat = 0x2029 then 6
  else c.utf8Size

/-- The bytes of a string that `json.Marshal` writes. -/
def jsonStringSize (s : String) : ℕ := 2 + (s.toList.map jsonCharSize).sum

/-- The bytes of an integer. -/
def jsonIntSize (n : ℤ) : ℕ := (toString n).length

/-! ## Preferences and payloads -/

/-- `Preferences`. -/
structure Preferences where
  native : Bool
  ev : Bool
  water : Bool
  lowBattery : Bool
  deriving DecidableEq

/-- `DefaultPreferences`. -/
def defaultPreferences : Preferences := ⟨true, true, true, true⟩

/-- `allows`. -/
def Preferences.allows (p : Preferences) (kind : String) : Bool :=
  if kind = "native" then p.native
  else if kind = "ev" then p.ev
  else if kind = "water" then p.water
  else if kind = "lowBattery" then p.lowBattery
  else decide (kind = "test")

/-- `Payload`. -/
structure Payload where
  schemaVersion : ℤ
  eventKey : String
  kind : String
  source : String
  sourceTimestampMS : ℤ
  observedAtMS : ℤ
  title : String
  body : String
  url : String
  deriving DecidableEq

/-- The limits of the package. -/
def maxSubscriptions : ℕ := 64

@[inherit_doc maxSubscriptions]
def maxDedupe : ℕ := 4096

@[inherit_doc maxSubscriptions]
def maxPending : ℕ := 1024

@[inherit_doc maxSubscriptions]
def maxPayloadBytes : ℕ := 3072

/-- `maxStoreBytes`. -/
def maxStoreBytes : ℕ := 8 * 2 ^ 20

/-- `maxEventAge`. -/
def maxEventAge : ℤ := seconds 300

/-- `maxFutureSkew`. -/
def maxFutureSkew : ℤ := seconds 30

namespace Payload

/-- The names and the punctuation of an encoded payload. -/
def frame : String :=
  "\x7b\"schemaVersion\":,\"eventKey\":,\"kind\":,\"source\":,\"sourceTimestampMs\":," ++
    "\"observedAtMs\":,\"title\":,\"body\":,\"url\":\x7d"

/-- The length of `json.Marshal(payload)`. -/
def size (p : Payload) : ℕ :=
  frame.length + jsonIntSize p.schemaVersion + jsonStringSize p.eventKey + jsonStringSize p.kind +
    jsonStringSize p.source + jsonIntSize p.sourceTimestampMS + jsonIntSize p.observedAtMS +
    jsonStringSize p.title + jsonStringSize p.body + jsonStringSize p.url

/-- `current`. -/
def current (p : Payload) (now : Instant) : Bool :=
  let at_ := p.sourceTimestampMS * 1000000
  decide (0 < p.sourceTimestampMS) && decide (now - at_ ≤ maxEventAge) &&
    decide (at_ - now ≤ maxFutureSkew)

/-- `persistedValid`. Strings are valid UTF-8 here. -/
def persistedValid (p : Payload) : Bool :=
  decide (p.schemaVersion = 1) && digestID p.eventKey && defaultPreferences.allows p.kind &&
    decide (p.url = "/") && decide (0 < p.sourceTimestampMS) && decide (0 < p.observedAtMS) &&
    decide (p.source = "victron" ∨ p.source = "system" ∨ p.source = "ha") &&
    !(decide (p.kind = "native" ∧ p.source = "ha")) &&
    !(decide (p.kind = "test" ∧ p.source ≠ "system")) &&
    decide (p.title.toList.length ≠ 0 ∧ p.title.toList.length ≤ 120) &&
    decide (p.body.toList.length ≤ 1000) && decide (p.size ≤ maxPayloadBytes)

end Payload

/-! ## Stored data -/

/-- `webpush.Subscription`. -/
structure Subscription where
  endpoint : String
  auth : String
  p256dh : String
  deriving DecidableEq

/-- `storedSubscription`. -/
structure StoredSubscription where
  subscription : Subscription
  preferences : Preferences
  lastTestMS : ℤ
  deriving DecidableEq

/-- `delivery`. -/
structure Delivery where
  id : String
  subscriptionID : String
  epoch : String
  payload : Payload
  attempts : ℤ := 0
  nextAttemptMS : ℤ := 0
  deriving DecidableEq

/-- `diskState`. The map of subscriptions is never nil behind `load`; the copies that the package
makes through JSON are the identity here. -/
structure DiskState where
  schemaVersion : ℤ
  privateKey : String
  publicKey : String
  epoch : String
  subscriptions : AList fun _ : String => StoredSubscription
  dedupe : List String
  queue : List Delivery
  tests : List ℤ

/-- What the package takes from the standard library. -/
structure Libs where
  /-- `hex.EncodeToString` of `sha256.Sum256`. -/
  sha256 : String → String
  /-- A hash is a digest. -/
  digest : ∀ text, digestID (sha256 text) = true
  /-- The canonical form of a key in URL base64, with or without padding. -/
  decodeKey : String → Option String
  /-- `validateSubscription`: a known provider over HTTPS and keys on the curve. -/
  validSubscription : Subscription → Bool
  /-- The public application key belongs to the private one. -/
  validKeys : String → String → Bool
  /-- The length of `json.Marshal(data)`. -/
  storeSize : DiskState → ℕ

/-- A string in compact JSON: only quotes, backslashes and control characters are escaped. -/
def compactQuote (s : String) : String :=
  "\"" ++ String.join (s.toList.map fun c =>
    if c = '"' then "\\\""
    else if c = '\\' then "\\\\"
    else if c.toNat = 0x08 then "\\b"
    else if c.toNat = 0x09 then "\\t"
    else if c.toNat = 0x0a then "\\n"
    else if c.toNat = 0x0c then "\\f"
    else if c.toNat = 0x0d then "\\r"
    else if c.toNat < 0x20 then
      "\\u00" ++ String.ofList [Nat.digitChar (c.toNat / 16), Nat.digitChar (c.toNat % 16)]
    else c.toString) ++ "\""

/-- `eventKey`. -/
def eventKey (L : Libs) (kind source id : String) (timestamp : ℤ) : String :=
  L.sha256 ("[" ++ compactQuote kind ++ "," ++ compactQuote source ++ "," ++ compactQuote id ++
  "," ++
    toString timestamp ++ "]")

theorem digestID_eventKey (L : Libs) (kind source id : String) (timestamp : ℤ) :
    digestID (eventKey L kind source id timestamp) = true := by
  unfold eventKey
  exact L.digest _

/-- `subscriptionID`. -/
def subscriptionID (L : Libs) (endpoint : String) : String := L.sha256 endpoint

/-- The loop of `makePayload`: the body is cut until the payload fits. -/
def fitBody (p : Payload) (runes : List Char) : ℕ → Payload
  | 0 => { p with body := "" }
  | n + 1 =>
    let q := { p with body := String.ofList (runes.take (n + 1)) }
    if q.size ≤ maxPayloadBytes then q else fitBody p runes n

/-- `makePayload`. -/
def makePayload (L : Libs) (kind source id title body : String) (occurred observed : Instant) :
    Payload :=
  let title := boundedText title 120
  let runes := (boundedText body 1000).toList
  fitBody
    { schemaVersion := 1
      eventKey := eventKey L kind source id (unixMilli occurred)
      kind := kind
      source := source
      sourceTimestampMS := unixMilli occurred
      observedAtMS := unixMilli observed
      title := if title = "" then "Notification" else title
      body := ""
      url := "/" } runes runes.length

/-! ## What `makePayload` builds -/

/-- The loop changes the body only. It stops at the first one that fits, coming from the longest.

**Proof sketch.** By induction on the runes that are left: a longer body was tried before and did
not fit. -/
theorem fitBody_longest (p : Payload) (runes : List Char) (n : ℕ) :
    ∃ m ≤ n, fitBody p runes n = { p with body := String.ofList (runes.take m) } ∧
      ((fitBody p runes n).size ≤ maxPayloadBytes ∨ m = 0) ∧
      ∀ k, m < k → k ≤ n →
        maxPayloadBytes < ({ p with body := String.ofList (runes.take k) } : Payload).size := by
  induction n with
  | zero => exact ⟨0, le_refl _, rfl, Or.inr rfl, fun k h₁ h₂ => by omega⟩
  | succ n ih =>
    unfold fitBody
    dsimp only
    split_ifs with h
    · exact ⟨n + 1, le_refl _, rfl, Or.inl h, fun k h₁ h₂ => by omega⟩
    · obtain ⟨m, hm, heq, hsize, hlong⟩ := ih
      refine ⟨m, Nat.le_succ_of_le hm, heq, hsize, fun k h₁ h₂ => ?_⟩
      rcases Nat.eq_or_lt_of_le h₂ with rfl | hlt
      · exact not_le.mp h
      · exact hlong k h₁ (Nat.lt_succ_iff.mp hlt)

theorem fitBody_members (p : Payload) (runes : List Char) (n : ℕ) :
    (fitBody p runes n).eventKey = p.eventKey ∧ (fitBody p runes n).kind = p.kind ∧
      (fitBody p runes n).sourceTimestampMS = p.sourceTimestampMS ∧
      (fitBody p runes n).title = p.title := by
  obtain ⟨m, -, heq, -⟩ := fitBody_longest p runes n
  rw [heq]
  exact ⟨rfl, rfl, rfl, rfl⟩

/-- A payload that fits without a body fits with the body that the loop leaves. -/
theorem size_fitBody_le {p : Payload} (hbody : p.body = "") (hsize : p.size ≤ maxPayloadBytes)
    (runes : List Char) (n : ℕ) : (fitBody p runes n).size ≤ maxPayloadBytes := by
  obtain ⟨m, -, heq, hfit | rfl, -⟩ := fitBody_longest p runes n
  · exact hfit
  · have hempty : ({ p with body := String.ofList (runes.take 0) } : Payload) = p := by
      rw [List.take_zero, String.ofList_nil, ← hbody]
    rw [heq, hempty]
    exact hsize

/-- No character takes more than six bytes. -/
theorem jsonCharSize_le (c : Char) : jsonCharSize c ≤ 6 := by
  have h := c.utf8Size_le_four
  unfold jsonCharSize
  split_ifs <;> omega

theorem jsonStringSize_le (s : String) : jsonStringSize s ≤ 2 + 6 * s.toList.length := by
  have h : ∀ l : List Char, (l.map jsonCharSize).sum ≤ 6 * l.length := by
    intro l
    induction l with
    | nil => simp
    | cons c l ih =>
      have hc := jsonCharSize_le c
      simp only [List.map_cons, List.sum_cons, List.length_cons]
      omega
  have := h s.toList
  unfold jsonStringSize
  omega

theorem length_of_digestID {s : String} (h : digestID s = true) : s.toList.length = 64 := by
  simp only [digestID, Bool.and_eq_true, decide_eq_true_eq] at h
  exact h.1

/-- A positive integer of the language takes 19 bytes at most. -/
theorem jsonIntSize_le {n : ℤ} (hpos : 0 < n) (hlt : n < 10 ^ 19) : jsonIntSize n ≤ 19 := by
  obtain ⟨m, rfl⟩ := Int.eq_ofNat_of_zero_le hpos.le
  have hm : m < 10 ^ 19 := by exact_mod_cast hlt
  exact Nat.repr_length m 19 (by norm_num) hm

/-- The kinds of the package. -/
def kinds : List String := ["native", "ev", "water", "lowBattery", "test"]

theorem length_of_mem_kinds {kind : String} (h : kind ∈ kinds) :
    kind.toList.length ≤ 10 ∧ defaultPreferences.allows kind = true := by
  revert h
  have hall : ∀ k ∈ kinds, k.toList.length ≤ 10 ∧ defaultPreferences.allows k = true := by
    decide
  exact hall kind

/-- An instant whose milliseconds are positive and fit their type. -/
def AfterEpoch (t : Instant) : Prop := 0 < unixMilli t ∧ unixMilli t < 2 ^ 63

instance (t : Instant) : Decidable (AfterEpoch t) :=
  inferInstanceAs (Decidable (0 < unixMilli t ∧ unixMilli t < 2 ^ 63))

theorem AfterEpoch.bounds {t : Instant} (h : AfterEpoch t) :
    0 < unixMilli t ∧ unixMilli t < 10 ^ 19 :=
  ⟨h.1, h.2.trans (by norm_num)⟩

/-- What is current shortly after the epoch happened after the epoch. -/
theorem AfterEpoch.bounds_of_current {p : Payload} {now : Instant} (h : AfterEpoch now)
    (hcur : p.current now = true) : 0 < p.sourceTimestampMS ∧ p.sourceTimestampMS < 10 ^ 19 := by
  simp only [Payload.current, Bool.and_eq_true, decide_eq_true_eq, maxFutureSkew, seconds] at hcur
  have hskew : p.sourceTimestampMS * 1000000 - now ≤ 30 * 1000000000 := of_decide_eq_true hcur.2
  have hms := h.2
  unfold unixMilli at hms
  refine ⟨hcur.1.1, ?_⟩
  omega

/-- The title of a payload is neither empty nor long. -/
theorem title_bounds (title : String) :
    (if boundedText title 120 = "" then "Notification" else boundedText title 120).toList.length ≠
    0 ∧
      (if boundedText title 120 = "" then "Notification"
        else boundedText title 120).toList.length ≤ 120 := by
  split_ifs with h
  · decide
  · refine ⟨fun hlen => h ?_, ?_⟩
    · have hnil := List.length_eq_zero_iff.mp hlen
      exact String.toList_eq_nil_iff.mp hnil
    · rw [boundedText, String.toList_ofList]
      exact List.length_take_le _ _

/-- The members of a payload that `makePayload` fills from its arguments. -/
structure Payload.Fits (p : Payload) : Prop where
  version : p.schemaVersion = 1
  key : digestID p.eventKey = true
  kind : p.kind ∈ kinds
  source : p.source = "victron" ∨ p.source = "system"
  test : p.kind = "test" → p.source = "system"
  occurred : 0 < p.sourceTimestampMS ∧ p.sourceTimestampMS < 10 ^ 19
  observed : 0 < p.observedAtMS ∧ p.observedAtMS < 10 ^ 19
  title : p.title.toList.length ≠ 0 ∧ p.title.toList.length ≤ 120
  url : p.url = "/"

/-- Everything but the body is small. -/
theorem Payload.Fits.size_le {p : Payload} (h : p.Fits) (hbody : p.body = "") :
    p.size ≤ maxPayloadBytes := by
  have h₁ := jsonStringSize_le p.eventKey
  have h₂ := jsonStringSize_le p.kind
  have h₃ := jsonStringSize_le p.source
  have h₄ := jsonStringSize_le p.title
  have h₅ := jsonIntSize_le h.occurred.1 h.occurred.2
  have h₆ := jsonIntSize_le h.observed.1 h.observed.2
  have h₇ : jsonIntSize 1 = 1 ∧ jsonStringSize "" = 2 ∧ jsonStringSize "/" = 3 ∧
      Payload.frame.length ≤ 200 := by decide +kernel
  have hkey := length_of_digestID h.key
  have hkind := (length_of_mem_kinds h.kind).1
  have hsource : p.source.toList.length ≤ 7 := by
    rcases h.source with heq | heq <;> rw [heq] <;> decide
  have htitle := h.title.2
  unfold Payload.size maxPayloadBytes
  rw [h.version, hbody, h.url]
  omega

/-- A payload with a short body that fits may be stored. -/
theorem Payload.Fits.persistedValid {p : Payload} (h : p.Fits) (hbody : p.body.toList.length ≤ 1000)
    (hsize : p.size ≤ maxPayloadBytes) : p.persistedValid = true := by
  have hallow := (length_of_mem_kinds h.kind).2
  have hha : p.source ≠ "ha" := by
    rcases h.source with heq | heq <;> rw [heq] <;> decide
  have hsource : p.source = "victron" ∨ p.source = "system" ∨ False := h.source.imp id Or.inl
  have htest : ¬(p.kind = "test" ∧ p.source ≠ "system") := fun hc => hc.2 (h.test hc.1)
  simp only [Payload.persistedValid, h.version, h.key, hallow, h.url, h.occurred.1, h.observed.1,
    hsource, hha, htest, h.title, hbody, hsize, decide_true, and_false, decide_false,
    Bool.not_false,
    Bool.and_self, ne_eq, not_false_eq_true, and_self]

/-- What the loop leaves of a payload that fits may be stored. -/
theorem Payload.Fits.persistedValid_fitBody {p : Payload} (h : p.Fits) (hbody : p.body = "")
    {runes : List Char} (hlen : runes.length ≤ 1000) :
    (fitBody p runes runes.length).persistedValid = true := by
  have hsize := size_fitBody_le hbody (h.size_le hbody) runes runes.length
  obtain ⟨m, -, heq, -⟩ := fitBody_longest p runes runes.length
  rw [heq] at hsize ⊢
  have hfits : ({ p with body := String.ofList (runes.take m) } : Payload).Fits :=
    ⟨h.version, h.key, h.kind, h.source, h.test, h.occurred, h.observed, h.title, h.url⟩
  refine hfits.persistedValid ?_ hsize
  rw [String.toList_ofList]
  exact (List.length_take_le' _ _).trans hlen

/-- `makePayload` leaves its arguments as they are. -/
theorem makePayload_members (L : Libs) (kind source id title body : String)
    (occurred observed : Instant) :
    (makePayload L kind source id title body occurred observed).eventKey =
        eventKey L kind source id (unixMilli occurred) ∧
      (makePayload L kind source id title body occurred observed).kind = kind ∧
      (makePayload L kind source id title body occurred observed).sourceTimestampMS =
        unixMilli occurred := by
  unfold makePayload
  dsimp only
  obtain ⟨hkey, hkind, hms, -⟩ := fitBody_members
    { schemaVersion := 1
      eventKey := eventKey L kind source id (unixMilli occurred)
      kind := kind
      source := source
      sourceTimestampMS := unixMilli occurred
      observedAtMS := unixMilli observed
      title := if boundedText title 120 = "" then "Notification" else boundedText title 120
      body := ""
      url := "/" } (boundedText body 1000).toList (boundedText body 1000).toList.length
  exact ⟨hkey, hkind, hms⟩

/-- What `makePayload` builds from a kind and a source of the package, after the Unix epoch, may be
stored. -/
theorem persistedValid_makePayload (L : Libs) {kind source : String} (hkind : kind ∈ kinds)
    (hsource : source = "victron" ∨ source = "system") (htest : kind = "test" → source = "system")
    {occurred observed : Instant} (hocc : 0 < unixMilli occurred ∧ unixMilli occurred < 10 ^ 19)
    (hobs : 0 < unixMilli observed ∧ unixMilli observed < 10 ^ 19)
    (id title body : String) :
    (makePayload L kind source id title body occurred observed).persistedValid = true := by
  have hlen : (boundedText body 1000).toList.length ≤ 1000 := by
    rw [boundedText, String.toList_ofList]
    exact List.length_take_le _ _
  have hfits : Payload.Fits
      { schemaVersion := 1
        eventKey := eventKey L kind source id (unixMilli occurred)
        kind := kind
        source := source
        sourceTimestampMS := unixMilli occurred
        observedAtMS := unixMilli observed
        title := if boundedText title 120 = "" then "Notification" else boundedText title 120
        body := ""
        url := "/" } :=
    ⟨rfl, digestID_eventKey L _ _ _ _, hkind, hsource, htest, hocc, hobs, title_bounds title, rfl⟩
  unfold makePayload
  dsimp only
  exact hfits.persistedValid_fitBody rfl hlen

end Push
