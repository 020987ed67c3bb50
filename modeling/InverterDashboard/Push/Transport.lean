import InverterDashboard.Go.Base64
import InverterDashboard.Go.Text
import InverterDashboard.Push.Bytes

set_option relaxedAutoImplicit false
set_option autoImplicit false

/-!
# Endpoints and browser keys

`internal/push/transport.go`: what a subscription must be before it is stored. The parsers of URLs
and addresses and the curve are the business of the standard library and enter as a parameter;
base64, the limits and the list of providers are written out.

## Main definitions

* `Push.Net`, `Push.URL` — what the checks call, and what they look at.
* `Push.knownProvider`, `Push.validateEndpoint`, `Push.validateSubscription` — the checks.
* `Push.canonicalKey` — the canonical form of a key.
* `Push.Libs.withNet` — the store with these checks.

## Main results

* `Push.canonicalSubscription_spec` — an accepted subscription has a short endpoint and keys of a
  fixed length.
-/

namespace Push

open Go (hasSuffix trimSpace containsText)
open Go.Base64 (rawURLEncode rawURLDecode urlDecode)

/-! ## URLs and hosts -/

/-- `url.URL`, as far as it is looked at. -/
structure URL where
  scheme : String
  /-- `Opaque`. -/
  opaquePart : String
  /-- `User` is not nil. -/
  hasUser : Bool
  host : String
  path : String
  fragment : String
  deriving DecidableEq

/-- The host without its port and brackets, and the port. -/
def URL.splitHostPort (u : URL) : String × String :=
  let cs := u.host.toList
  let port := (cs.reverse.takeWhile fun c => c ≠ ':').reverse
  let split := decide (':' ∈ cs) && port.all Char.isDigit
  let name := if split then cs.take (cs.length - port.length - 1) else cs
  let bare := if name.head? = some '[' ∧ name.getLast? = some ']' then name.tail.dropLast else name
  (String.ofList bare, if split then String.ofList port else "")

/-- `Hostname`. -/
def URL.hostname (u : URL) : String := u.splitHostPort.1

/-- `Port`. -/
def URL.port (u : URL) : String := u.splitHostPort.2

/-- What the checks call. -/
structure Net where
  /-- `url.Parse`. -/
  parse : String → Option URL
  /-- `netip.ParseAddr` returns no error. -/
  parseAddr : String → Bool
  /-- `ecdh.P256().NewPublicKey` returns no error. -/
  newPublicKey : List UInt8 → Bool
  /-- The bytes of the public key of `ecdh.P256().NewPrivateKey`. -/
  publicKey : List UInt8 → Option (List UInt8)

/-- `maxEndpointBytes`. -/
def maxEndpointBytes : ℕ := 2048

/-- A label of a host name. -/
def validLabel (label : List Char) : Bool :=
  decide (label ≠ []) && decide (byteLength (String.ofList label) ≤ 63) &&
    decide (label.head? ≠ some '-') && decide (label.getLast? ≠ some '-') &&
    label.all fun c => ('a' ≤ c && c ≤ 'z') || ('0' ≤ c && c ≤ '9') || c == '-'

/-- `knownProvider`. -/
def knownProvider (host : String) : Bool :=
  decide (byteLength host ≤ 253) && (host.toList.splitOn '.').all validLabel &&
    (decide (host = "fcm.googleapis.com") || decide (host = "updates.push.services.mozilla.com") ||
      hasSuffix host ".push.apple.com" || hasSuffix host ".notify.windows.com")

/-- `validateEndpoint`. What `strings.ToLower` does to other letters than ASCII plays no part, for a
known provider has none. -/
def validateEndpoint (N : Net) (endpoint : String) : Option URL :=
  if endpoint = "" ∨ maxEndpointBytes < byteLength endpoint ∨ trimSpace endpoint ≠ endpoint then
    none
  else match N.parse endpoint with
    | none => none
    | some u =>
      if u.scheme ≠ "https" ∨ u.opaquePart ≠ "" ∨ u.hasUser ∨ u.fragment ≠ "" ∨
          containsText endpoint "#" ∨ u.path = "" then none
      else
        let host := u.hostname
        if host = "" ∨ host ≠ Go.toLower host ∨ ¬knownProvider host ∨
            (u.port ≠ "" ∧ u.port ≠ "443") ∨ hasSuffix u.host ":" then none
        else if N.parseAddr host then none
        else some u

/-! ## Subscriptions -/

/-- The errors of `validateSubscription`. -/
inductive SubscriptionError where
  | endpoint
  | authenticationKey
  | publicKey
  deriving DecidableEq

/-- The texts of the errors. -/
def SubscriptionError.text : SubscriptionError → String
  | .endpoint => "invalid push service endpoint"
  | .authenticationKey => "invalid push authentication key"
  | .publicKey => "invalid push public key"

/-- `validateSubscription`. -/
def validateSubscription (N : Net) (s : Subscription) : Option SubscriptionError :=
  if (validateEndpoint N s.endpoint).isNone then some .endpoint
  else if !(rawURLDecode s.auth).any fun auth => auth.length = 16 then some .authenticationKey
  else if !(rawURLDecode s.p256dh).any fun key => key.length = 65 && N.newPublicKey key then
    some .publicKey
  else none

/-- The function `decode` of `canonicalSubscription`. -/
def canonicalKey (raw : String) : Option String :=
  if 128 < byteLength raw then none
  else (rawURLDecode raw <|> urlDecode raw).map rawURLEncode

/-- The check of the application keys in `validDiskState`. -/
def validKeys (N : Net) (privateKey publicKey : String) : Bool :=
  ((rawURLDecode privateKey).bind N.publicKey).any fun key => rawURLEncode key = publicKey

/-- The libraries of the store, with these checks. -/
def Libs.withNet (L : Libs) (N : Net) : Libs :=
  { L with
    decodeKey := canonicalKey
    validSubscription := fun s => (validateSubscription N s).isNone
    validKeys := Push.validKeys N }

/-! ## What is accepted -/

theorem byteLength_of_validateEndpoint {N : Net} {endpoint : String}
    (h : (validateEndpoint N endpoint).isSome = true) : byteLength endpoint ≤ maxEndpointBytes := by
  unfold validateEndpoint at h
  split_ifs at h with hbad
  · cases h
  · exact not_lt.mp (not_or.mp (not_or.mp hbad).2).1

/-- A subscription without an error has a short endpoint, and keys of 16 and 65 bytes. -/
theorem of_validateSubscription_eq_none {N : Net} {s : Subscription}
    (h : validateSubscription N s = none) :
    byteLength s.endpoint ≤ maxEndpointBytes ∧
      (∃ auth, rawURLDecode s.auth = some auth ∧ auth.length = 16) ∧
      ∃ key, rawURLDecode s.p256dh = some key ∧ key.length = 65 := by
  unfold validateSubscription at h
  split_ifs at h with hendpoint hauth hkey
  simp only [Bool.not_eq_true', Bool.not_eq_false, Option.any_eq_true, Bool.and_eq_true,
    decide_eq_true_eq] at hauth hkey
  obtain ⟨auth, hdecode, hlen⟩ := hauth
  obtain ⟨key, hdecode', hlen', -⟩ := hkey
  have hsome : (validateEndpoint N s.endpoint).isSome = true := by
    simpa [Option.isNone_iff_eq_none, Option.isSome_iff_ne_none] using hendpoint
  exact ⟨byteLength_of_validateEndpoint hsome, ⟨auth, hdecode, hlen⟩, key, hdecode', hlen'⟩

/-- A canonical key that decodes to some bytes has their length in base64. -/
theorem length_of_canonicalKey {raw key : String} {bs : List UInt8}
    (h : canonicalKey raw = some key) (hdecode : rawURLDecode key = some bs) :
    key.toList.length = (4 * bs.length + 2) / 3 := by
  unfold canonicalKey at h
  split_ifs at h
  obtain ⟨bs', -, rfl⟩ := Option.map_eq_some_iff.mp h
  rw [Go.Base64.rawURLDecode_rawURLEncode] at hdecode
  obtain rfl := Option.some.inj hdecode
  exact Go.Base64.length_rawURLEncode bs'

/-- **What `canonicalSubscription` accepts**: the endpoint is left alone and short, the keys have 22
and 87 characters. -/
theorem canonicalSubscription_spec {L : Libs} {N : Net} {raw sub : Subscription}
    (h : canonicalSubscription (L.withNet N) raw = some sub) :
    sub.endpoint = raw.endpoint ∧ byteLength sub.endpoint ≤ maxEndpointBytes ∧
      sub.auth.toList.length = 22 ∧ sub.p256dh.toList.length = 87 := by
  have hvalid := validSubscription_of_canonical h
  unfold canonicalSubscription at h
  obtain ⟨p256dh, hp256dh, h⟩ := Option.bind_eq_some_iff.mp h
  obtain ⟨auth, hauth, h⟩ := Option.bind_eq_some_iff.mp h
  dsimp only at h
  split_ifs at h
  obtain rfl := Option.some.inj h
  obtain ⟨hendpoint, ⟨bs, hbs, hlen⟩, key, hkey, hlen'⟩ :=
    of_validateSubscription_eq_none (Option.isNone_iff_eq_none.mp hvalid)
  refine ⟨rfl, hendpoint, ?_, ?_⟩
  · rw [length_of_canonicalKey hauth hbs, hlen]
  · rw [length_of_canonicalKey hp256dh hkey, hlen']

end Push
