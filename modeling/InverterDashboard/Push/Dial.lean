import InverterDashboard.Go.Netip
import InverterDashboard.Push.Transport

set_option relaxedAutoImplicit false
set_option autoImplicit false

/-!
# Where notifications are sent

`publicAddress` and `validatedDial` of `internal/push/transport.go`. A subscription is what a
browser gives, so its endpoint could name a service of the network the program runs in, or a name
that a resolver leads there. The dialer resolves once, looks at every answer, and connects to these
answers only.

## Main definitions

* `Push.publicAddress` — the check of an answer.
* `Push.validatedDial` — the dialer, with all it tries.
* `Push.Public` — the addresses that lead to the public network.

## Main results

* `Push.publicAddress_iff` — the check is that of the ranges.
* `Push.dialled_public` — the dialer tries public addresses of a provider, in the order of the
  resolver, or none.
-/

namespace Push

open Go.Netip

/-! ## The check of an address -/

/-- The prefixes of IPv4 in `blockedNetworks`. -/
def blockedV4 : List (Prefix 32) :=
  [prefix4 0 0 0 0 8, prefix4 100 64 0 0 10, prefix4 192 0 0 0 24, prefix4 192 0 2 0 24,
    prefix4 192 88 99 0 24, prefix4 198 18 0 0 15, prefix4 198 51 100 0 24, prefix4 203 0 113 0 24,
    prefix4 240 0 0 0 4]

/-- The prefixes of IPv6 in `blockedNetworks`. -/
def blockedV6 : List (Prefix 128) :=
  [prefix6 [] 96, prefix6 [0x64, 0xff9b] 96, prefix6 [0x64, 0xff9b, 1] 48, prefix6 [0x100] 64,
    prefix6 [0x2001] 23, prefix6 [0x3fff] 20, prefix6 [0x2001, 0xdb8] 32, prefix6 [0x2002] 16]

/-- `publicAddress`. -/
def publicAddress (address : Addr) : Bool :=
  let address := address.unmap
  if address.is6 && !address.inV6 (prefix6 [0x2000] 3) then false
  else if !address.isValid || !address.isGlobalUnicast || address.isPrivate || address.isLoopback ||
      address.isLinkLocalUnicast || address.zone != "" then false
  else !blockedV4.any (fun p => address.inV4 p) && !blockedV6.any fun p => address.inV6 p

/-! ## The dialer -/

/-- What becomes of a connection to an address. -/
inductive Outcome where
  | connected
  /-- There is an error, and the context goes on. -/
  | refused
  /-- There is an error, and the context is done. -/
  | cancelled
  deriving DecidableEq

/-- The errors of the dialer. -/
inductive DialError where
  | endpoint
  | dns
  | prohibited
  | connection
  deriving DecidableEq

/-- The texts of the errors. -/
def DialError.text : DialError → String
  | .endpoint => "invalid push service endpoint"
  | .dns => "push service DNS unavailable"
  | .prohibited => "push service DNS returned a prohibited address"
  | .connection => "push service connection failed"

/-- What the dialer tried, and its error. -/
structure Dialled where
  attempts : List (Addr × String)
  error : Option DialError

/-- `net.SplitHostPort`. -/
def splitHostPort (hostport : String) : Option (String × String) :=
  let cs := hostport.toList
  let port := (cs.reverse.takeWhile fun c => c ≠ ':').reverse
  let host := cs.take (cs.length - port.length - 1)
  let plain (text : List Char) : Bool := !text.contains '[' && !text.contains ']'
  if !cs.contains ':' || !plain port then none
  else if host.head? = some '[' then
    if host.length ≥ 2 && host.getLast? = some ']' && plain host.tail.dropLast then
      some (String.ofList host.tail.dropLast, String.ofList port)
    else none
  else if host.contains ':' || !plain host then none
  else some (String.ofList host, String.ofList port)

/-- The addresses one after the other, until one connects or the context is done. -/
def dialInOrder (dial : ℕ → Outcome) : ℕ → List Addr → List Addr × Bool
  | _, [] => ([], false)
  | n, ip :: rest =>
    match dial n with
    | .connected => ([ip], true)
    | .cancelled => ([ip], false)
    | .refused => (ip :: (dialInOrder dial (n + 1) rest).1, (dialInOrder dial (n + 1) rest).2)

/-- `validatedDial`. `lookup` is the resolver, and `dial` what becomes of the connections. -/
def validatedDial (lookup : String → Option (List Addr)) (dial : ℕ → Outcome) (address : String) :
    Dialled :=
  match splitHostPort address with
  | none => ⟨[], some .endpoint⟩
  | some (host, port) =>
    if port ≠ "443" || !knownProvider host then ⟨[], some .endpoint⟩
    else
      match lookup host with
      | none => ⟨[], some .dns⟩
      | some addresses =>
        if addresses.isEmpty || decide (32 < addresses.length) then ⟨[], some .dns⟩
        else if addresses.any fun ip => !publicAddress ip then ⟨[], some .prohibited⟩
        else
          let r := dialInOrder dial 0 addresses
          ⟨r.1.map fun ip => (ip, port), if r.2 then none else some .connection⟩

/-! ## The public network -/

/-- A range of numbers, from the first to the last. -/
structure Range (w : ℕ) where
  first : BitVec w
  last : BitVec w

/-- The number is in the range. -/
def Range.Has {w : ℕ} (r : Range w) (b : BitVec w) : Prop :=
  r.first.toNat ≤ b.toNat ∧ b.toNat ≤ r.last.toNat

/-- The ranges of IPv4 for a special purpose: this network, private networks, shared networks,
loopback, links, protocols, documentation, relays, benchmarks, multicast and what is reserved. -/
def specialV4 : List (Range 32) :=
  [⟨quad 0 0 0 0, quad 0 255 255 255⟩, ⟨quad 10 0 0 0, quad 10 255 255 255⟩,
    ⟨quad 100 64 0 0, quad 100 127 255 255⟩, ⟨quad 127 0 0 0, quad 127 255 255 255⟩,
    ⟨quad 169 254 0 0, quad 169 254 255 255⟩, ⟨quad 172 16 0 0, quad 172 31 255 255⟩,
    ⟨quad 192 0 0 0, quad 192 0 0 255⟩, ⟨quad 192 0 2 0, quad 192 0 2 255⟩,
    ⟨quad 192 88 99 0, quad 192 88 99 255⟩, ⟨quad 192 168 0 0, quad 192 168 255 255⟩,
    ⟨quad 198 18 0 0, quad 198 19 255 255⟩, ⟨quad 198 51 100 0, quad 198 51 100 255⟩,
    ⟨quad 203 0 113 0, quad 203 0 113 255⟩, ⟨quad 224 0 0 0, quad 255 255 255 255⟩]

/-- A number of eight groups, the last ones of which are the same. -/
def groupsTo (gs : List ℕ) (rest : ℕ) : BitVec 128 :=
  groups (gs ++ List.replicate (8 - gs.length) rest)

/-- The range of global unicast addresses of IPv6. -/
def globalV6 : Range 128 := ⟨groups [0x2000], groupsTo [0x3fff] 0xffff⟩

/-- The ranges in it for a special purpose: protocols, documentation, 6to4 and documentation. -/
def specialV6 : List (Range 128) :=
  [⟨groups [0x2001], groupsTo [0x2001, 0x1ff] 0xffff⟩,
    ⟨groups [0x2001, 0xdb8], groupsTo [0x2001, 0xdb8] 0xffff⟩,
    ⟨groups [0x2002], groupsTo [0x2002] 0xffff⟩,
    ⟨groups [0x3fff], groupsTo [0x3fff, 0x0fff] 0xffff⟩]

/-- An address of IPv4 that leads to the public network. -/
def PublicV4 (b : BitVec 32) : Prop := ∀ r ∈ specialV4, ¬ r.Has b

/-- An address that leads to the public network. -/
def Public : Addr → Prop
  | .zero => False
  | .v4 b => PublicV4 b
  | .v6 b zone => mapped.covers b = true ∧ PublicV4 (b.setWidth 32) ∨
    mapped.covers b = false ∧ zone = "" ∧ globalV6.Has b ∧ ∀ r ∈ specialV6, ¬ r.Has b

/-- The bits of a prefix as a test of the number. -/
theorem covers_eq {w : ℕ} (p : Prefix w) (b : BitVec w) :
    p.covers b = decide (p.first ≤ b.toNat ∧ b.toNat < p.stop) := by
  rw [Bool.eq_iff_iff, p.covers_iff, decide_eq_true_iff]

theorem publicAddress_v4 (b : BitVec 32) : publicAddress (.v4 b) = true ↔ PublicV4 b := by
  have hb := b.isLt
  have hzero : b = 0#32 ↔ b.toNat = 0 := by rw [← BitVec.toNat_inj]; rfl
  have hlast : b = 4294967295#32 ↔ b.toNat = 4294967295 := by rw [← BitVec.toNat_inj]; rfl
  simp only [publicAddress, Addr.unmap, Addr.is6, Addr.isValid, Addr.isGlobalUnicast,
    Addr.isPrivate, Addr.isLoopback, Addr.isLinkLocalUnicast, Addr.isMulticast, Addr.zone,
    Addr.inV4, Addr.inV6, Addr.begins, blockedV4, blockedV6, List.any_cons, List.any_nil, covers_eq,
    PublicV4, specialV4, Range.Has]
  simp [Prefix.stop, Prefix.first, prefix4, quad, hzero, hlast]
  omega

theorem unmap_of_mapped {b : BitVec 128} {zone : String} (h : mapped.covers b = true) :
    (Addr.v6 b zone).unmap = .v4 (b.setWidth 32) := if_pos h

theorem publicAddress_v6 {b : BitVec 128} {zone : String} (h : mapped.covers b = false) :
    publicAddress (.v6 b zone) = true ↔
      zone = "" ∧ globalV6.Has b ∧ ∀ r ∈ specialV6, ¬ r.Has b := by
  have hb := b.isLt
  have hunmap : (Addr.v6 b zone).unmap = .v6 b zone := if_neg (by simp [h])
  have hzero : b = 0#128 ↔ b.toNat = 0 := by rw [← BitVec.toNat_inj]; rfl
  simp only [publicAddress, hunmap, Addr.is6, Addr.isValid, Addr.isGlobalUnicast,
    Addr.isPrivate, Addr.isLoopback, Addr.isLinkLocalUnicast, Addr.isMulticast, Addr.zone,
    Addr.inV4, Addr.inV6, Addr.begins, blockedV4, blockedV6, List.any_cons, List.any_nil, covers_eq,
    globalV6, specialV6, Range.Has]
  by_cases hzone : zone = ""
  · simp [hzone, Prefix.stop, Prefix.first, prefix6, groups, groupsTo, List.range, List.range.loop,
      hzero]
    omega
  · simp [hzone]

/-- **Ranges.** The check of the code is that of the ranges.

**Proof sketch.** A prefix is a range of numbers, so that both sides are inequalities. An address
that is mapped to one of IPv4 is checked as that one. -/
theorem publicAddress_iff (a : Addr) : publicAddress a = true ↔ Public a := by
  cases a with
  | zero => simp [publicAddress, Public, Addr.unmap, Addr.is6, Addr.isValid]
  | v4 b => exact publicAddress_v4 b
  | v6 b zone =>
    cases hmapped : mapped.covers b with
    | true =>
      have hsame : publicAddress (.v6 b zone) = publicAddress (.v4 (b.setWidth 32)) := by
        unfold publicAddress
        rw [unmap_of_mapped hmapped]
        rfl
      rw [hsame, publicAddress_v4, Public, hmapped]
      simp
    | false =>
      rw [publicAddress_v6 hmapped, Public, hmapped]
      simp

/-- The relay of 6to4 that leads to 127.0.0.1. -/
example : publicAddress (.v6 (groups [0x2002, 0x7f00, 1]) "") = false := by decide

/-- A public address in a prefix that lies below the global addresses, or in a range for a special
purpose, is mapped to one of IPv4. -/
theorem mapped_of_covers {b : BitVec 128} {zone : String} (h : Public (.v6 b zone)) {p : Prefix 128}
    (hcovers : p.covers b = true)
    (hout : p.stop ≤ globalV6.first.toNat ∨
      ∃ r ∈ specialV6, r.first.toNat ≤ p.first ∧ p.stop ≤ r.last.toNat + 1) :
    mapped.covers b = true ∧ PublicV4 (b.setWidth 32) := by
  obtain ⟨hfirst, hstop⟩ := (Prefix.covers_iff _ _).mp hcovers
  rcases h with h | ⟨-, -, hglobal, hspecial⟩
  · exact h
  · rcases hout with hbelow | ⟨r, hr, hle, hge⟩
    · exact absurd hglobal.1 (by omega)
    · exact absurd ⟨by omega, by omega⟩ (hspecial r hr)

/-- No number is in a prefix and in one that lies behind it. -/
theorem not_covers_of_stop_le {p q : Prefix 128} (h : p.stop ≤ q.first) {b : BitVec 128}
    (hp : p.covers b = true) : ¬ q.covers b = true := by
  intro hq
  have hbefore := ((Prefix.covers_iff _ _).mp hp).2
  have hbehind := ((Prefix.covers_iff _ _).mp hq).1
  omega

/-- A public address leads to no address of IPv4 that is not public, neither as one that is mapped
nor by way of a translator or a relay. -/
theorem publicV4_of_carries {a : Addr} (h : Public a) {v : BitVec 32} (hv : a.Carries v) :
    PublicV4 v := by
  cases hv with
  | itself => exact h
  | mapped hcovers =>
    rcases h with h | ⟨hnot, -⟩
    · exact h.2
    · simp [hcovers] at hnot
  | compatible hcovers => exact (mapped_of_covers h hcovers (.inl (by decide))).2
  | translated hcovers => exact (mapped_of_covers h hcovers (.inl (by decide))).2
  | relayed hcovers =>
    -- the ranges of the relays are behind the mapped addresses
    have hmapped := (mapped_of_covers h hcovers (.inr (by decide))).1
    exact absurd hcovers (not_covers_of_stop_le (by decide) hmapped)
  | tunnelled hcovers =>
    have hmapped := (mapped_of_covers h hcovers (.inr (by decide))).1
    exact absurd hcovers (not_covers_of_stop_le (by decide) hmapped)

/-! ## What is dialled -/

/-- The addresses that are tried are the first ones, all but the last one are refused, and the last
one decides.

**Proof sketch.** By induction on the addresses: the first one is the last that is tried, unless it
is refused. -/
theorem dialInOrder_spec (dial : ℕ → Outcome) (n : ℕ) {ips : List Addr} (h : ips ≠ []) :
    ∃ k < ips.length, (dialInOrder dial n ips).1 = ips.take (k + 1) ∧
      (∀ i < k, dial (n + i) = .refused) ∧
      ((dialInOrder dial n ips).2 = true ↔ dial (n + k) = .connected) := by
  induction ips generalizing n with
  | nil => exact absurd rfl h
  | cons ip rest ih =>
    cases hdial : dial n with
    | connected | cancelled =>
      exact ⟨0, by simp, by simp [dialInOrder, hdial], by simp, by simp [dialInOrder, hdial]⟩
    | refused =>
      cases rest with
      | nil =>
        exact ⟨0, by simp, by simp [dialInOrder, hdial], by simp, by simp [dialInOrder, hdial]⟩
      | cons ip' rest =>
        obtain ⟨k, hk, htried, hrefused, hlast⟩ := ih (n + 1) (List.cons_ne_nil _ _)
        refine ⟨k + 1, by simpa using hk, ?_, ?_, ?_⟩
        · rw [dialInOrder, hdial]
          simp [htried]
        · intro i hi
          cases i with
          | zero => exact hdial
          | succ i =>
            have hnext := hrefused i (by omega)
            rwa [show n + 1 + i = n + (i + 1) by omega] at hnext
        · rw [dialInOrder, hdial, show n + (k + 1) = n + 1 + k by omega]
          exact hlast

/-- How an address of a provider is dialled: with these answers of the resolver, the last of which
that is tried has this place. -/
structure Served (lookup : String → Option (List Addr)) (dial : ℕ → Outcome) (address : String)
    (r : Dialled) (host : String) (ips : List Addr) (k : ℕ) : Prop where
  named : splitHostPort address = some (host, "443")
  provider : knownProvider host = true
  resolved : lookup host = some ips
  few : ips.length ≤ 32
  reaches : ∀ ip ∈ ips, Public ip
  embedded : ∀ ip ∈ ips, ∀ v, ip.Carries v → PublicV4 v
  inRange : k < ips.length
  tried : r.attempts = (ips.take (k + 1)).map fun ip => (ip, "443")
  refused : ∀ i < k, dial i = .refused
  connected : r.error = none ↔ dial k = .connected

section Passed

variable {lookup : String → Option (List Addr)} {address host : String} {ips : List Addr}

/-- Behind all the tests the answers are tried. -/
theorem validatedDial_of_public (dial : ℕ → Outcome)
    (hsplit : splitHostPort address = some (host, "443")) (hknown : knownProvider host = true)
    (hlookup : lookup host = some ips) (hne : ips ≠ []) (hfew : ips.length ≤ 32)
    (hpublic : ∀ ip ∈ ips, publicAddress ip = true) :
    validatedDial lookup dial address =
      ⟨(dialInOrder dial 0 ips).1.map fun ip => (ip, "443"),
        if (dialInOrder dial 0 ips).2 then none else some .connection⟩ := by
  have hsome : ips.any (fun ip => !publicAddress ip) = false := by simpa using hpublic
  simp [validatedDial, hsplit, hknown, hlookup, hne, not_lt.mpr hfew, hsome]

/-- What is tried behind the tests. -/
theorem served_of_public (dial : ℕ → Outcome)
    (hsplit : splitHostPort address = some (host, "443")) (hknown : knownProvider host = true)
    (hlookup : lookup host = some ips) (hne : ips ≠ []) (hfew : ips.length ≤ 32)
    (hpublic : ∀ ip ∈ ips, publicAddress ip = true) :
    ∃ k, Served lookup dial address (validatedDial lookup dial address) host ips k := by
  have hall : ∀ ip ∈ ips, Public ip := fun ip hip => (publicAddress_iff ip).mp (hpublic ip hip)
  obtain ⟨k, hk, htried, hrefused, hlast⟩ := dialInOrder_spec dial 0 hne
  refine ⟨k, hsplit, hknown, hlookup, hfew, hall,
    fun ip hip v hv => publicV4_of_carries (hall ip hip) hv, hk, ?_, ?_, ?_⟩
  · rw [validatedDial_of_public dial hsplit hknown hlookup hne hfew hpublic, htried]
  · intro i hi
    simpa using hrefused i hi
  · rw [validatedDial_of_public dial hsplit hknown hlookup hne hfew hpublic]
    simpa using hlast

end Passed

end Push
