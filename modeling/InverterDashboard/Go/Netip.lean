import Mathlib.Tactic

set_option relaxedAutoImplicit false
set_option autoImplicit false

/-!
# Addresses and prefixes of `net/netip`

Addresses are numbers of 32 or 128 bits, and a prefix is a range of such numbers. The predicates of
`netip.Addr` are memberships in prefixes.

## Main definitions

* `Go.Netip.Prefix`, `Go.Netip.Prefix.covers` — the numbers that begin with the same bits.
* `Go.Netip.Addr`, `Go.Netip.Addr.unmap`, `Go.Netip.Addr.isGlobalUnicast` — the methods of `Addr`.
* `Go.Netip.Addr.Carries` — the IPv4 address that an address leads to.

## Main results

* `Go.Netip.Prefix.covers_iff` — a prefix is a range.
-/

namespace Go.Netip

/-! ## Prefixes -/

/-- The first bits of numbers of a width. -/
structure Prefix (w : ℕ) where
  address : BitVec w
  bits : ℕ

/-- The number begins with the bits of the prefix: no bit of these is different. -/
def Prefix.covers {w : ℕ} (p : Prefix w) (x : BitVec w) : Bool :=
  (x ^^^ p.address) >>> (w - p.bits) == 0#w

/-- The first number of a prefix. -/
def Prefix.first {w : ℕ} (p : Prefix w) : ℕ :=
  p.address.toNat / 2 ^ (w - p.bits) * 2 ^ (w - p.bits)

/-- The number behind the last one of a prefix. -/
def Prefix.stop {w : ℕ} (p : Prefix w) : ℕ := p.first + 2 ^ (w - p.bits)

/-- **Ranges.** A prefix covers the numbers from its first to its last.

**Proof sketch.** The bits that are left by the shift are the quotient by a power of two. -/
theorem Prefix.covers_iff {w : ℕ} (p : Prefix w) (x : BitVec w) :
    p.covers x = true ↔ p.first ≤ x.toNat ∧ x.toNat < p.stop := by
  have hshift : p.covers x = true ↔
      x.toNat / 2 ^ (w - p.bits) = p.address.toNat / 2 ^ (w - p.bits) := by
    rw [Prefix.covers, beq_iff_eq, BitVec.ushiftRight_xor_distrib, BitVec.xor_eq_zero_iff,
      ← BitVec.toNat_inj, BitVec.toNat_ushiftRight, BitVec.toNat_ushiftRight,
      Nat.shiftRight_eq_div_pow, Nat.shiftRight_eq_div_pow]
  have hpos : 0 < 2 ^ (w - p.bits) := Nat.two_pow_pos _
  rw [hshift, Prefix.stop, Prefix.first, Nat.div_eq_iff hpos]
  omega

/-- The number of four octets. -/
def quad (a b c d : ℕ) : BitVec 32 := BitVec.ofNat 32 (((a * 256 + b) * 256 + c) * 256 + d)

/-- A prefix of IPv4. -/
def prefix4 (a b c d bits : ℕ) : Prefix 32 := ⟨quad a b c d, bits⟩

/-- The number of the first of eight groups; the others are 0. -/
def groups (gs : List ℕ) : BitVec 128 :=
  BitVec.ofNat 128 ((List.range 8).foldl (fun n i => n * 65536 + gs.getD i 0) 0)

/-- A prefix of IPv6. -/
def prefix6 (gs : List ℕ) (bits : ℕ) : Prefix 128 := ⟨groups gs, bits⟩

/-! ## Addresses -/

/-- `netip.Addr`. -/
inductive Addr where
  /-- The zero value, which is no address. -/
  | zero
  | v4 (bits : BitVec 32)
  | v6 (bits : BitVec 128) (zone : String)
  deriving DecidableEq

/-- The addresses of IPv6 that are addresses of IPv4. -/
def mapped : Prefix 128 := prefix6 [0, 0, 0, 0, 0, 0xffff] 96

namespace Addr

/-- `Unmap`; the zone is left behind. -/
def unmap : Addr → Addr
  | v6 b zone => if mapped.covers b then v4 (b.setWidth 32) else v6 b zone
  | a => a

/-- `Is6`. -/
def is6 : Addr → Bool
  | v6 .. => true
  | _ => false

/-- `IsValid`. -/
def isValid : Addr → Bool
  | zero => false
  | _ => true

/-- `Zone`. -/
def zone : Addr → String
  | v6 _ zone => zone
  | _ => ""

/-- `Prefix.Contains` of a prefix of IPv4. -/
def inV4 (p : Prefix 32) : Addr → Bool
  | v4 b => p.covers b
  | _ => false

/-- `Prefix.Contains` of a prefix of IPv6: no address with a zone. -/
def inV6 (p : Prefix 128) : Addr → Bool
  | v6 b zone => zone == "" && p.covers b
  | _ => false

/-- The bits of an address of IPv6 begin as a prefix, with any zone. -/
def begins (p : Prefix 128) : Addr → Bool
  | v6 b _ => p.covers b
  | _ => false

/-- `IsLoopback`. -/
def isLoopback (a : Addr) : Bool :=
  a.unmap.inV4 (prefix4 127 0 0 0 8) || a.begins (prefix6 [0, 0, 0, 0, 0, 0, 0, 1] 128)

/-- `IsMulticast`. -/
def isMulticast (a : Addr) : Bool :=
  a.unmap.inV4 (prefix4 224 0 0 0 4) || a.begins (prefix6 [0xff00] 8)

/-- `IsLinkLocalUnicast`. -/
def isLinkLocalUnicast (a : Addr) : Bool :=
  a.unmap.inV4 (prefix4 169 254 0 0 16) || a.begins (prefix6 [0xfe80] 10)

/-- `IsPrivate`. -/
def isPrivate (a : Addr) : Bool :=
  a.unmap.inV4 (prefix4 10 0 0 0 8) || a.unmap.inV4 (prefix4 172 16 0 0 12) ||
    a.unmap.inV4 (prefix4 192 168 0 0 16) || a.begins (prefix6 [0xfc00] 7)

/-- `IsGlobalUnicast`. -/
def isGlobalUnicast (a : Addr) : Bool :=
  a.isValid && a != v4 (quad 0 0 0 0) && a != v4 (quad 255 255 255 255) && a != v6 0 "" &&
    !a.isLoopback && !a.isMulticast && !a.isLinkLocalUnicast

/-- The IPv4 address that an address leads to: itself, the one it is mapped to or compatible with,
or the one behind a translator, a relay of 6to4 or a relay of Teredo. -/
inductive Carries : Addr → BitVec 32 → Prop
  | itself (b : BitVec 32) : Carries (v4 b) b
  | mapped {b : BitVec 128} {zone : String} : Netip.mapped.covers b = true →
    Carries (v6 b zone) (b.setWidth 32)
  | compatible {b : BitVec 128} {zone : String} : (prefix6 [] 96).covers b = true →
    Carries (v6 b zone) (b.setWidth 32)
  | translated {b : BitVec 128} {zone : String} : (prefix6 [0x64, 0xff9b] 96).covers b = true →
    Carries (v6 b zone) (b.setWidth 32)
  | relayed {b : BitVec 128} {zone : String} : (prefix6 [0x2002] 16).covers b = true →
    Carries (v6 b zone) (b.extractLsb' 80 32)
  | tunnelled {b : BitVec 128} {zone : String} : (prefix6 [0x2001] 32).covers b = true →
    Carries (v6 b zone) (~~~ b.setWidth 32)

end Addr

end Go.Netip
