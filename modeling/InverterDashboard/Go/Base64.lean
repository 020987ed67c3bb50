import Mathlib.Tactic

set_option relaxedAutoImplicit false
set_option autoImplicit false

/-!
# The URL alphabet of base64

`base64.URLEncoding` and `base64.RawURLEncoding`. Three bytes are four numbers of six bits; a rest
of one or two bytes is two or three of them, whose spare bits the decoder does not look at. Both
decoders pass over the ends of lines.

## Main definitions

* `Go.Base64.sextets`, `Go.Base64.octets` — bytes as numbers of six bits, and back.
* `Go.Base64.digit`, `Go.Base64.value?` — the alphabet.
* `Go.Base64.rawURLEncode`, `rawURLDecode`, `urlDecode` — without padding, and with it.

## Main results

* `Go.Base64.rawURLDecode_rawURLEncode` — what is encoded is decoded to the same bytes.
* `Go.Base64.length_rawURLEncode` — the length of an encoding.
-/

namespace Go.Base64

/-! ## Numbers of six bits -/

/-- Bytes as numbers of six bits. -/
def sextets : List UInt8 → List ℕ
  | a :: b :: c :: rest =>
    a.toNat / 4 :: (a.toNat % 4 * 16 + b.toNat / 16) :: (b.toNat % 16 * 4 + c.toNat / 64) ::
      c.toNat % 64 :: sextets rest
  | [a, b] => [a.toNat / 4, a.toNat % 4 * 16 + b.toNat / 16, b.toNat % 16 * 4]
  | [a] => [a.toNat / 4, a.toNat % 4 * 16]
  | [] => []

/-- The bytes of numbers of six bits; the spare bits of the last number are dropped. -/
def octets : List ℕ → List UInt8
  | p :: q :: r :: s :: rest =>
    UInt8.ofNat (p * 4 + q / 16) :: UInt8.ofNat (q % 16 * 16 + r / 4) ::
      UInt8.ofNat (r % 4 * 64 + s) :: octets rest
  | [p, q, r] => [UInt8.ofNat (p * 4 + q / 16), UInt8.ofNat (q % 16 * 16 + r / 4)]
  | [p, q] => [UInt8.ofNat (p * 4 + q / 16)]
  | _ => []

theorem ofNat_eq_of_toNat {n : ℕ} {a : UInt8} (h : n = a.toNat) : UInt8.ofNat n = a := by
  rw [h, UInt8.ofNat_toNat]

theorem octets_sextets (bs : List UInt8) : octets (sextets bs) = bs := by
  induction bs using sextets.induct with
  | case1 a b c rest ih =>
    have ha := a.toNat_lt
    have hb := b.toNat_lt
    have hc := c.toNat_lt
    rw [sextets, octets, ih, ofNat_eq_of_toNat (a := a) (by omega),
      ofNat_eq_of_toNat (a := b) (by omega), ofNat_eq_of_toNat (a := c) (by omega)]
  | case2 a b =>
    have ha := a.toNat_lt
    have hb := b.toNat_lt
    rw [sextets, octets, ofNat_eq_of_toNat (a := a) (by omega),
      ofNat_eq_of_toNat (a := b) (by omega)]
  | case3 a =>
    have ha := a.toNat_lt
    rw [sextets, octets, ofNat_eq_of_toNat (a := a) (by omega)]
  | case4 => rfl

theorem sextets_lt (bs : List UInt8) : ∀ v ∈ sextets bs, v < 64 := by
  induction bs using sextets.induct with
  | case1 a b c rest ih =>
    have ha := a.toNat_lt
    have hb := b.toNat_lt
    have hc := c.toNat_lt
    intro v hv
    simp only [sextets, List.mem_cons] at hv
    rcases hv with rfl | rfl | rfl | rfl | hv
    · omega
    · omega
    · omega
    · omega
    · exact ih v hv
  | case2 a b =>
    have ha := a.toNat_lt
    have hb := b.toNat_lt
    intro v hv
    simp only [sextets, List.mem_cons, List.not_mem_nil, or_false] at hv
    omega
  | case3 a =>
    have ha := a.toNat_lt
    intro v hv
    simp only [sextets, List.mem_cons, List.not_mem_nil, or_false] at hv
    omega
  | case4 => exact List.forall_mem_nil _

theorem length_sextets (bs : List UInt8) : (sextets bs).length = (4 * bs.length + 2) / 3 := by
  induction bs using sextets.induct with
  | case1 a b c rest ih =>
    simp only [sextets, List.length_cons, ih]
    omega
  | case2 a b => simp [sextets]
  | case3 a => simp [sextets]
  | case4 => rfl

/-! ## The alphabet -/

/-- The character of six bits. -/
def digit (v : ℕ) : Char :=
  if v < 26 then Char.ofNat ('A'.toNat + v)
  else if v < 52 then Char.ofNat ('a'.toNat + (v - 26))
  else if v < 62 then Char.ofNat ('0'.toNat + (v - 52))
  else if v = 62 then '-'
  else '_'

/-- The six bits of a character. -/
def value? (c : Char) : Option ℕ :=
  if 'A' ≤ c ∧ c ≤ 'Z' then some (c.toNat - 'A'.toNat)
  else if 'a' ≤ c ∧ c ≤ 'z' then some (c.toNat - 'a'.toNat + 26)
  else if '0' ≤ c ∧ c ≤ '9' then some (c.toNat - '0'.toNat + 52)
  else if c = '-' then some 62
  else if c = '_' then some 63
  else none

/-- The characters that a decoder does not pass over. -/
def significant (c : Char) : Bool := decide (c ≠ '\r' ∧ c ≠ '\n')

theorem value?_digit : ∀ v < 64, value? (digit v) = some v := by decide

theorem significant_digit : ∀ v < 64, significant (digit v) = true := by decide

theorem mapM_value?_digit {vs : List ℕ} (h : ∀ v ∈ vs, v < 64) :
    (vs.map digit).mapM value? = some vs := by
  induction vs with
  | nil => rfl
  | cons v vs ih =>
    obtain ⟨hv, hvs⟩ := List.forall_mem_cons.mp h
    rw [List.map_cons, List.mapM_cons, value?_digit v hv, ih hvs]
    rfl

/-! ## Encoding and decoding -/

/-- `base64.RawURLEncoding.EncodeToString`. -/
def rawURLEncode (bs : List UInt8) : String := String.ofList ((sextets bs).map digit)

/-- `base64.RawURLEncoding.DecodeString`. -/
def rawURLDecode (s : String) : Option (List UInt8) :=
  let cs := s.toList.filter significant
  if cs.length % 4 = 1 then none else (cs.mapM value?).map octets

/-- `base64.URLEncoding.DecodeString`: the last characters are filled up to four with `=`. -/
def urlDecode (s : String) : Option (List UInt8) :=
  let cs := s.toList.filter significant
  let body := cs.takeWhile fun c => c ≠ '='
  if body.length % 4 ≠ 1 ∧
      cs.drop body.length = List.replicate ((4 - body.length % 4) % 4) '=' then
    (body.mapM value?).map octets
  else none

/-- **Round trip.** -/
theorem rawURLDecode_rawURLEncode (bs : List UInt8) :
    rawURLDecode (rawURLEncode bs) = some bs := by
  have hlt := sextets_lt bs
  have hkeep : ((sextets bs).map digit).filter significant = (sextets bs).map digit := by
    refine List.filter_eq_self.mpr fun c hc => ?_
    obtain ⟨v, hv, rfl⟩ := List.mem_map.mp hc
    exact significant_digit v (hlt v hv)
  have hlen : ((sextets bs).map digit).length % 4 ≠ 1 := by
    rw [List.length_map, length_sextets]
    omega
  unfold rawURLDecode rawURLEncode
  rw [String.toList_ofList, hkeep]
  dsimp only
  rw [if_neg hlen, mapM_value?_digit hlt, Option.map_some, octets_sextets]

/-- Four characters for three bytes. -/
theorem length_rawURLEncode (bs : List UInt8) :
    (rawURLEncode bs).toList.length = (4 * bs.length + 2) / 3 := by
  unfold rawURLEncode
  rw [String.toList_ofList, List.length_map, length_sextets]

end Go.Base64
