import Mathlib.Data.List.TakeDrop
import Mathlib.Tactic

set_option relaxedAutoImplicit false
set_option autoImplicit false

/-!
# Runes of arbitrary bytes

A string of the language is any sequence of bytes. Ranging over it, or converting it to `[]rune`,
takes one valid encoding after the other; a byte at which no valid encoding starts counts as one
rune, the replacement character.

## Main definitions

* `Go.decodeRune` — `utf8.DecodeRuneInString`.
* `Go.decodeRunes`, `Go.runes` — `[]rune(s)`, with and without the places of invalid bytes.
* `Go.textOf` — the text that a string stands for.
* `Go.utf8Bytes` — `string(runes)`.

## Main results

* `Go.decodeRunes_utf8Bytes` — the bytes of runes decode to these runes.
* `Go.utf8Bytes_runes` — valid bytes are the bytes of their runes.
* `Go.length_utf8Bytes` — the number of bytes of runes.
-/

namespace Go

/-- `utf8.DecodeRuneInString`: the rune whose encoding starts the bytes, none for an invalid one. -/
def decodeRune (bs : List UInt8) : Option Char := bs.toByteArray.utf8DecodeChar? 0

/-- The runes behind `k` bytes that belong to a rune already. -/
def decodeFrom : ℕ → List UInt8 → List (Option Char)
  | _, [] => []
  | k + 1, _ :: bs => decodeFrom k bs
  | 0, b :: bs =>
    decodeRune (b :: bs) :: decodeFrom ((decodeRune (b :: bs)).elim 0 fun c => c.utf8Size - 1) bs

/-- The runes of a string, none for an invalid byte. -/
def decodeRunes (bs : List UInt8) : List (Option Char) := decodeFrom 0 bs

/-- `[]rune(s)`: an invalid byte is read as the replacement character. -/
def runes (bs : List UInt8) : List Char := (decodeRunes bs).map fun c => c.getD '\uFFFD'

/-- The text of a string, with the replacement character for each invalid byte. -/
def textOf (bs : List UInt8) : String := String.ofList (runes bs)

/-- `string(runes)`. -/
def utf8Bytes (l : List Char) : List UInt8 := l.flatMap String.utf8EncodeChar

/-- `utf8.ValidString`. -/
def validUTF8 (bs : List UInt8) : Bool := (decodeRunes bs).all Option.isSome

theorem utf8Bytes_append (l r : List Char) : utf8Bytes (l ++ r) = utf8Bytes l ++ utf8Bytes r :=
  List.flatMap_append

/-- The number of bytes of runes. -/
theorem length_utf8Bytes (l : List Char) : (utf8Bytes l).length = (l.map Char.utf8Size).sum := by
  induction l with
  | nil => rfl
  | cons c l ih =>
    have hcons : utf8Bytes (c :: l) = String.utf8EncodeChar c ++ utf8Bytes l := List.flatMap_cons
    rw [hcons, List.length_append, String.length_utf8EncodeChar, ih, List.map_cons, List.sum_cons]

/-- An encoded rune is decoded, whatever follows it. -/
theorem decodeRune_utf8EncodeChar (c : Char) (bs : List UInt8) :
    decodeRune (String.utf8EncodeChar c ++ bs) = some c := by
  unfold decodeRune
  rw [List.toByteArray_append]
  exact ByteArray.utf8DecodeChar?_utf8EncodeChar_append

/-- The bytes of a rune that has been decoded are passed over. -/
theorem decodeFrom_append (l bs : List UInt8) : decodeFrom l.length (l ++ bs) = decodeRunes bs := by
  induction l with
  | nil => rfl
  | cons b l ih => exact ih

/-- **Round trip.** The bytes of runes decode to these runes.

**Proof sketch.** By induction on the runes: the first one is decoded from its first byte, and its
other bytes are passed over. -/
theorem decodeRunes_utf8Bytes (l : List Char) : decodeRunes (utf8Bytes l) = l.map some := by
  induction l with
  | nil => rfl
  | cons c l ih =>
    have hlen := String.length_utf8EncodeChar c
    have hpos := c.utf8Size_pos
    have hdec := decodeRune_utf8EncodeChar c (utf8Bytes l)
    have hcons : utf8Bytes (c :: l) = String.utf8EncodeChar c ++ utf8Bytes l := List.flatMap_cons
    rw [hcons]
    cases henc : String.utf8EncodeChar c with
    | nil => rw [henc, List.length_nil] at hlen; omega
    | cons b bs =>
      rw [henc] at hdec hlen
      rw [List.cons_append] at hdec ⊢
      have hskip : c.utf8Size - 1 = bs.length := by
        rw [List.length_cons] at hlen
        omega
      unfold decodeRunes decodeFrom
      rw [hdec, Option.elim_some, hskip, decodeFrom_append, ih]
      rfl

theorem runes_utf8Bytes (l : List Char) : runes (utf8Bytes l) = l := by
  unfold runes
  rw [decodeRunes_utf8Bytes, List.map_map]
  exact List.map_id l

theorem textOf_utf8Bytes (s : String) : textOf (utf8Bytes s.toList) = s := by
  unfold textOf
  rw [runes_utf8Bytes, String.ofList_toList]

theorem validUTF8_utf8Bytes (l : List Char) : validUTF8 (utf8Bytes l) = true := by
  unfold validUTF8
  rw [decodeRunes_utf8Bytes]
  simp

/-- The bytes of a rune that is not ASCII are not ASCII either. -/
theorem toNat_of_mem_utf8EncodeChar {c : Char} {b : UInt8} (h : b ∈ String.utf8EncodeChar c) :
    b.toNat = c.toNat ∧ c.toNat < 128 ∨ 128 ≤ b.toNat := by
  have hval : c.val.toNat = c.toNat := rfl
  have hbyte : ∀ n, n < 256 → (UInt8.ofNat n).toNat = n := fun n hn => by
    rw [UInt8.toNat_ofNat']
    exact Nat.mod_eq_of_lt hn
  have hhigh : ∀ n, 128 ≤ n → n < 256 → 128 ≤ (UInt8.ofNat n).toNat := fun n hle hlt => by
    rw [hbyte n hlt]
    exact hle
  unfold String.utf8EncodeChar at h
  dsimp only at h
  rw [hval] at h
  split_ifs at h with h₁ h₂ h₃
  · obtain rfl := List.mem_singleton.mp h
    exact Or.inl ⟨hbyte _ (by omega), by omega⟩
  · simp only [List.mem_cons, List.not_mem_nil, or_false] at h
    rcases h with rfl | rfl <;> exact Or.inr (hhigh _ (by omega) (by omega))
  · simp only [List.mem_cons, List.not_mem_nil, or_false] at h
    rcases h with rfl | rfl | rfl <;> exact Or.inr (hhigh _ (by omega) (by omega))
  · simp only [List.mem_cons, List.not_mem_nil, or_false] at h
    rcases h with rfl | rfl | rfl | rfl <;> exact Or.inr (hhigh _ (by omega) (by omega))

/-- The bytes of an ASCII character. -/
theorem utf8EncodeChar_of_ascii {c : Char} (h : c.toNat < 128) :
    String.utf8EncodeChar c = [UInt8.ofNat c.toNat] := by
  have hval : c.val.toNat = c.toNat := rfl
  unfold String.utf8EncodeChar
  dsimp only
  rw [hval, if_pos (by omega)]

/-- What was decoded stands in front of the bytes. -/
theorem eq_append_of_decodeRune {bs : List UInt8} {c : Char} (h : decodeRune bs = some c) :
    ∃ rest, bs = String.utf8EncodeChar c ++ rest := by
  have henc := String.toByteArray_utf8EncodeChar_of_utf8DecodeChar?_eq_some h
  refine ⟨bs.drop c.utf8Size, ?_⟩
  have hdata := congrArg ByteArray.data henc
  rw [List.data_toByteArray, ByteArray.data_extract, List.data_toByteArray, List.extract_toArray]
    at hdata
  rw [List.toArray_inj hdata, List.extract_eq_take_drop, List.drop_zero, Nat.sub_zero,
    List.take_append_drop]

/-- **Valid UTF-8** is the bytes of its runes.

**Proof sketch.** By induction on the length: a rune that is decoded is encoded by the bytes that it
was decoded from. -/
theorem utf8Bytes_runes {bs : List UInt8} (h : validUTF8 bs = true) :
    utf8Bytes (runes bs) = bs := by
  induction hlen : bs.length using Nat.strong_induction_on generalizing bs with
  | _ n ih =>
    cases bs with
    | nil => rfl
    | cons b bs =>
      unfold validUTF8 decodeRunes decodeFrom at h
      rw [List.all_cons, Bool.and_eq_true] at h
      obtain ⟨c, hc⟩ := Option.isSome_iff_exists.mp h.1
      obtain ⟨rest, heq⟩ := eq_append_of_decodeRune hc
      have hpos := c.utf8Size_pos
      have hsize := String.length_utf8EncodeChar c
      have hskip : decodeFrom (c.utf8Size - 1) bs = decodeRunes rest := by
        cases henc : String.utf8EncodeChar c with
        | nil =>
          rw [henc, List.length_nil] at hsize
          omega
        | cons b' tail =>
          rw [henc, List.cons_append] at heq
          rw [henc, List.length_cons] at hsize
          have htail : c.utf8Size - 1 = tail.length := by omega
          rw [(List.cons.inj heq).2, htail, decodeFrom_append]
      have hrunes : runes (b :: bs) = c :: runes rest := by
        unfold runes
        rw [decodeRunes, decodeFrom, hc, Option.elim_some, hskip]
        rfl
      have hvalid : validUTF8 rest = true := by
        have htail := h.2
        rw [hc, Option.elim_some, hskip] at htail
        exact htail
      have hshort : rest.length < n := by
        rw [← hlen, heq, List.length_append, hsize]
        omega
      have hcons :
          utf8Bytes (c :: runes rest) = String.utf8EncodeChar c ++ utf8Bytes (runes rest) :=
        List.flatMap_cons
      rw [hrunes, hcons, ih _ hshort hvalid rfl, ← heq]

theorem utf8Bytes_textOf {bs : List UInt8} (h : validUTF8 bs = true) :
    utf8Bytes (textOf bs).toList = bs := by
  unfold textOf
  rw [String.toList_ofList, utf8Bytes_runes h]

/-- Every rune takes a byte. -/
theorem runes_eq_nil_iff {bs : List UInt8} : runes bs = [] ↔ bs = [] := by
  unfold runes decodeRunes
  cases bs <;> simp [decodeFrom]

example : runes [0x41, 0xff, 0xe2, 0x82, 0xac, 0xe2, 0x82] =
    ['A', '\uFFFD', '€', '\uFFFD', '\uFFFD'] := by
  decide

end Go
