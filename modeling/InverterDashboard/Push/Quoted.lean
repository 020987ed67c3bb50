import InverterDashboard.Go.Spelled
import InverterDashboard.Push.Bytes

set_option relaxedAutoImplicit false
set_option autoImplicit false

/-!
# Marshalled texts are read back

`json.Marshal` escapes more characters than an encoder with `SetEscapeHTML(false)`: those of HTML.
What it writes is read as it was all the same.

## Main definitions

* `Push.marshalText` — the text that `json.Marshal` writes for a tree.

## Main results

* `Push.escapes_jsonChar` — a character is read as it is written.
* `Push.parseJson_marshalText` — so is a tree.
-/

namespace Push

open Go (Json Number escapeRune ReadsAs utf8Bytes parseJson)

/-! ## Strings -/

/-- The two encoders differ in the characters of HTML. -/
theorem toList_jsonChar {c : Char} (h : c ∉ ['<', '>', '&']) :
    (jsonChar c).toList = escapeRune c := by
  unfold jsonChar escapeRune
  by_cases hquote : c = '"'
  · rw [if_pos hquote, if_pos hquote]
    decide
  by_cases hslash : c = '\\'
  · rw [if_neg hquote, if_pos hslash, if_neg hquote, if_pos hslash]
    decide
  rw [if_neg hquote, if_neg hslash, if_neg hquote, if_neg hslash]
  by_cases hcontrol : c.toNat < 0x20
  · have hlt : ∀ n < 0x20, (if n = 0x08 then "\\b"
        else if n = 0x09 then "\\t"
        else if n = 0x0a then "\\n"
        else if n = 0x0c then "\\f"
        else if n = 0x0d then "\\r"
        else "\\u00" ++ String.ofList [Nat.digitChar (n / 16), Nat.digitChar (n % 16)]).toList =
          (if n = 0x08 then ['\\', 'b']
          else if n = 0x0C then ['\\', 'f']
          else if n = 0x0A then ['\\', 'n']
          else if n = 0x0D then ['\\', 'r']
          else if n = 0x09 then ['\\', 't']
          else ['\\', 'u', Nat.digitChar (n / 4096), Nat.digitChar (n / 256 % 16),
            Nat.digitChar (n / 16 % 16), Nat.digitChar (n % 16)]) := by decide
    have := hlt c.toNat hcontrol
    rw [if_pos (Or.inl hcontrol : c.toNat < 0x20 ∨ c ∈ ['<', '>', '&']), if_pos (Or.inl hcontrol)]
    exact this
  · have hne : ∀ n < 0x20, c.toNat ≠ n := fun n hn heq => hcontrol (heq ▸ hn)
    rw [if_neg (hne 0x08 (by decide)), if_neg (hne 0x09 (by decide)), if_neg (hne 0x0a (by decide)),
      if_neg (hne 0x0c (by decide)), if_neg (hne 0x0d (by decide)),
      if_neg (not_or.mpr ⟨hcontrol, h⟩), if_neg (hne 0x08 (by decide)),
      if_neg (hne 0x0C (by decide)), if_neg (hne 0x0A (by decide)),
      if_neg (hne 0x0D (by decide)), if_neg (hne 0x09 (by decide))]
    by_cases hline : c.toNat = 0x2028
    · rw [if_pos hline, if_pos (Or.inr (Or.inl hline)), hline]
      decide
    by_cases hparagraph : c.toNat = 0x2029
    · rw [if_neg hline, if_pos hparagraph, if_pos (Or.inr (Or.inr hparagraph)), hparagraph]
      decide
    · rw [if_neg hline, if_neg hparagraph,
        if_neg (not_or.mpr ⟨hcontrol, not_or.mpr ⟨hline, hparagraph⟩⟩)]
      exact String.toList_singleton c

/-- A character is read as the server writes it. -/
theorem escapes_jsonChar : Go.Escapes fun c => (jsonChar c).toList := by
  intro c cs
  by_cases h : c ∈ ['<', '>', '&']
  · have hhex : (jsonChar c).toList = ['\\', 'u', Nat.digitChar (c.toNat / 4096),
        Nat.digitChar (c.toNat / 256 % 16), Nat.digitChar (c.toNat / 16 % 16),
        Nat.digitChar (c.toNat % 16)] ∧ c.toNat < 0xD800 := by
      simp only [List.mem_cons, List.not_mem_nil, or_false] at h
      rcases h with rfl | rfl | rfl <;> decide
    dsimp only
    rw [hhex.1]
    exact Go.readString_hex hhex.2 cs
  · dsimp only
    rw [toList_jsonChar h]
    exact Go.readString_escapeRune c cs

/-- The characters of a string between its quotes. -/
theorem toList_jsonQuote (s : String) :
    (jsonQuote s).toList = '"' :: (s.toList.flatMap (fun c => (jsonChar c).toList) ++ ['"']) := by
  unfold jsonQuote
  rw [String.toList_append, String.toList_append, String.toList_join, List.flatMap_map]
  rfl

/-- A string is read as the server writes it. -/
theorem readsAs_jsonQuote (s : String) : ReadsAs (jsonQuote s).toList (.str s) := by
  rw [toList_jsonQuote]
  exact Go.readsAs_str (escapes_jsonChar.spells s)

/-- The literal of an integer is the text of the integer. -/
theorem text_ofInt (n : ℤ) : (Number.ofInt n).text = (toString n).toList := by
  unfold Number.text Number.ofInt
  cases n with
  | ofNat m =>
    have hm : (toString (Int.ofNat m)).toList = Nat.toDigits 10 m := Nat.toList_repr
    rw [hm]
    simp [Number.fracText, Number.expText]
  | negSucc m =>
    have hm : toString (Int.negSucc m) = "-" ++ toString (m + 1) := rfl
    have hdigits : (toString (m + 1)).toList = Nat.toDigits 10 (m + 1) := Nat.toList_repr
    rw [hm, String.toList_append, hdigits]
    simp [Number.fracText, Number.expText]

/-- An integer is read as it is written. -/
theorem readsAs_toString (n : ℤ) : ReadsAs (toString n).toList (.num (Number.ofInt n)) := by
  have htext : (Json.num (Number.ofInt n)).text = (toString n).toList := text_ofInt n
  exact htext ▸ Go.readsAs_text _

/-! ## Trees -/

/-- The text that `json.Marshal` writes for a tree. -/
def marshalText (j : Json) : List Char := j.spell fun c => (jsonChar c).toList

/-- **Round trip.** The bytes of a marshalled tree are a text of this tree. -/
theorem parseJson_marshalText {j : Json} (h : j.depth ≤ Go.maxNestingDepth) :
    parseJson (utf8Bytes (marshalText j)) = some j :=
  (Go.readsAs_spell escapes_jsonChar j).parseJson h

end Push
