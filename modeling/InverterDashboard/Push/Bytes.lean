import InverterDashboard.Go.Utf8
import InverterDashboard.Push.Durable

set_option relaxedAutoImplicit false
set_option autoImplicit false

/-!
# Payloads of arbitrary texts

`makePayload` on identifiers, titles and bodies that are any bytes, and the bytes of an encoded
payload. Three limits meet here: runes of the title and the body, bytes of UTF-8, and bytes of
escaped JSON.

## Main definitions

* `Push.jsonQuote`, `Push.Payload.marshal` — `json.Marshal` of a payload.
* `Push.makePayloadBytes` — `makePayload` on any bytes.
* `Push.payloadPairs` — the kinds and the sources of the payloads that the package makes.
* `Push.Payload.KeepsText` — as little text as possible is lost.

## Main results

* `Push.Payload.length_marshal` — the length of an encoded payload.
* `Push.makePayloadBytes_utf8` — on valid UTF-8 this is `makePayload`.
* `Push.stored_makePayloadBytes` — what is made may be stored and keeps its text.
-/

namespace Push

open Go (utf8Bytes runes decodeRunes)

/-! ## The bytes of a payload -/

/-- A character inside a string that `json.Marshal` writes. -/
def jsonChar (c : Char) : String :=
  if c = '"' then "\\\""
  else if c = '\\' then "\\\\"
  else if c.toNat = 0x08 then "\\b"
  else if c.toNat = 0x09 then "\\t"
  else if c.toNat = 0x0a then "\\n"
  else if c.toNat = 0x0c then "\\f"
  else if c.toNat = 0x0d then "\\r"
  else if c.toNat < 0x20 ∨ c ∈ ['<', '>', '&'] then
    "\\u00" ++ String.ofList [Nat.digitChar (c.toNat / 16), Nat.digitChar (c.toNat % 16)]
  else if c.toNat = 0x2028 then "\\u2028"
  else if c.toNat = 0x2029 then "\\u2029"
  else c.toString

/-- A string that `json.Marshal` writes. -/
def jsonQuote (s : String) : String := "\"" ++ String.join (s.toList.map jsonChar) ++ "\""

namespace Payload

/-- The text of `json.Marshal(payload)`. -/
def text (p : Payload) : String :=
  "\x7b\"schemaVersion\":" ++ toString p.schemaVersion ++ ",\"eventKey\":" ++
  jsonQuote p.eventKey ++
    ",\"kind\":" ++ jsonQuote p.kind ++ ",\"source\":" ++ jsonQuote p.source ++
    ",\"sourceTimestampMs\":" ++ toString p.sourceTimestampMS ++ ",\"observedAtMs\":" ++
    toString p.observedAtMS ++ ",\"title\":" ++ jsonQuote p.title ++ ",\"body\":" ++
    jsonQuote p.body ++ ",\"url\":" ++ jsonQuote p.url ++ "\x7d"

/-- `json.Marshal(payload)`. -/
def marshal (p : Payload) : List UInt8 := utf8Bytes p.text.toList

end Payload

/-- The number of bytes of a string. -/
def byteLength (s : String) : ℕ := (utf8Bytes s.toList).length

theorem byteLength_append (s t : String) : byteLength (s ++ t) = byteLength s + byteLength t := by
  unfold byteLength
  rw [String.toList_append, Go.utf8Bytes_append, List.length_append]

/-- The bytes of a string of ASCII characters. -/
theorem byteLength_of_ascii {s : String} (h : ∀ c ∈ s.toList, c.utf8Size = 1) :
    byteLength s = s.length := by
  unfold byteLength
  rw [Go.length_utf8Bytes, List.map_congr_left h, List.map_const', List.sum_replicate,
    smul_eq_mul, mul_one, String.length_toList]

theorem utf8Size_of_isDigit {c : Char} (h : c.isDigit = true) : c.utf8Size = 1 := by
  have hle : c.val ≤ 57 := by
    simp only [Char.isDigit, Bool.and_eq_true, decide_eq_true_eq] at h
    exact h.2
  have hascii : (57 : UInt32) ≤ 127 := by decide
  exact Char.utf8Size_eq_one_iff.mpr (UInt32.le_trans hle hascii)

/-- The bytes of an integer. -/
theorem byteLength_toString (n : ℤ) : byteLength (toString n) = jsonIntSize n := by
  have hnat : ∀ m : ℕ, ∀ c ∈ (toString m).toList, c.utf8Size = 1 := by
    intro m c hc
    have hlist : (toString m).toList = Nat.toDigits 10 m := Nat.toList_repr
    rw [hlist] at hc
    exact utf8Size_of_isDigit (Nat.isDigit_of_mem_toDigits (by decide) (le_refl 10) hc)
  refine byteLength_of_ascii fun c hc => ?_
  cases n with
  | ofNat m => exact hnat m c hc
  | negSucc m =>
    have htext : toString (Int.negSucc m) = "-" ++ toString (m + 1) := rfl
    rw [htext, String.toList_append] at hc
    rcases List.mem_append.mp hc with hc | hc
    · have hminus : c = '-' := by simpa using hc
      rw [hminus]
      decide
    · exact hnat (m + 1) c hc

theorem byteLength_jsonChar (c : Char) : byteLength (jsonChar c) = jsonCharSize c := by
  have hhex : ∀ m : ℕ, m < 16 → (Nat.digitChar m).utf8Size = 1 := by decide
  have hescape : c.toNat < 128 → byteLength
      ("\\u00" ++ String.ofList [Nat.digitChar (c.toNat / 16), Nat.digitChar (c.toNat % 16)]) =
      6 := by
    intro hlt
    have hconst : byteLength "\\u00" = 4 := by decide
    rw [byteLength_append, hconst]
    unfold byteLength
    rw [String.toList_ofList, Go.length_utf8Bytes]
    simp [hhex (c.toNat / 16) (by omega), hhex (c.toNat % 16) (by omega)]
  unfold jsonChar jsonCharSize
  by_cases hquote : c = '"'
  · rw [if_pos hquote, if_pos (Or.inl hquote)]
    decide
  by_cases hslash : c = '\\'
  · rw [if_neg hquote, if_pos hslash, if_pos (Or.inr hslash)]
    decide
  have hplain : ¬(c = '"' ∨ c = '\\') := not_or.mpr ⟨hquote, hslash⟩
  rw [if_neg hquote, if_neg hslash, if_neg hplain]
  by_cases hshort : c.toNat ∈ [0x08, 0x09, 0x0a, 0x0c, 0x0d]
  · have hlt : c.toNat < 0x20 := by
      simp only [List.mem_cons, List.not_mem_nil, or_false] at hshort
      omega
    rw [if_pos hlt, if_pos hshort]
    simp only [List.mem_cons, List.not_mem_nil, or_false] at hshort
    rcases hshort with h | h | h | h | h <;> simp [h] <;> decide
  · have hne : ¬c.toNat = 0x08 ∧ ¬c.toNat = 0x09 ∧ ¬c.toNat = 0x0a ∧ ¬c.toNat = 0x0c ∧
        ¬c.toNat = 0x0d := by
      simpa only [List.mem_cons, List.not_mem_nil, or_false, not_or] using hshort
    rw [if_neg hne.1, if_neg hne.2.1, if_neg hne.2.2.1, if_neg hne.2.2.2.1, if_neg hne.2.2.2.2]
    by_cases hlow : c.toNat < 0x20
    · rw [if_pos (Or.inl hlow), if_pos hlow, if_neg hshort]
      exact hescape (by omega)
    · rw [if_neg hlow]
      by_cases hhtml : c ∈ ['<', '>', '&']
      · rw [if_pos (Or.inr hhtml), if_pos (Or.inl hhtml)]
        refine hescape ?_
        simp only [List.mem_cons, List.not_mem_nil, or_false] at hhtml
        rcases hhtml with rfl | rfl | rfl <;> decide
      · rw [if_neg (by simp [hlow, hhtml])]
        by_cases hls : c.toNat = 0x2028
        · rw [if_pos hls, if_pos (Or.inr (Or.inl hls))]
          decide
        · rw [if_neg hls]
          by_cases hps : c.toNat = 0x2029
          · rw [if_pos hps, if_pos (Or.inr (Or.inr hps))]
            decide
          · rw [if_neg hps, if_neg (by simp [hhtml, hls, hps])]
            unfold byteLength
            rw [Go.length_utf8Bytes]
            simp

theorem byteLength_jsonQuote (s : String) : byteLength (jsonQuote s) = jsonStringSize s := by
  have hjoin : ∀ l : List Char,
      byteLength (String.join (l.map jsonChar)) = (l.map jsonCharSize).sum := by
    intro l
    induction l with
    | nil => rfl
    | cons c l ih =>
      rw [List.map_cons, String.join_cons, byteLength_append, byteLength_jsonChar, ih,
        List.map_cons, List.sum_cons]
  have hmark : byteLength "\"" = 1 := by decide
  unfold jsonQuote jsonStringSize
  rw [byteLength_append, byteLength_append, hjoin, hmark]
  omega

/-- **The length of an encoded payload.** -/
theorem Payload.length_marshal (p : Payload) : p.marshal.length = p.size := by
  have hframe : byteLength "\x7b\"schemaVersion\":" + byteLength ",\"eventKey\":" +
      byteLength ",\"kind\":" + byteLength ",\"source\":" + byteLength ",\"sourceTimestampMs\":" +
      byteLength ",\"observedAtMs\":" + byteLength ",\"title\":" + byteLength ",\"body\":" +
      byteLength ",\"url\":" + byteLength "\x7d" = Payload.frame.length := by decide
  show byteLength p.text = p.size
  unfold Payload.text Payload.size
  simp only [byteLength_append, byteLength_jsonQuote, byteLength_toString]
  omega

/-! ## Any bytes -/

/-- `boundedText` on any bytes. -/
def boundedBytes (text : List UInt8) (limit : ℕ) : String := String.ofList ((runes text).take limit)

/-- A character of a string in compact JSON. -/
def compactChar (c : Char) : String :=
  if c = '"' then "\\\""
  else if c = '\\' then "\\\\"
  else if c.toNat = 0x08 then "\\b"
  else if c.toNat = 0x09 then "\\t"
  else if c.toNat = 0x0a then "\\n"
  else if c.toNat = 0x0c then "\\f"
  else if c.toNat = 0x0d then "\\r"
  else if c.toNat < 0x20 then
    "\\u00" ++ String.ofList [Nat.digitChar (c.toNat / 16), Nat.digitChar (c.toNat % 16)]
  else c.toString

/-- Bytes in compact JSON: the encoder writes an invalid byte as an escaped replacement character.
-/
def compactQuoteBytes (bs : List UInt8) : String :=
  "\"" ++ String.join ((decodeRunes bs).map fun c => c.elim "\\ufffd" compactChar) ++ "\""

/-- `eventKey` on any bytes. -/
def eventKeyBytes (L : Libs) (kind source : String) (id : List UInt8) (timestamp : ℤ) : String :=
  L.sha256 ("[" ++ compactQuote kind ++ "," ++ compactQuote source ++ "," ++ compactQuoteBytes id ++
    "," ++ toString timestamp ++ "]")

/-- `makePayload` on any bytes. -/
def makePayloadBytes (L : Libs) (kind source : String) (id title body : List UInt8)
    (occurred observed : Instant) : Payload :=
  let title := boundedBytes title 120
  let runes := (boundedBytes body 1000).toList
  fitBody
    { schemaVersion := 1
      eventKey := eventKeyBytes L kind source id (unixMilli occurred)
      kind := kind
      source := source
      sourceTimestampMS := unixMilli occurred
      observedAtMS := unixMilli observed
      title := if title = "" then "Notification" else title
      body := ""
      url := "/" } runes runes.length

theorem compactQuoteBytes_utf8 (s : String) :
    compactQuoteBytes (utf8Bytes s.toList) = compactQuote s := by
  unfold compactQuoteBytes
  rw [Go.decodeRunes_utf8Bytes, List.map_map]
  rfl

theorem boundedBytes_utf8 (s : String) (limit : ℕ) :
    boundedBytes (utf8Bytes s.toList) limit = boundedText s limit := by
  unfold boundedBytes boundedText
  rw [Go.runes_utf8Bytes]

/-- **Valid UTF-8.** On the bytes of strings this is `makePayload`. -/
theorem makePayloadBytes_utf8 (L : Libs) (kind source id title body : String)
    (occurred observed : Instant) :
    makePayloadBytes L kind source (utf8Bytes id.toList) (utf8Bytes title.toList)
      (utf8Bytes body.toList) occurred observed =
      makePayload L kind source id title body occurred observed := by
  unfold makePayloadBytes makePayload eventKeyBytes eventKey
  rw [boundedBytes_utf8, boundedBytes_utf8, compactQuoteBytes_utf8]

/-! ## The longest body -/

/-- The kinds and the sources of the payloads that the processor and `QueueTest` make. -/
def payloadPairs : List (String × String) :=
  [("native", "victron"), ("native", "system"), ("ev", "victron"), ("water", "victron"),
    ("lowBattery", "victron"), ("test", "system")]

/-- A payload keeps as much of a title and of a body as it may: the first 120 runes of the title, or
the default, and the longest prefix of the first 1000 runes of the body with which it fits. Both are
valid UTF-8. -/
structure Payload.KeepsText (p : Payload) (title body : List UInt8) : Prop where
  validTitle : Go.validUTF8 (utf8Bytes p.title.toList) = true
  validBody : Go.validUTF8 (utf8Bytes p.body.toList) = true
  bounded : p.title = if title = [] then "Notification" else String.ofList ((runes title).take 120)
  start : p.body.toList <+: (runes body).take 1000
  longest : ∀ l, l <+: (runes body).take 1000 →
    ({ p with body := String.ofList l } : Payload).marshal.length ≤ maxPayloadBytes →
    l.length ≤ p.body.toList.length

theorem title_eq (title : List UInt8) :
    (if boundedBytes title 120 = "" then "Notification" else boundedBytes title 120) =
      if title = [] then "Notification" else String.ofList ((runes title).take 120) := by
  have hiff : boundedBytes title 120 = "" ↔ title = [] := by
    unfold boundedBytes
    rw [← String.toList_inj, String.toList_ofList, String.toList_empty, List.take_eq_nil_iff,
      Go.runes_eq_nil_iff]
    simp
  unfold boundedBytes at hiff ⊢
  simp only [hiff]

/-- The title of a payload is neither empty nor long. -/
theorem title_bounds_bytes (title : List UInt8) :
    (if boundedBytes title 120 = "" then "Notification"
      else boundedBytes title 120).toList.length ≠ 0 ∧
      (if boundedBytes title 120 = "" then "Notification"
        else boundedBytes title 120).toList.length ≤ 120 := by
  rw [title_eq]
  split_ifs with hnil
  · decide
  · rw [String.toList_ofList, List.length_take]
    have hpos : (runes title).length ≠ 0 := by
      rw [ne_eq, List.length_eq_zero_iff, Go.runes_eq_nil_iff]
      exact hnil
    omega

/-- The loop keeps the title and the longest body that fits. -/
theorem keepsText_fitBody {p : Payload} {title body : List UInt8} {limited : List Char}
    (htitle : p.title =
      if title = [] then "Notification" else String.ofList ((runes title).take 120))
    (hlimit : limited = (runes body).take 1000) :
    (fitBody p limited limited.length).KeepsText title body := by
  obtain ⟨m, hm, heq, -, hlong⟩ := fitBody_longest p limited limited.length
  have hlen : (limited.take m).length = m := by
    rw [List.length_take]
    omega
  rw [heq]
  refine ⟨Go.validUTF8_utf8Bytes _, Go.validUTF8_utf8Bytes _, htitle, ?_, ?_⟩
  · rw [String.toList_ofList, ← hlimit]
    exact List.take_prefix m _
  · intro l hl hfit
    rw [String.toList_ofList, hlen]
    by_contra hlt
    have hle := hl.length_le
    rw [← hlimit] at hl hle
    have htake : limited.take l.length = l := (List.prefix_iff_eq_take.mp hl).symm
    have hover := hlong l.length (not_le.mp hlt) hle
    rw [htake] at hover
    rw [Payload.length_marshal] at hfit
    exact absurd hfit (not_le.mpr hover)

/-- **Every payload may be stored and keeps its text.** -/
theorem stored_makePayloadBytes (L : Libs) {kind source : String}
    (hpair : (kind, source) ∈ payloadPairs) {occurred observed : Instant}
    (hocc : AfterEpoch occurred) (hobs : AfterEpoch observed) (id title body : List UInt8) :
    (makePayloadBytes L kind source id title body occurred observed).persistedValid = true ∧
      (makePayloadBytes L kind source id title body occurred observed).marshal.length ≤
        maxPayloadBytes ∧
      (makePayloadBytes L kind source id title body occurred observed).KeepsText title body := by
  have hpairs : ∀ e ∈ payloadPairs, e.1 ∈ kinds ∧ (e.2 = "victron" ∨ e.2 = "system") ∧
      (e.1 = "test" → e.2 = "system") := by decide
  obtain ⟨hkind, hsource, htest⟩ := hpairs _ hpair
  have hlimit : (boundedBytes body 1000).toList = (runes body).take 1000 := String.toList_ofList
  have hfits : Payload.Fits
      { schemaVersion := 1
        eventKey := eventKeyBytes L kind source id (unixMilli occurred)
        kind := kind
        source := source
        sourceTimestampMS := unixMilli occurred
        observedAtMS := unixMilli observed
        title := if boundedBytes title 120 = "" then "Notification" else boundedBytes title 120
        body := ""
        url := "/" } :=
    ⟨rfl, L.digest _, hkind, hsource, htest, hocc.bounds, hobs.bounds, title_bounds_bytes title,
      rfl⟩
  unfold makePayloadBytes
  dsimp only
  refine ⟨hfits.persistedValid_fitBody rfl ?_, ?_, keepsText_fitBody (title_eq title) hlimit⟩
  · rw [hlimit]
    exact List.length_take_le _ _
  · rw [Payload.length_marshal]
    exact size_fitBody_le rfl (hfits.size_le rfl) _ _

/-- A title that is no valid UTF-8, and a body of control characters. -/
theorem stored_makePayloadBytes_invalid :
    (makePayloadBytes Service.sampleLibs "native" "victron" (utf8Bytes "alarm-1".toList)
    [0x41, 0xff]
        (List.replicate 4000 0x01) Service.sampleNow Service.sampleNow).persistedValid = true ∧
      (makePayloadBytes Service.sampleLibs "native" "victron" (utf8Bytes "alarm-1".toList)
      [0x41, 0xff]
        (List.replicate 4000 0x01) Service.sampleNow Service.sampleNow).marshal.length ≤
          maxPayloadBytes ∧
      (makePayloadBytes Service.sampleLibs "native" "victron" (utf8Bytes "alarm-1".toList)
      [0x41, 0xff]
        (List.replicate 4000 0x01) Service.sampleNow Service.sampleNow).KeepsText [0x41, 0xff]
          (List.replicate 4000 0x01) :=
  stored_makePayloadBytes Service.sampleLibs (by decide) (by decide) (by decide) _ _ _

end Push
