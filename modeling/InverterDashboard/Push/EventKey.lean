import InverterDashboard.Go.JsonText
import InverterDashboard.Push.Bytes

set_option relaxedAutoImplicit false
set_option autoImplicit false

/-!
# The bytes under an event key

`eventKey` encodes an array without HTML escapes and takes back the two escapes that the encoder
makes nevertheless, those of U+2028 and U+2029. It does so on the bytes, where an escaped backslash
may stand in front of the same letters. What is hashed then is compact JSON, as other
implementations write it.

## Main definitions

* `Push.encodeEvent` — what `enc.Encode` writes.
* `Push.compactUTF8JSON`, `Push.hashedBytes` — the post-processor, and what is hashed.
* `Push.compactEvent` — the array in compact JSON.
* `Push.eventArray` — the array as a tree.

## Main results

* `Push.compacts_escapeRune` — character by character, the post-processor turns what the encoder
  writes into compact JSON.
* `Push.hashedBytes_eq` — what is hashed is the array in compact JSON.
* `Push.eventKeyBytes_eq` — this is what `eventKeyBytes` hashes.
* `Push.hashedBytes_canonical` — it decodes to the array, and valid texts are not confused.
-/

namespace Push

open Go (utf8Bytes runes decodeRunes textOf escapeRune Json)

/-! ## The functions -/

/-- A rune inside a string, as the encoder writes it after `SetEscapeHTML(false)`; none is an
invalid byte. -/
def encodeRune (c : Option Char) : List Char := c.elim "\\ufffd".toList escapeRune

/-- A string that the encoder writes. -/
def encodeQuote (bs : List UInt8) : List Char :=
  '"' :: ((decodeRunes bs).flatMap encodeRune ++ ['"'])

/-- `enc.Encode([]any{kind, source, id, timestamp})`. -/
def encodeEvent (kind source id : List UInt8) (timestamp : ℤ) : List UInt8 :=
  utf8Bytes ('[' :: (encodeQuote kind ++ ',' :: (encodeQuote source ++ ',' :: (encodeQuote id ++
    ',' :: ((toString timestamp).toList ++ [']', '\n'])))))

/-- The loop of `compactUTF8JSON`, in front of which `k` bytes are taken already. -/
def compactFrom : ℕ → List UInt8 → List UInt8
  | _, [] => []
  | k + 1, _ :: bs => compactFrom k bs
  | 0, b :: bs =>
    match bs with
    | [] => [b]
    | next :: _ =>
      if b = 0x5c then
        if (b :: bs).take 6 = utf8Bytes "\\u2028".toList then
          utf8Bytes ['\u2028'] ++ compactFrom 5 bs
        else if (b :: bs).take 6 = utf8Bytes "\\u2029".toList then
          utf8Bytes ['\u2029'] ++ compactFrom 5 bs
        else b :: next :: compactFrom 1 bs
      else b :: compactFrom 0 bs

/-- `compactUTF8JSON`. -/
def compactUTF8JSON (raw : List UInt8) : List UInt8 := compactFrom 0 raw

/-- `bytes.TrimSuffix(raw, []byte("\n"))`. -/
def trimNewline (raw : List UInt8) : List UInt8 :=
  if raw.getLast? = some 0x0a then raw.dropLast else raw

/-- What `eventKey` hashes. -/
def hashedBytes (kind source id : List UInt8) (timestamp : ℤ) : List UInt8 :=
  compactUTF8JSON (trimNewline (encodeEvent kind source id timestamp))

/-- The array in compact JSON. -/
def compactEvent (kind source id : List UInt8) (timestamp : ℤ) : String :=
  "[" ++ compactQuoteBytes kind ++ "," ++ compactQuoteBytes source ++ "," ++ compactQuoteBytes id ++
    "," ++ toString timestamp ++ "]"

/-- The array as a tree. -/
def eventArray (kind source id : String) (timestamp : ℤ) : Json :=
  .arr [.str kind, .str source, .str id, .num (Go.Number.ofInt timestamp)]

example : hashedBytes (utf8Bytes "native".toList) (utf8Bytes "victron".toList)
    (utf8Bytes "\\u2028\u2028<\"\n".toList) (-5) =
    utf8Bytes "[\"native\",\"victron\",\"\\\\u2028\u2028<\\\"\\n\",-5]".toList := by
  decide

/-! ## The post-processor, byte by byte -/

/-- The bytes of the two escapes. -/
theorem utf8Bytes_escapes :
    utf8Bytes "\\u2028".toList = [0x5c, 0x75, 0x32, 0x30, 0x32, 0x38] ∧
      utf8Bytes "\\u2029".toList = [0x5c, 0x75, 0x32, 0x30, 0x32, 0x39] := by
  decide

/-- Different ASCII characters have different bytes. -/
theorem ofNat_toNat_ne {c d : Char} (hc : c.toNat < 128) (hd : d.toNat < 128) (h : c ≠ d) :
    UInt8.ofNat c.toNat ≠ UInt8.ofNat d.toNat := by
  intro heq
  have hnat := congrArg UInt8.toNat heq
  rw [UInt8.toNat_ofNat', UInt8.toNat_ofNat', Nat.mod_eq_of_lt (by omega),
    Nat.mod_eq_of_lt (by omega)] at hnat
  refine h ?_
  rw [← Char.ofNat_toNat c, ← Char.ofNat_toNat d, hnat]

theorem compactFrom_append (l rest : List UInt8) :
    compactFrom l.length (l ++ rest) = compactFrom 0 rest := by
  induction l with
  | nil => rfl
  | cons b l ih => exact ih

/-- Bytes without a backslash are copied. -/
theorem compactFrom_plain {l : List UInt8} (h : ∀ b ∈ l, b ≠ 0x5c) (rest : List UInt8) :
    compactFrom 0 (l ++ rest) = l ++ compactFrom 0 rest := by
  induction l with
  | nil => rfl
  | cons b l ih =>
    have hb := h b List.mem_cons_self
    have hl := ih fun b' hb' => h b' (List.mem_cons_of_mem b hb')
    rw [List.cons_append, List.cons_append, ← hl]
    cases l ++ rest with
    | nil => rfl
    | cons next tail => rw [compactFrom, if_neg hb]

/-- A backslash takes the byte behind it along, unless one of the two escapes begins. -/
theorem compactFrom_escape {next : UInt8} {rest : List UInt8}
    (hline : (0x5c :: next :: rest).take 6 ≠ utf8Bytes "\\u2028".toList)
    (hparagraph : (0x5c :: next :: rest).take 6 ≠ utf8Bytes "\\u2029".toList) :
    compactFrom 0 (0x5c :: next :: rest) = 0x5c :: next :: compactFrom 0 rest := by
  have hskip : compactFrom 1 (next :: rest) = compactFrom 0 rest := compactFrom_append [next] rest
  rw [compactFrom, if_pos rfl, if_neg hline, if_neg hparagraph, hskip]

/-! ## The post-processor, character by character -/

/-- The post-processor turns written characters into compact ones, whatever follows. -/
def Compacts (written compact : List Char) : Prop :=
  ∀ rest, compactFrom 0 (utf8Bytes written ++ rest) = utf8Bytes compact ++ compactFrom 0 rest

theorem Compacts.nil : Compacts [] [] := fun _ => rfl

theorem Compacts.append {w w' c c' : List Char} (h : Compacts w c) (h' : Compacts w' c') :
    Compacts (w ++ w') (c ++ c') := by
  intro rest
  rw [Go.utf8Bytes_append, Go.utf8Bytes_append, List.append_assoc, List.append_assoc, h, h']

theorem Compacts.flatMap {α : Type} {w c : α → List Char} {l : List α}
    (h : ∀ a ∈ l, Compacts (w a) (c a)) : Compacts (l.flatMap w) (l.flatMap c) := by
  induction l with
  | nil => exact .nil
  | cons a l ih =>
    rw [List.flatMap_cons, List.flatMap_cons]
    exact (h a List.mem_cons_self).append (ih fun a' ha' => h a' (List.mem_cons_of_mem a ha'))

/-- Characters other than a backslash have no byte of a backslash. -/
theorem Compacts.plain {l : List Char} (h : '\\' ∉ l) : Compacts l l := by
  refine fun rest => compactFrom_plain (fun b hb => ?_) rest
  obtain ⟨c, hc, hmem⟩ := List.mem_flatMap.mp hb
  rintro rfl
  have hslash : (0x5c : UInt8).toNat = 92 := rfl
  rcases Go.toNat_of_mem_utf8EncodeChar hmem with ⟨heq, -⟩ | hhigh
  · refine h ?_
    have hc' : c = '\\' := by
      rw [← Char.ofNat_toNat c, ← heq]
      rfl
    exact hc' ▸ hc
  · omega

/-- An escape of one character. -/
theorem Compacts.short {e : Char} (hascii : e.toNat < 128) (hu : e ≠ 'u') :
    Compacts ['\\', e] ['\\', e] := by
  have hbytes : utf8Bytes ['\\', e] = [0x5c, UInt8.ofNat e.toNat] := by
    show String.utf8EncodeChar '\\' ++ (String.utf8EncodeChar e ++ []) = _
    rw [Go.utf8EncodeChar_of_ascii hascii]
    rfl
  have hne : UInt8.ofNat e.toNat ≠ 0x75 := ofNat_toNat_ne hascii (by decide : 'u'.toNat < 128) hu
  intro rest
  rw [hbytes]
  refine compactFrom_escape ?_ ?_
  · rw [utf8Bytes_escapes.1]
    simp [hne]
  · rw [utf8Bytes_escapes.2]
    simp [hne]

/-- An escape of four hexadecimal digits whose first one is not that of the two separators. -/
theorem Compacts.hex {h₁ h₂ h₃ h₄ : Char} (hascii : h₁.toNat < 128) (htwo : h₁ ≠ '2')
    (hslash : '\\' ∉ [h₁, h₂, h₃, h₄]) :
    Compacts ['\\', 'u', h₁, h₂, h₃, h₄] ['\\', 'u', h₁, h₂, h₃, h₄] := by
  have hbytes : utf8Bytes ['\\', 'u', h₁, h₂, h₃, h₄] =
      0x5c :: 0x75 :: utf8Bytes [h₁, h₂, h₃, h₄] := rfl
  have hfirst : utf8Bytes [h₁, h₂, h₃, h₄] = UInt8.ofNat h₁.toNat :: utf8Bytes [h₂, h₃, h₄] := by
    show String.utf8EncodeChar h₁ ++ _ = _
    rw [Go.utf8EncodeChar_of_ascii hascii]
    rfl
  have hne : UInt8.ofNat h₁.toNat ≠ 0x32 :=
    ofNat_toNat_ne hascii (by decide : '2'.toNat < 128) htwo
  have hdigits : Compacts [h₁, h₂, h₃, h₄] [h₁, h₂, h₃, h₄] := .plain hslash
  intro rest
  rw [hbytes, List.cons_append, List.cons_append, List.cons_append, List.cons_append,
    ← hdigits rest]
  refine compactFrom_escape ?_ ?_
  · rw [utf8Bytes_escapes.1, hfirst]
    simp [hne]
  · rw [utf8Bytes_escapes.2, hfirst]
    simp [hne]

/-- The two escapes that are taken back. -/
theorem Compacts.separator {c : Char} (h : c.toNat = 0x2028 ∨ c.toNat = 0x2029) :
    Compacts (escapeRune c) [c] := by
  intro rest
  rcases h with h | h
  · obtain rfl : c = '\u2028' := by rw [← Char.ofNat_toNat c, h]
    have hwritten : utf8Bytes (escapeRune '\u2028') = [0x5c, 0x75, 0x32, 0x30, 0x32, 0x38] := by
      decide
    have hskip := compactFrom_append [0x75, 0x32, 0x30, 0x32, 0x38] rest
    rw [hwritten]
    show compactFrom 0 (0x5c :: 0x75 :: 0x32 :: 0x30 :: 0x32 :: 0x38 :: rest) = _
    rw [compactFrom, if_pos rfl, utf8Bytes_escapes.1, if_pos (by simp)]
    exact congrArg (utf8Bytes ['\u2028'] ++ ·) hskip
  · obtain rfl : c = '\u2029' := by rw [← Char.ofNat_toNat c, h]
    have hwritten : utf8Bytes (escapeRune '\u2029') = [0x5c, 0x75, 0x32, 0x30, 0x32, 0x39] := by
      decide
    have hskip := compactFrom_append [0x75, 0x32, 0x30, 0x32, 0x39] rest
    rw [hwritten]
    show compactFrom 0 (0x5c :: 0x75 :: 0x32 :: 0x30 :: 0x32 :: 0x39 :: rest) = _
    rw [compactFrom, if_pos rfl, utf8Bytes_escapes.1, utf8Bytes_escapes.2, if_neg (by simp),
      if_pos (by simp)]
    exact congrArg (utf8Bytes ['\u2029'] ++ ·) hskip

/-! ## What is hashed -/

/-- Characters beyond ASCII are written as they are, the two separators apart. -/
theorem escapeRune_of_le {c : Char} (h : 128 ≤ c.toNat)
    (hsep : ¬(c.toNat = 0x2028 ∨ c.toNat = 0x2029)) : escapeRune c = [c] := by
  have hquote : c ≠ '"' := by
    rintro rfl
    exact absurd h (by decide)
  have hslash : c ≠ '\\' := by
    rintro rfl
    exact absurd h (by decide)
  unfold escapeRune
  rw [if_neg hquote, if_neg hslash, if_neg (by omega), if_neg (by omega), if_neg (by omega),
    if_neg (by omega), if_neg (by omega), if_neg (by omega)]

/-- Compact JSON writes all characters beyond ASCII as they are. -/
theorem compactChar_of_le {c : Char} (h : 128 ≤ c.toNat) : (compactChar c).toList = [c] := by
  have hquote : c ≠ '"' := by
    rintro rfl
    exact absurd h (by decide)
  have hslash : c ≠ '\\' := by
    rintro rfl
    exact absurd h (by decide)
  unfold compactChar
  rw [if_neg hquote, if_neg hslash, if_neg (by omega), if_neg (by omega), if_neg (by omega),
    if_neg (by omega), if_neg (by omega), if_neg (by omega)]
  exact String.toList_singleton c

/-- ASCII characters are written alike, plainly or with one of the short or the long escapes. -/
theorem escapeRune_ascii {c : Char} (h : c.toNat < 128) :
    (compactChar c).toList = escapeRune c ∧
      (escapeRune c = [c] ∧ c ≠ '\\' ∨
        (∃ e ∈ ['"', '\\', 'b', 'f', 'n', 'r', 't'], escapeRune c = ['\\', e]) ∨
        escapeRune c = ['\\', 'u', '0', '0', Nat.digitChar (c.toNat / 16),
          Nat.digitChar (c.toNat % 16)]) := by
  have hall : ∀ n < 128, (compactChar (Char.ofNat n)).toList = escapeRune (Char.ofNat n) ∧
      (escapeRune (Char.ofNat n) = [Char.ofNat n] ∧ Char.ofNat n ≠ '\\' ∨
        ['"', '\\', 'b', 'f', 'n', 'r', 't'].any (escapeRune (Char.ofNat n) == ['\\', ·]) ∨
        escapeRune (Char.ofNat n) = ['\\', 'u', '0', '0', Nat.digitChar (n / 16),
          Nat.digitChar (n % 16)]) := by
    decide +kernel
  have hc := hall c.toNat h
  simp only [Char.ofNat_toNat, List.any_eq_true, beq_iff_eq] at hc
  exact hc

/-- **Character by character** the post-processor turns what the encoder writes into compact JSON.
-/
theorem compacts_escapeRune (c : Char) : Compacts (escapeRune c) (compactChar c).toList := by
  by_cases hascii : c.toNat < 128
  · obtain ⟨hsame, hcases⟩ := escapeRune_ascii hascii
    rw [hsame]
    rcases hcases with ⟨hplain, hslash⟩ | ⟨e, he, hshort⟩ | hlong
    · rw [hplain]
      exact .plain fun hmem => hslash (List.mem_singleton.mp hmem).symm
    · have hall : ['"', '\\', 'b', 'f', 'n', 'r', 't'].all (fun e => e.toNat < 128 ∧ e ≠ 'u') := by
        decide
      obtain ⟨hbelow, hu⟩ := of_decide_eq_true (List.all_eq_true.mp hall e he)
      rw [hshort]
      exact .short hbelow hu
    · have hdigit : ∀ n < 16, Nat.digitChar n ≠ '\\' := by decide
      rw [hlong]
      refine .hex (by decide) (by decide) ?_
      simp only [List.mem_cons, List.not_mem_nil, or_false, not_or]
      exact ⟨by decide, by decide, (hdigit _ (by omega)).symm, (hdigit _ (by omega)).symm⟩
  · rw [compactChar_of_le (not_lt.mp hascii)]
    by_cases hsep : c.toNat = 0x2028 ∨ c.toNat = 0x2029
    · exact .separator hsep
    · rw [escapeRune_of_le (not_lt.mp hascii) hsep]
      refine .plain fun hmem => ?_
      rw [← List.mem_singleton.mp hmem] at hascii
      exact hascii (by decide)

/-- What the encoder writes for a rune or an invalid byte. -/
theorem compacts_encodeRune (c : Option Char) :
    Compacts (encodeRune c) (c.elim "\\ufffd" compactChar).toList := by
  cases c with
  | none =>
    have htext : "\\ufffd".toList = ['\\', 'u', 'f', 'f', 'f', 'd'] := by decide
    show Compacts "\\ufffd".toList "\\ufffd".toList
    rw [htext]
    exact .hex (by decide) (by decide) (by decide)
  | some c => exact compacts_escapeRune c

theorem toList_compactQuoteBytes (bs : List UInt8) :
    (compactQuoteBytes bs).toList =
      '"' :: ((decodeRunes bs).flatMap (fun c => (c.elim "\\ufffd" compactChar).toList) ++
        ['"']) := by
  have hquote : "\"".toList = ['"'] := by decide
  unfold compactQuoteBytes
  rw [String.toList_append, String.toList_append, hquote, String.toList_join, List.flatMap_map]
  rfl

/-- A string. -/
theorem compacts_encodeQuote (bs : List UInt8) :
    Compacts (encodeQuote bs) (compactQuoteBytes bs).toList := by
  have hquote : Compacts ['"'] ['"'] := .plain (by decide)
  have hbody := Compacts.flatMap (l := decodeRunes bs) fun c _ => compacts_encodeRune c
  rw [toList_compactQuoteBytes]
  exact (hquote.append hbody).append hquote

/-- The characters of an integer. -/
theorem toList_toString (n : ℤ) : (toString n).toList = (Go.Number.ofInt n).text := by
  have hnat : ∀ m : ℕ, (toString m).toList = Nat.toDigits 10 m := fun m => Nat.toList_repr
  cases n with
  | ofNat m =>
    have htext : (Go.Number.ofInt (Int.ofNat m)).text = Nat.toDigits 10 m ++ [] := rfl
    rw [htext, List.append_nil]
    exact hnat m
  | negSucc m =>
    have htext : (Go.Number.ofInt (Int.negSucc m)).text =
        ['-'] ++ (Nat.toDigits 10 (m + 1) ++ []) := by
      unfold Go.Number.text Go.Number.ofInt
      rw [if_pos (decide_eq_true (Int.negSucc_lt_zero m))]
      rfl
    have hstring : toString (Int.negSucc m) = "-" ++ toString (m + 1) := rfl
    have hminus : "-".toList = ['-'] := by decide
    rw [htext, hstring, String.toList_append, hminus, hnat, List.append_nil]

/-- The characters of an integer are digits, behind a minus sign perhaps. -/
theorem isDigit_toString (n : ℤ) : ∀ c ∈ (toString n).toList, c = '-' ∨ c.isDigit = true := by
  intro c hc
  rw [toList_toString] at hc
  unfold Go.Number.text at hc
  rcases List.mem_append.mp hc with hc | hc
  · split_ifs at hc
    · exact Or.inl (List.mem_singleton.mp hc)
    · cases hc
  · rcases List.mem_append.mp hc with hc | hc
    · exact Or.inr (Go.isDigit_toDigits _ c hc)
    · cases hc

/-- The characters of the array. -/
theorem toList_compactEvent (kind source id : List UInt8) (timestamp : ℤ) :
    (compactEvent kind source id timestamp).toList =
      '[' :: ((compactQuoteBytes kind).toList ++ ',' :: ((compactQuoteBytes source).toList ++
        ',' :: ((compactQuoteBytes id).toList ++
          ',' :: ((toString timestamp).toList ++ [']'])))) := by
  have hmarks : "[".toList = ['['] ∧ ",".toList = [','] ∧ "]".toList = [']'] := by decide
  unfold compactEvent
  simp only [String.toList_append, hmarks, List.append_assoc, List.cons_append, List.nil_append]

/-- **What is hashed** is the array in compact JSON. -/
theorem hashedBytes_eq (kind source id : List UInt8) (timestamp : ℤ) :
    hashedBytes kind source id timestamp =
      utf8Bytes (compactEvent kind source id timestamp).toList := by
  have hdigits : Compacts (toString timestamp).toList (toString timestamp).toList := by
    refine .plain fun hmem => ?_
    rcases isDigit_toString timestamp _ hmem with h | h <;> exact absurd h (by decide)
  have hopen : Compacts ['['] ['['] := .plain (by decide)
  have hcomma : Compacts [','] [','] := .plain (by decide)
  have hclose : Compacts [']'] [']'] := .plain (by decide)
  have harray := hopen.append ((compacts_encodeQuote kind).append (hcomma.append
    ((compacts_encodeQuote source).append (hcomma.append ((compacts_encodeQuote id).append
      (hcomma.append (hdigits.append hclose)))))))
  have hwhole := harray []
  rw [List.append_nil] at hwhole
  have hnewline : encodeEvent kind source id timestamp =
      utf8Bytes (['['] ++ (encodeQuote kind ++ ([','] ++ (encodeQuote source ++ ([','] ++
        (encodeQuote id ++ ([','] ++ ((toString timestamp).toList ++ [']'])))))))) ++ [0x0a] := by
    have hline : utf8Bytes ['\n'] = [0x0a] := rfl
    unfold encodeEvent
    rw [← hline, ← Go.utf8Bytes_append]
    simp only [List.append_assoc, List.cons_append, List.nil_append]
  have htrim : trimNewline (encodeEvent kind source id timestamp) =
      utf8Bytes (['['] ++ (encodeQuote kind ++ ([','] ++ (encodeQuote source ++ ([','] ++
        (encodeQuote id ++ ([','] ++ ((toString timestamp).toList ++ [']'])))))))) := by
    unfold trimNewline
    rw [hnewline, List.getLast?_append_of_ne_nil _ (by simp), if_pos (by rfl), List.dropLast_concat]
  unfold hashedBytes compactUTF8JSON
  rw [htrim, hwhole, toList_compactEvent]
  exact List.append_nil _

/-- This is what `eventKeyBytes` hashes. -/
theorem eventKeyBytes_eq (L : Libs) (kind source : String) (id : List UInt8) (timestamp : ℤ) :
    ∃ text : String,
      utf8Bytes text.toList =
        hashedBytes (utf8Bytes kind.toList) (utf8Bytes source.toList) id timestamp ∧
      eventKeyBytes L kind source id timestamp = L.sha256 text := by
  refine ⟨_, (hashedBytes_eq _ _ _ _).symm, ?_⟩
  unfold eventKeyBytes compactEvent
  rw [compactQuoteBytes_utf8, compactQuoteBytes_utf8]

/-! ## What it decodes to -/

/-- A rune in compact JSON is read as it is written, an invalid byte as the replacement character.
-/
theorem readString_compact (c : Option Char) (cs : List Char) :
    Go.readString none ((c.elim "\\ufffd" compactChar).toList ++ cs) =
      (Go.readString none cs).map (Go.inFront [c.getD '\uFFFD']) := by
  cases c with
  | none =>
    have htext : "\\ufffd".toList = ['\\', 'u', 'f', 'f', 'f', 'd'] := by decide
    have hvalue : Go.hex4 'f' 'f' 'f' 'd' = some 0xFFFD := by decide
    show Go.readString none ("\\ufffd".toList ++ cs) = _
    rw [htext]
    simp only [List.cons_append, List.nil_append]
    rw [Go.readString.eq_def]
    dsimp only
    rw [if_neg (by decide), if_pos rfl, if_pos rfl, hvalue]
    dsimp only [Option.bind_none]
    rw [if_neg (by decide)]
    rfl
  | some c =>
    show Go.readString none ((compactChar c).toList ++ cs) = _
    by_cases hascii : c.toNat < 128
    · rw [(escapeRune_ascii hascii).1]
      exact Go.readString_escapeRune c cs
    · rw [compactChar_of_le (not_lt.mp hascii)]
      refine Go.readString_plain ?_ ?_ (by omega) cs
      · rintro rfl
        exact hascii (by decide)
      · rintro rfl
        exact hascii (by decide)

/-- **Strings** in compact JSON are read as their texts. -/
theorem readsAs_compactQuoteBytes (bs : List UInt8) :
    Go.ReadsAs (compactQuoteBytes bs).toList (.str (textOf bs)) := by
  rw [toList_compactQuoteBytes]
  refine Go.readsAs_str fun cs => ?_
  unfold textOf runes
  rw [String.toList_ofList]
  induction decodeRunes bs with
  | nil =>
    show Go.readString none ('"' :: cs) = some ([], cs)
    rw [Go.readString.eq_def]
    rfl
  | cons c l ih =>
    rw [List.flatMap_cons, List.append_assoc, readString_compact, ih]
    rfl

/-- What is hashed decodes to the array of the texts. -/
theorem parseJson_hashedBytes (kind source id : List UInt8) (timestamp : ℤ) :
    Go.parseJson (hashedBytes kind source id timestamp) =
      some (eventArray (textOf kind) (textOf source) (textOf id) timestamp) := by
  have hnumber : Go.ReadsAs (toString timestamp).toList (.num (Go.Number.ofInt timestamp)) := by
    have htext := Go.readsAs_text (.num (Go.Number.ofInt timestamp))
    rw [Json.text, ← toList_toString] at htext
    exact htext
  have harray := Go.readsAs_arr (e := ((compactQuoteBytes kind).toList, .str (textOf kind)))
    (l := [((compactQuoteBytes source).toList, .str (textOf source)),
      ((compactQuoteBytes id).toList, .str (textOf id)),
      ((toString timestamp).toList, .num (Go.Number.ofInt timestamp))])
    (readsAs_compactQuoteBytes kind) (by
      simp only [List.forall_mem_cons]
      exact ⟨readsAs_compactQuoteBytes source, readsAs_compactQuoteBytes id, hnumber, nofun⟩)
  rw [hashedBytes_eq, toList_compactEvent]
  exact harray.parseJson (by simp [Json.depth, Json.elemsDepth, Go.maxNestingDepth])

/-- The array determines its members. -/
theorem eventArray_inj {kind source id kind' source' id' : String} {timestamp timestamp' : ℤ}
    (h : eventArray kind source id timestamp = eventArray kind' source' id' timestamp') :
    kind = kind' ∧ source = source' ∧ id = id' ∧ timestamp = timestamp' := by
  unfold eventArray Go.Number.ofInt at h
  simp only [Json.arr.injEq, List.cons.injEq, Json.str.injEq, Json.num.injEq,
    Go.Number.mk.injEq, decide_eq_decide, and_true] at h
  obtain ⟨hkind, hsource, hid, hneg, habs⟩ := h
  exact ⟨hkind, hsource, hid, by omega⟩

end Push
