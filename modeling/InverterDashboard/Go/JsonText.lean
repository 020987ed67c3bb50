import InverterDashboard.Go.Json
import InverterDashboard.Go.ParseFloat
import InverterDashboard.Go.Utf8

set_option relaxedAutoImplicit false
set_option autoImplicit false

/-!
# The bytes of JSON texts

The grammar that `encoding/json` reads, and what `json.Encoder` writes. Bytes are read as runes
first: outside of strings only ASCII is allowed, and inside them an invalid byte becomes the
replacement character. An exponent is written without a plus sign and leading zeros, like any
literal a program makes; for a literal that was read it is one of the spellings.

## Main definitions

* `Go.escapeRune`, `Go.quoteString`, `Go.Number.text`, `Go.Json.text` — writing.
* `Go.readString`, `Go.readNumber`, `Go.readValue` — reading, with what is left behind the value.
* `Go.parseJson` — a text of bytes.
* `Go.Json.depth` — how deep arrays and objects are nested.
* `Go.ReadsAs` — the texts of a tree, those with other spellings of strings included.

## Main results

* `Go.readString_flatMap`, `Go.readNumber_text`, `Go.readValue_text` — what is written is read,
  whatever follows it.
* `Go.readsAs_str`, `Go.readsAs_arr` — texts of strings and arrays.
* `Go.parseJson_text` — the bytes of a tree are a text of this tree.
-/

namespace Go

/-! ## Writing -/

/-- A character inside a string, after `SetEscapeHTML(false)`. -/
def escapeRune (c : Char) : List Char :=
  if c = '"' then ['\\', '"']
  else if c = '\\' then ['\\', '\\']
  else if c.toNat = 0x08 then ['\\', 'b']
  else if c.toNat = 0x0C then ['\\', 'f']
  else if c.toNat = 0x0A then ['\\', 'n']
  else if c.toNat = 0x0D then ['\\', 'r']
  else if c.toNat = 0x09 then ['\\', 't']
  else if c.toNat < 0x20 ∨ c.toNat = 0x2028 ∨ c.toNat = 0x2029 then
    ['\\', 'u', Nat.digitChar (c.toNat / 4096), Nat.digitChar (c.toNat / 256 % 16),
      Nat.digitChar (c.toNat / 16 % 16), Nat.digitChar (c.toNat % 16)]
  else [c]

/-- A string with its quotes. -/
def quoteString (s : String) : List Char := '"' :: (s.toList.flatMap escapeRune ++ ['"'])

namespace Number

/-- The digits behind the point. -/
def fracText : List (Fin 10) → List Char
  | [] => []
  | ds => '.' :: ds.map fun d : Fin 10 => Nat.digitChar d

/-- The exponent. -/
def expText : Option ℤ → List Char
  | none => []
  | some (.ofNat e) => 'e' :: Nat.toDigits 10 e
  | some (.negSucc e) => 'e' :: '-' :: Nat.toDigits 10 (e + 1)

/-- The text of a literal. -/
def text (n : Number) : List Char :=
  (if n.neg then ['-'] else []) ++ (Nat.toDigits 10 n.int ++ (fracText n.frac ++ expText n.exp))

end Number

namespace Json

mutual

/-- The text of a tree, without any space. -/
def text : Json → List Char
  | .null => "null".toList
  | .bool true => "true".toList
  | .bool false => "false".toList
  | .num n => n.text
  | .str s => quoteString s
  | .arr [] => ['[', ']']
  | .arr (e :: es) => '[' :: (text e ++ elemsText es)
  | .obj [] => ['\x7b', '\x7d']
  | .obj ((k, v) :: fs) => '\x7b' :: (quoteString k ++ ':' :: (text v ++ fieldsText fs))

/-- What follows an element of an array. -/
def elemsText : List Json → List Char
  | [] => [']']
  | e :: es => ',' :: (text e ++ elemsText es)

/-- What follows a member of an object. -/
def fieldsText : List (String × Json) → List Char
  | [] => ['\x7d']
  | (k, v) :: fs => ',' :: (quoteString k ++ ':' :: (text v ++ fieldsText fs))

end

mutual

/-- How deep arrays and objects are nested. -/
def depth : Json → ℕ
  | .arr es => elemsDepth es + 1
  | .obj fs => fieldsDepth fs + 1
  | _ => 0

/-- The depth of the deepest element. -/
def elemsDepth : List Json → ℕ
  | [] => 0
  | e :: es => max (depth e) (elemsDepth es)

/-- The depth of the deepest member. -/
def fieldsDepth : List (String × Json) → ℕ
  | [] => 0
  | (_, v) :: fs => max (depth v) (fieldsDepth fs)

end

end Json

/-! ## Reading strings -/

/-- The character of a short escape. -/
def unescape (c : Char) : Option Char :=
  if c = '"' ∨ c = '\\' ∨ c = '/' then some c
  else if c = 'b' then some '\x08'
  else if c = 'f' then some '\x0C'
  else if c = 'n' then some '\n'
  else if c = 'r' then some '\r'
  else if c = 't' then some '\t'
  else none

/-- `getu4`: four hexadecimal digits. -/
def hex4 (a b c d : Char) : Option ℕ := do
  let a ← digitValue? true a
  let b ← digitValue? true b
  let c ← digitValue? true c
  let d ← digitValue? true d
  return a * 4096 + b * 256 + c * 16 + d

/-- `utf16.DecodeRune`, if the pair is one. -/
def surrogatePair (r₁ r₂ : ℕ) : Option Char :=
  if 0xD800 ≤ r₁ ∧ r₁ < 0xDC00 ∧ 0xDC00 ≤ r₂ ∧ r₂ < 0xE000 then
    some (Char.ofNat ((r₁ - 0xD800) * 1024 + (r₂ - 0xDC00) + 0x10000))
  else none

/-- A surrogate without its other half is the replacement character. -/
def loneSurrogate : Option ℕ → List Char
  | none => []
  | some _ => ['\uFFFD']

/-- Characters in front of those that have been read. -/
def inFront (front : List Char) (s : List Char × List Char) : List Char × List Char :=
  (front ++ s.1, s.2)

/-- A string behind its opening quote: its characters, and what is behind the closing one. A
surrogate is pending until it is known what follows it. -/
def readString : Option ℕ → List Char → Option (List Char × List Char)
  | _, [] => none
  | pending, c :: cs =>
    if c = '"' then some (loneSurrogate pending, cs)
    else if c = '\\' then
      match cs with
      | [] => none
      | e :: cs =>
        if e = 'u' then
          match cs with
          | h₁ :: h₂ :: h₃ :: h₄ :: cs =>
            match hex4 h₁ h₂ h₃ h₄ with
            | none => none
            | some r =>
              match pending.bind fun high => surrogatePair high r with
              | some c => (readString none cs).map (inFront [c])
              | none =>
                if 0xD800 ≤ r ∧ r < 0xE000 then
                  (readString (some r) cs).map (inFront (loneSurrogate pending))
                else (readString none cs).map (inFront (loneSurrogate pending ++ [Char.ofNat r]))
          | _ => none
        else
          match unescape e with
          | some c => (readString none cs).map (inFront (loneSurrogate pending ++ [c]))
          | none => none
    else if c.toNat < 0x20 then none
    else (readString none cs).map (inFront (loneSurrogate pending ++ [c]))

/-! ## Reading numbers -/

/-- The integer part: a zero, or digits of which the first is none. -/
def readInt : List Char → Option (ℕ × List Char)
  | [] => none
  | c :: cs =>
    if c = '0' then some (0, cs)
    else if c.isDigit then
      some (Nat.ofDigitChars 10 ((c :: cs).takeWhile Char.isDigit) 0, cs.dropWhile Char.isDigit)
    else none

/-- A digit behind the point. -/
def fracDigit (c : Char) : Fin 10 := Fin.ofNat 10 (c.toNat - '0'.toNat)

/-- The optional digits behind the point. -/
def readFrac : List Char → Option (List (Fin 10) × List Char)
  | '.' :: c :: cs =>
    if c.isDigit then
      some (((c :: cs).takeWhile Char.isDigit).map fracDigit, cs.dropWhile Char.isDigit)
    else none
  | ['.'] => none
  | cs => some ([], cs)

/-- The optional exponent. -/
def readExp : List Char → Option (Option ℤ × List Char)
  | [] => some (none, [])
  | c :: cs =>
    if c = 'e' ∨ c = 'E' then
      match (cutSign cs).2 with
      | d :: ds =>
        if d.isDigit then
          let e := Nat.ofDigitChars 10 ((d :: ds).takeWhile Char.isDigit) 0
          some (some (if (cutSign cs).1 then -(e : ℤ) else e), ds.dropWhile Char.isDigit)
        else none
      | [] => none
    else some (none, c :: cs)

/-- A minus sign. -/
def readMinus : List Char → Bool × List Char
  | '-' :: cs => (true, cs)
  | cs => (false, cs)

/-- A number literal. -/
def readNumber (cs : List Char) : Option (Number × List Char) := do
  let (int, rest) ← readInt (readMinus cs).2
  let (frac, rest) ← readFrac rest
  let (exp, rest) ← readExp rest
  return (⟨(readMinus cs).1, int, frac, exp⟩, rest)

/-! ## Reading values -/

/-- White space between the parts of a text. -/
def isJsonSpace (c : Char) : Bool := c == ' ' || c == '\t' || c == '\r' || c == '\n'

/-- What is behind white space. -/
def skipSpace (cs : List Char) : List Char := cs.dropWhile isJsonSpace

/-- A word behind its first letter. -/
def readWord (word : String) (j : Json) (cs : List Char) : Option (Json × List Char) :=
  (cs.dropPrefix? word.toList).map fun rest => (j, rest)

/-- The key of a member and its colon. -/
def readKey (cs : List Char) : Option (String × List Char) :=
  match skipSpace cs with
  | [] => none
  | c :: cs =>
    if c = '"' then
      (readString none cs).bind fun s =>
        match skipSpace s.2 with
        | [] => none
        | c :: cs => if c = ':' then some (String.ofList s.1, cs) else none
    else none

mutual

/-- A value, in a text whose arrays and objects may be nested `depth` deep from here on. -/
def readValue : ℕ → ℕ → List Char → Option (Json × List Char)
  | 0, _, _ => none
  | fuel + 1, depth, cs =>
    match skipSpace cs with
    | [] => none
    | c :: cs =>
      if c = '[' then
        if depth = 0 then none
        else
          match skipSpace cs with
          | [] => none
          | c :: cs =>
            if c = ']' then some (.arr [], cs)
            else do
              let (e, cs) ← readValue fuel (depth - 1) (c :: cs)
              let (es, cs) ← readElems fuel (depth - 1) cs
              return (.arr (e :: es), cs)
      else if c = '\x7b' then
        if depth = 0 then none
        else
          match skipSpace cs with
          | [] => none
          | c :: cs =>
            if c = '\x7d' then some (.obj [], cs)
            else do
              let (k, cs) ← readKey (c :: cs)
              let (v, cs) ← readValue fuel (depth - 1) cs
              let (fs, cs) ← readFields fuel (depth - 1) cs
              return (.obj ((k, v) :: fs), cs)
      else if c = '"' then (readString none cs).map fun s => (.str (String.ofList s.1), s.2)
      else if c = 'n' then readWord "ull" .null cs
      else if c = 't' then readWord "rue" (.bool true) cs
      else if c = 'f' then readWord "alse" (.bool false) cs
      else (readNumber (c :: cs)).map fun n => (.num n.1, n.2)

/-- What follows an element of an array. -/
def readElems : ℕ → ℕ → List Char → Option (List Json × List Char)
  | 0, _, _ => none
  | fuel + 1, depth, cs =>
    match skipSpace cs with
    | [] => none
    | c :: cs =>
      if c = ']' then some ([], cs)
      else if c = ',' then do
        let (e, cs) ← readValue fuel depth cs
        let (es, cs) ← readElems fuel depth cs
        return (e :: es, cs)
      else none

/-- What follows a member of an object. -/
def readFields : ℕ → ℕ → List Char → Option (List (String × Json) × List Char)
  | 0, _, _ => none
  | fuel + 1, depth, cs =>
    match skipSpace cs with
    | [] => none
    | c :: cs =>
      if c = '\x7d' then some ([], cs)
      else if c = ',' then do
        let (k, cs) ← readKey cs
        let (v, cs) ← readValue fuel depth cs
        let (fs, cs) ← readFields fuel depth cs
        return ((k, v) :: fs, cs)
      else none

end

/-- `maxNestingDepth`. -/
def maxNestingDepth : ℕ := 10000

/-- The tree of a text: one value, and space around it. -/
def parseJson (bs : List UInt8) : Option Json :=
  (readValue ((runes bs).length + 1) maxNestingDepth (runes bs)).bind fun r =>
    if (skipSpace r.2).isEmpty then some r.1 else none

/-! ## Strings -/

/-- A hexadecimal digit is read as it is written. -/
theorem digitValue?_digitChar {d : ℕ} (h : d < 16) :
    digitValue? true (Nat.digitChar d) = some d := by
  have hall : ∀ d < 16, digitValue? true (Nat.digitChar d) = some d := by decide
  exact hall d h

/-- A short escape. -/
theorem readString_short {e c : Char} (h : unescape e = some c) (cs : List Char) :
    readString none ('\\' :: e :: cs) = (readString none cs).map (inFront [c]) := by
  have hu : e ≠ 'u' := by
    rintro rfl
    have hnone : unescape 'u' = none := by decide
    rw [hnone] at h
    cases h
  rw [readString.eq_def]
  dsimp only
  rw [if_neg (by decide), if_pos rfl, if_neg hu, h]
  rfl

/-- A character that is not escaped. -/
theorem readString_plain {c : Char} (hquote : c ≠ '"') (hslash : c ≠ '\\') (h : 0x20 ≤ c.toNat)
    (cs : List Char) : readString none (c :: cs) = (readString none cs).map (inFront [c]) := by
  rw [readString.eq_def]
  dsimp only
  rw [if_neg hquote, if_neg hslash, if_neg (not_lt.mpr h)]
  rfl

/-- A character that is written with four hexadecimal digits. -/
theorem readString_hex {c : Char} (h : c.toNat < 0xD800) (cs : List Char) :
    readString none (['\\', 'u', Nat.digitChar (c.toNat / 4096), Nat.digitChar (c.toNat / 256 % 16),
      Nat.digitChar (c.toNat / 16 % 16), Nat.digitChar (c.toNat % 16)] ++ cs) =
        (readString none cs).map (inFront [c]) := by
  have hvalue : hex4 (Nat.digitChar (c.toNat / 4096)) (Nat.digitChar (c.toNat / 256 % 16))
      (Nat.digitChar (c.toNat / 16 % 16)) (Nat.digitChar (c.toNat % 16)) = some c.toNat := by
    unfold hex4
    rw [digitValue?_digitChar (by omega), digitValue?_digitChar (by omega),
      digitValue?_digitChar (by omega), digitValue?_digitChar (by omega)]
    simp only [Option.bind_eq_bind, Option.bind_some, Option.pure_def, Option.some.injEq]
    omega
  simp only [List.cons_append, List.nil_append]
  rw [readString.eq_def]
  dsimp only
  rw [if_neg (by decide), if_pos rfl, if_pos rfl, hvalue]
  dsimp only [Option.bind_none]
  rw [if_neg (by omega), Char.ofNat_toNat]
  rfl

/-- A character is read as it is written. -/
theorem readString_escapeRune (c : Char) (cs : List Char) :
    readString none (escapeRune c ++ cs) = (readString none cs).map (inFront [c]) := by
  have hshort : ∀ (e : Char) (n : ℕ), unescape e = some (Char.ofNat n) → c.toNat = n →
      readString none (['\\', e] ++ cs) = (readString none cs).map (inFront [c]) := by
    rintro e n h rfl
    rw [Char.ofNat_toNat] at h
    exact readString_short h cs
  unfold escapeRune
  by_cases hquote : c = '"'
  · rw [if_pos hquote]
    exact hshort '"' 0x22 (by decide) (by rw [hquote]; rfl)
  by_cases hslash : c = '\\'
  · rw [if_neg hquote, if_pos hslash]
    exact hshort '\\' 0x5C (by decide) (by rw [hslash]; rfl)
  rw [if_neg hquote, if_neg hslash]
  by_cases h₀₈ : c.toNat = 0x08
  · rw [if_pos h₀₈]
    exact hshort 'b' _ (by decide) h₀₈
  by_cases h₀C : c.toNat = 0x0C
  · rw [if_neg h₀₈, if_pos h₀C]
    exact hshort 'f' _ (by decide) h₀C
  by_cases h₀A : c.toNat = 0x0A
  · rw [if_neg h₀₈, if_neg h₀C, if_pos h₀A]
    exact hshort 'n' _ (by decide) h₀A
  by_cases h₀D : c.toNat = 0x0D
  · rw [if_neg h₀₈, if_neg h₀C, if_neg h₀A, if_pos h₀D]
    exact hshort 'r' _ (by decide) h₀D
  by_cases h₀₉ : c.toNat = 0x09
  · rw [if_neg h₀₈, if_neg h₀C, if_neg h₀A, if_neg h₀D, if_pos h₀₉]
    exact hshort 't' _ (by decide) h₀₉
  rw [if_neg h₀₈, if_neg h₀C, if_neg h₀A, if_neg h₀D, if_neg h₀₉]
  by_cases hescaped : c.toNat < 0x20 ∨ c.toNat = 0x2028 ∨ c.toNat = 0x2029
  · rw [if_pos hescaped]
    exact readString_hex (by omega) cs
  · rw [if_neg hescaped]
    exact readString_plain hquote hslash (by omega) cs

/-- A string ends at a quote. -/
theorem readString_quote (cs : List Char) : readString none ('"' :: cs) = some ([], cs) := by
  rw [readString.eq_def]
  rfl

/-- **Strings** are read as they are written. -/
theorem readString_flatMap (l cs : List Char) :
    readString none (l.flatMap escapeRune ++ '"' :: cs) = some (l, cs) := by
  induction l with
  | nil => exact readString_quote cs
  | cons c l ih =>
    rw [List.flatMap_cons, List.append_assoc, readString_escapeRune, ih]
    rfl

/-! ## Numbers -/

/-- What may follow a number: neither a digit, nor a point, nor an exponent. -/
def EndsNumber (cs : List Char) : Prop :=
  ∀ c ∈ cs.head?, c.isDigit = false ∧ c ≠ '.' ∧ c ≠ 'e' ∧ c ≠ 'E'

theorem endsNumber_nil : EndsNumber [] := nofun

theorem endsNumber_cons {c : Char} (h : c = ',' ∨ c = ']' ∨ c = '\x7d') (cs : List Char) :
    EndsNumber (c :: cs) := by
  intro c' hc'
  obtain rfl : c = c' := by simpa using hc'
  rcases h with rfl | rfl | rfl <;> decide

/-- What is behind a run of digits does not begin with one. -/
def EndsDigits (cs : List Char) : Prop := ∀ c ∈ cs.head?, c.isDigit = false

theorem takeWhile_digits {ds cs : List Char} (hds : ∀ c ∈ ds, c.isDigit = true)
    (hcs : EndsDigits cs) :
    (ds ++ cs).takeWhile Char.isDigit = ds ∧ (ds ++ cs).dropWhile Char.isDigit = cs := by
  have hend : cs.takeWhile Char.isDigit = [] ∧ cs.dropWhile Char.isDigit = cs := by
    cases cs with
    | nil => exact ⟨rfl, rfl⟩
    | cons c cs =>
      have hc := hcs c (by simp)
      simp [hc]
  rw [List.takeWhile_append_of_pos hds, List.dropWhile_append_of_pos hds, hend.1, hend.2,
    List.append_nil]
  exact ⟨rfl, rfl⟩

theorem isDigit_toDigits (n : ℕ) : ∀ c ∈ Nat.toDigits 10 n, c.isDigit = true := fun _ hc =>
  Nat.isDigit_of_mem_toDigits (by decide) (le_refl 10) hc

/-- A positive number does not begin with a zero. -/
theorem head_toDigits {n : ℕ} (h : 0 < n) : ∀ c ∈ (Nat.toDigits 10 n).head?, c ≠ '0' := by
  induction n using Nat.strong_induction_on with
  | h n ih =>
    rcases Nat.lt_or_ge n 10 with hlt | hge
    · rw [Nat.toDigits_of_lt_base hlt, List.head?_cons]
      rintro c ⟨⟩
      interval_cases n <;> decide
    · rw [Nat.toDigits_of_base_le (by decide) hge,
        List.head?_append_of_ne_nil _ Nat.toDigits_ne_nil]
      exact ih (n / 10) (by omega) (by omega)

/-- The integer part. -/
theorem readInt_toDigits (n : ℕ) {cs : List Char} (h : EndsDigits cs) :
    readInt (Nat.toDigits 10 n ++ cs) = some (n, cs) := by
  rcases Nat.eq_zero_or_pos n with rfl | hpos
  · rw [Nat.toDigits_zero]
    rfl
  · have hsplit := takeWhile_digits (isDigit_toDigits n) h
    have hdigit := isDigit_toDigits n
    have hhead := head_toDigits hpos
    have hvalue : Nat.ofDigitChars 10 (Nat.toDigits 10 n) 0 = n := Nat.ofDigitChars_ten_toDigits
    cases hdigits : Nat.toDigits 10 n with
    | nil => exact absurd hdigits Nat.toDigits_ne_nil
    | cons c ds =>
      rw [hdigits] at hsplit hdigit hhead hvalue
      have hc : c.isDigit = true := hdigit c List.mem_cons_self
      rw [List.cons_append] at hsplit ⊢
      unfold readInt
      dsimp only
      rw [if_neg (hhead c rfl), if_pos hc, hsplit.1, hvalue]
      rw [List.dropWhile_cons_of_pos hc] at hsplit
      rw [hsplit.2]

/-- The digits behind the point. -/
theorem readFrac_fracText (ds : List (Fin 10)) {cs : List Char} (h : EndsDigits cs)
    (hdot : ∀ c ∈ cs.head?, c ≠ '.') :
    readFrac (Number.fracText ds ++ cs) = some (ds, cs) := by
  have hdigit : ∀ d : Fin 10, (Nat.digitChar d).isDigit = true ∧
      fracDigit (Nat.digitChar d) = d := by
    decide
  cases ds with
  | nil =>
    cases cs with
    | nil => rfl
    | cons c cs =>
      have hc := hdot c rfl
      show readFrac (c :: cs) = some ([], c :: cs)
      unfold readFrac
      split
      · next heq => exact absurd (List.cons.inj heq).1 hc
      · next heq => exact absurd (List.cons.inj heq).1 hc
      · rfl
  | cons d ds =>
    have hall : ∀ c ∈ (d :: ds).map (fun d : Fin 10 => Nat.digitChar d), c.isDigit = true := by
      intro c hc
      obtain ⟨d', -, rfl⟩ := List.mem_map.mp hc
      exact (hdigit d').1
    have hsplit := takeWhile_digits hall h
    rw [List.map_cons, List.cons_append] at hsplit
    show (if (Nat.digitChar d).isDigit then some
        (((Nat.digitChar d :: (ds.map (fun d : Fin 10 => Nat.digitChar d) ++ cs)).takeWhile
          Char.isDigit).map fracDigit,
        (ds.map (fun d : Fin 10 => Nat.digitChar d) ++ cs).dropWhile Char.isDigit) else none) = _
    rw [if_pos (hdigit d).1, hsplit.1]
    rw [List.dropWhile_cons_of_pos (hdigit d).1] at hsplit
    have hback : (ds.map fun d : Fin 10 => Nat.digitChar d).map fracDigit = ds := by
      rw [List.map_map]
      exact (List.map_congr_left fun d' _ => (hdigit d').2).trans (List.map_id ds)
    rw [hsplit.2, List.map_cons, hback, (hdigit d).2]

/-- The exponent. -/
theorem readExp_expText (e : Option ℤ) {cs : List Char} (h : EndsNumber cs) :
    readExp (Number.expText e ++ cs) = some (e, cs) := by
  have hdigits : EndsDigits cs := fun c hc => (h c hc).1
  have hnat : ∀ (neg : Bool) (n : ℕ) (body : List Char),
      cutSign body = (neg, Nat.toDigits 10 n ++ cs) →
      readExp ('e' :: body) = some (some (if neg then -(n : ℤ) else n), cs) := by
    intro neg n body hbody
    have hsplit := takeWhile_digits (isDigit_toDigits n) hdigits
    have hvalue : Nat.ofDigitChars 10 (Nat.toDigits 10 n) 0 = n := Nat.ofDigitChars_ten_toDigits
    have hdigit := isDigit_toDigits n
    unfold readExp
    dsimp only
    rw [if_pos (Or.inl rfl), hbody]
    cases hds : Nat.toDigits 10 n with
    | nil => exact absurd hds Nat.toDigits_ne_nil
    | cons d ds =>
      rw [hds] at hsplit hvalue hdigit
      have hd : d.isDigit = true := hdigit d List.mem_cons_self
      rw [List.cons_append] at hsplit ⊢
      dsimp only
      rw [if_pos hd, hsplit.1, hvalue]
      rw [List.dropWhile_cons_of_pos hd] at hsplit
      rw [hsplit.2]
  match e with
  | none =>
    cases cs with
    | nil => rfl
    | cons c cs =>
      obtain ⟨-, -, h₁, h₂⟩ := h c rfl
      show readExp (c :: cs) = some (none, c :: cs)
      unfold readExp
      dsimp only
      rw [if_neg (not_or.mpr ⟨h₁, h₂⟩)]
  | some (.ofNat n) =>
    refine hnat false n _ ?_
    have hdigit := isDigit_toDigits n
    cases hds : Nat.toDigits 10 n with
    | nil => exact absurd hds Nat.toDigits_ne_nil
    | cons d ds =>
      rw [hds] at hdigit
      have hd : d.isDigit = true := hdigit d List.mem_cons_self
      unfold cutSign
      split
      · next heq =>
        rw [(List.cons.inj heq).1] at hd
        exact absurd hd (by decide)
      · next heq =>
        rw [(List.cons.inj heq).1] at hd
        exact absurd hd (by decide)
      · rfl
  | some (.negSucc n) => exact hnat true (n + 1) _ rfl

/-- The sign. -/
theorem readMinus_text (n : Number) (cs : List Char) :
    readMinus (n.text ++ cs) = (n.neg, Nat.toDigits 10 n.int ++
      (Number.fracText n.frac ++ (Number.expText n.exp ++ cs))) := by
  unfold Number.text
  simp only [List.append_assoc]
  cases n.neg with
  | true => rfl
  | false =>
    have hdigit := isDigit_toDigits n.int
    cases hds : Nat.toDigits 10 n.int with
    | nil => exact absurd hds Nat.toDigits_ne_nil
    | cons d ds =>
      rw [hds] at hdigit
      have hd : d.isDigit = true := hdigit d List.mem_cons_self
      show readMinus (d :: (ds ++ _)) = _
      unfold readMinus
      split
      · next heq =>
        rw [(List.cons.inj heq).1] at hd
        exact absurd hd (by decide)
      · rfl

/-- **Numbers** are read as they are written. -/
theorem readNumber_text (n : Number) {cs : List Char} (h : EndsNumber cs) :
    readNumber (n.text ++ cs) = some (n, cs) := by
  have hdigits : EndsDigits cs := fun c hc => (h c hc).1
  have hexp : EndsDigits (Number.expText n.exp ++ cs) ∧
      ∀ c ∈ (Number.expText n.exp ++ cs).head?, c ≠ '.' := by
    match n.exp with
    | none => exact ⟨hdigits, fun c hc => (h c hc).2.1⟩
    | some (.ofNat _) | some (.negSucc _) => exact ⟨by rintro c ⟨⟩; decide, by rintro c ⟨⟩; decide⟩
  have hfrac : EndsDigits (Number.fracText n.frac ++ (Number.expText n.exp ++ cs)) := by
    cases n.frac with
    | nil => exact hexp.1
    | cons d ds => rintro c ⟨⟩; decide
  unfold readNumber
  rw [readMinus_text, readInt_toDigits n.int hfrac]
  simp only [Option.bind_eq_bind, Option.bind_some]
  rw [readFrac_fracText n.frac hexp.1 hexp.2]
  simp only [Option.bind_some]
  rw [readExp_expText n.exp h]
  rfl

/-! ## Values -/

@[simp] theorem skipSpace_cons {c : Char} (h : isJsonSpace c = false) (cs : List Char) :
    skipSpace (c :: cs) = c :: cs := by
  unfold skipSpace
  exact List.dropWhile_cons_of_neg (by simp [h])

/-- A string begins with a quote. -/
theorem quoteString_cons (k : String) (cs : List Char) :
    quoteString k ++ cs = '"' :: (k.toList.flatMap escapeRune ++ '"' :: cs) := by
  unfold quoteString
  simp only [List.cons_append, List.append_assoc, List.nil_append]

/-- A key and its colon are read as they are written. -/
theorem readKey_quoteString (k : String) (cs : List Char) :
    readKey (quoteString k ++ ':' :: cs) = some (k, cs) := by
  unfold readKey
  rw [quoteString_cons, skipSpace_cons (by decide)]
  dsimp only
  rw [if_pos rfl, readString_flatMap, Option.bind_some, skipSpace_cons (by decide)]
  dsimp only
  rw [if_pos rfl, String.ofList_toList]

/-- The first character of a number. -/
theorem head_number (n : Number) : ∃ c cs, n.text = c :: cs ∧ (c = '-' ∨ c.isDigit = true) := by
  unfold Number.text
  cases n.neg with
  | true => exact ⟨'-', _, rfl, Or.inl rfl⟩
  | false =>
    have hdigit := isDigit_toDigits n.int
    cases hds : Nat.toDigits 10 n.int with
    | nil => exact absurd hds Nat.toDigits_ne_nil
    | cons d ds =>
      rw [hds] at hdigit
      exact ⟨d, _, rfl, Or.inr (hdigit d List.mem_cons_self)⟩

/-- A number begins like no other value. -/
theorem number_head_ne {c : Char} (h : c = '-' ∨ c.isDigit = true) :
    isJsonSpace c = false ∧ c ≠ '[' ∧ c ≠ '\x7b' ∧ c ≠ '"' ∧ c ≠ 'n' ∧ c ≠ 't' ∧ c ≠ 'f' := by
  have hne : ∀ c' : Char, c' ≠ '-' → c'.isDigit = false → c ≠ c' := by
    rintro c' hminus hdigit rfl
    rcases h with h | h
    · exact hminus h
    · rw [hdigit] at h
      cases h
  refine ⟨?_, hne _ (by decide) (by decide), hne _ (by decide) (by decide),
    hne _ (by decide) (by decide), hne _ (by decide) (by decide), hne _ (by decide) (by decide),
    hne _ (by decide) (by decide)⟩
  unfold isJsonSpace
  simp only [Bool.or_eq_false_iff, beq_eq_false_iff_ne]
  exact ⟨⟨⟨hne _ (by decide) (by decide), hne _ (by decide) (by decide)⟩,
    hne _ (by decide) (by decide)⟩, hne _ (by decide) (by decide)⟩

/-- A value does not begin with the end of an array. -/
theorem head_text (j : Json) : ∃ c cs, j.text = c :: cs ∧ isJsonSpace c = false ∧ c ≠ ']' := by
  cases j with
  | null => exact ⟨'n', _, rfl, by decide, by decide⟩
  | bool b => cases b <;> exact ⟨_, _, rfl, by decide, by decide⟩
  | num n =>
    obtain ⟨c, cs, htext, hc⟩ := head_number n
    refine ⟨c, cs, htext, (number_head_ne hc).1, ?_⟩
    rintro rfl
    rcases hc with hc | hc <;> exact absurd hc (by decide)
  | str s => exact ⟨'"', _, rfl, by decide, by decide⟩
  | arr es => cases es <;> exact ⟨'[', _, rfl, by decide, by decide⟩
  | obj fs => cases fs <;> exact ⟨'\x7b', _, rfl, by decide, by decide⟩

/-- A word is read as it is written. -/
theorem readWord_append (word : String) (j : Json) (cs : List Char) :
    readWord word j (word.toList ++ cs) = some (j, cs) := by
  unfold readWord
  rw [List.dropPrefix?_eq_some_iff.mpr ⟨word.toList, rfl, beq_self_eq_true _⟩]
  rfl

/-- What follows an element is read as it is written: the text is not empty, and no digit. -/
theorem head_elemsText (es : List Json) :
    ∃ c cs, Json.elemsText es = c :: cs ∧ ∀ rest, EndsNumber (c :: cs ++ rest) := by
  cases es with
  | nil => exact ⟨']', [], by rw [Json.elemsText], fun _ => endsNumber_cons (Or.inr (Or.inl rfl)) _⟩
  | cons e es => exact ⟨',', _, by rw [Json.elemsText], fun _ => endsNumber_cons (Or.inl rfl) _⟩

/-- The same of members. -/
theorem head_fieldsText (fs : List (String × Json)) :
    ∃ c cs, Json.fieldsText fs = c :: cs ∧ ∀ rest, EndsNumber (c :: cs ++ rest) := by
  cases fs with
  | nil =>
    exact ⟨'\x7d', [], by rw [Json.fieldsText], fun _ => endsNumber_cons (Or.inr (Or.inr rfl)) _⟩
  | cons f fs => exact ⟨',', _, by rw [Json.fieldsText], fun _ => endsNumber_cons (Or.inl rfl) _⟩

theorem endsNumber_elemsText (es : List Json) (cs : List Char) :
    EndsNumber (Json.elemsText es ++ cs) := by
  obtain ⟨c, ds, htext, h⟩ := head_elemsText es
  rw [htext]
  exact h cs

theorem endsNumber_fieldsText (fs : List (String × Json)) (cs : List Char) :
    EndsNumber (Json.fieldsText fs ++ cs) := by
  obtain ⟨c, ds, htext, h⟩ := head_fieldsText fs
  rw [htext]
  exact h cs

/-! **Values** are read as they are written, whatever follows. By induction on the tree, with the
rests of arrays and objects; the number of steps is bounded by the length of the text. -/

mutual

theorem readValue_text : ∀ (j : Json) {fuel depth : ℕ} {cs : List Char},
    j.text.length ≤ fuel → j.depth ≤ depth → EndsNumber cs →
    readValue fuel depth (j.text ++ cs) = some (j, cs)
  | j, 0, _, _, hfuel, _, _ => by
    obtain ⟨c, cs, htext, -⟩ := head_text j
    rw [htext] at hfuel
    cases hfuel
  | .null, fuel + 1, depth, cs, _, _, _ => by
    have hword := readWord_append "ull" .null cs
    have htext : Json.null.text ++ cs = 'n' :: ("ull".toList ++ cs) := by rw [Json.text]; rfl
    rw [htext, readValue, skipSpace_cons (by decide)]
    dsimp only
    rw [if_neg (by decide), if_neg (by decide), if_neg (by decide), if_pos rfl, hword]
  | .bool true, fuel + 1, depth, cs, _, _, _ => by
    have hword := readWord_append "rue" (.bool true) cs
    have htext : (Json.bool true).text ++ cs = 't' :: ("rue".toList ++ cs) := by rw [Json.text]; rfl
    rw [htext, readValue, skipSpace_cons (by decide)]
    dsimp only
    rw [if_neg (by decide), if_neg (by decide), if_neg (by decide), if_neg (by decide), if_pos rfl,
      hword]
  | .bool false, fuel + 1, depth, cs, _, _, _ => by
    have hword := readWord_append "alse" (.bool false) cs
    have htext : (Json.bool false).text ++ cs = 'f' :: ("alse".toList ++ cs) := by
      rw [Json.text]
      rfl
    rw [htext, readValue, skipSpace_cons (by decide)]
    dsimp only
    rw [if_neg (by decide), if_neg (by decide), if_neg (by decide), if_neg (by decide),
      if_neg (by decide), if_pos rfl, hword]
  | .num n, fuel + 1, depth, cs, _, _, hcs => by
    have hread := readNumber_text n hcs
    have htext : (Json.num n).text = n.text := by rw [Json.text]
    obtain ⟨c, ds, hhead, hc⟩ := head_number n
    obtain ⟨hspace, h₁, h₂, h₃, h₄, h₅, h₆⟩ := number_head_ne hc
    rw [htext]
    rw [hhead, List.cons_append] at hread ⊢
    rw [readValue, skipSpace_cons hspace]
    dsimp only
    rw [if_neg h₁, if_neg h₂, if_neg h₃, if_neg h₄, if_neg h₅, if_neg h₆, hread]
    rfl
  | .str s, fuel + 1, depth, cs, _, _, _ => by
    have hread := readString_flatMap s.toList cs
    rw [Json.text, quoteString_cons, readValue, skipSpace_cons (by decide)]
    dsimp only
    rw [if_neg (by decide), if_neg (by decide), if_pos rfl, hread, Option.map_some,
      String.ofList_toList]
  | .arr [], fuel + 1, depth, cs, _, hdepth, _ => by
    have hpos : depth ≠ 0 := by
      rw [Json.depth] at hdepth
      omega
    have htext : (Json.arr []).text ++ cs = '[' :: ']' :: cs := by rw [Json.text]; rfl
    rw [htext, readValue, skipSpace_cons (by decide)]
    dsimp only
    rw [if_pos rfl, if_neg hpos, skipSpace_cons (by decide)]
    rfl
  | .arr (e :: es), fuel + 1, depth, cs, hfuel, hdepth, hcs => by
    rw [Json.depth, Json.elemsDepth] at hdepth
    rw [Json.text, List.length_cons, List.length_append] at hfuel
    have hvalue : readValue fuel (depth - 1) (e.text ++ (Json.elemsText es ++ cs)) =
        some (e, Json.elemsText es ++ cs) :=
      readValue_text e (by omega) (by omega) (endsNumber_elemsText es cs)
    have helems : readElems fuel (depth - 1) (Json.elemsText es ++ cs) = some (es, cs) :=
      readElems_text es (by omega) (by omega)
    obtain ⟨c, ds, hhead, hspace, hne⟩ := head_text e
    have htext : (Json.arr (e :: es)).text ++ cs =
        '[' :: c :: (ds ++ (Json.elemsText es ++ cs)) := by
      rw [Json.text, hhead]
      simp only [List.cons_append, List.append_assoc]
    rw [hhead, List.cons_append] at hvalue
    rw [htext, readValue, skipSpace_cons (by decide)]
    dsimp only
    rw [if_pos rfl, if_neg (by omega), skipSpace_cons hspace]
    dsimp only
    rw [if_neg hne, hvalue]
    dsimp only [Option.bind_eq_bind, Option.bind_some]
    rw [helems]
    rfl
  | .obj [], fuel + 1, depth, cs, _, hdepth, _ => by
    have hpos : depth ≠ 0 := by
      rw [Json.depth] at hdepth
      omega
    have htext : (Json.obj []).text ++ cs = '\x7b' :: '\x7d' :: cs := by rw [Json.text]; rfl
    rw [htext, readValue, skipSpace_cons (by decide)]
    dsimp only
    rw [if_neg (by decide), if_pos rfl, if_neg hpos, skipSpace_cons (by decide)]
    rfl
  | .obj ((k, v) :: fs), fuel + 1, depth, cs, hfuel, hdepth, _ => by
    rw [Json.depth, Json.fieldsDepth] at hdepth
    rw [Json.text, List.length_cons, List.length_append, List.length_cons, List.length_append]
      at hfuel
    have hkey := readKey_quoteString k (v.text ++ (Json.fieldsText fs ++ cs))
    have hvalue : readValue fuel (depth - 1) (v.text ++ (Json.fieldsText fs ++ cs)) =
        some (v, Json.fieldsText fs ++ cs) :=
      readValue_text v (by omega) (by omega) (endsNumber_fieldsText fs cs)
    have hfields : readFields fuel (depth - 1) (Json.fieldsText fs ++ cs) = some (fs, cs) :=
      readFields_text fs (by omega) (by omega)
    have htext : (Json.obj ((k, v) :: fs)).text ++ cs =
        '\x7b' :: (quoteString k ++ ':' :: (v.text ++ (Json.fieldsText fs ++ cs))) := by
      rw [Json.text]
      simp only [List.cons_append, List.append_assoc]
    rw [htext, readValue, skipSpace_cons (by decide)]
    rw [quoteString_cons] at hkey ⊢
    dsimp only
    rw [if_neg (by decide), if_pos rfl, if_neg (by omega), skipSpace_cons (by decide)]
    dsimp only
    rw [if_neg (by decide), hkey]
    dsimp only [Option.bind_eq_bind, Option.bind_some]
    rw [hvalue]
    dsimp only [Option.bind_some]
    rw [hfields]
    rfl

theorem readElems_text : ∀ (es : List Json) {fuel depth : ℕ} {cs : List Char},
    (Json.elemsText es).length ≤ fuel → Json.elemsDepth es ≤ depth →
    readElems fuel depth (Json.elemsText es ++ cs) = some (es, cs)
  | es, 0, _, _, hfuel, _ => by
    obtain ⟨c, cs, htext, -⟩ := head_elemsText es
    rw [htext] at hfuel
    cases hfuel
  | [], fuel + 1, depth, cs, _, _ => by
    have htext : Json.elemsText [] ++ cs = ']' :: cs := by rw [Json.elemsText]; rfl
    rw [htext, readElems, skipSpace_cons (by decide)]
    rfl
  | e :: es, fuel + 1, depth, cs, hfuel, hdepth => by
    rw [Json.elemsDepth] at hdepth
    rw [Json.elemsText, List.length_cons, List.length_append] at hfuel
    have hvalue : readValue fuel depth (e.text ++ (Json.elemsText es ++ cs)) =
        some (e, Json.elemsText es ++ cs) :=
      readValue_text e (by omega) (by omega) (endsNumber_elemsText es cs)
    have helems : readElems fuel depth (Json.elemsText es ++ cs) = some (es, cs) :=
      readElems_text es (by omega) (by omega)
    have htext : Json.elemsText (e :: es) ++ cs = ',' :: (e.text ++ (Json.elemsText es ++ cs)) := by
      rw [Json.elemsText]
      simp only [List.cons_append, List.append_assoc]
    rw [htext, readElems, skipSpace_cons (by decide)]
    dsimp only
    rw [if_neg (by decide), if_pos rfl, hvalue]
    dsimp only [Option.bind_eq_bind, Option.bind_some]
    rw [helems]
    rfl

theorem readFields_text : ∀ (fs : List (String × Json)) {fuel depth : ℕ} {cs : List Char},
    (Json.fieldsText fs).length ≤ fuel → Json.fieldsDepth fs ≤ depth →
    readFields fuel depth (Json.fieldsText fs ++ cs) = some (fs, cs)
  | fs, 0, _, _, hfuel, _ => by
    obtain ⟨c, cs, htext, -⟩ := head_fieldsText fs
    rw [htext] at hfuel
    cases hfuel
  | [], fuel + 1, depth, cs, _, _ => by
    have htext : Json.fieldsText [] ++ cs = '\x7d' :: cs := by rw [Json.fieldsText]; rfl
    rw [htext, readFields, skipSpace_cons (by decide)]
    rfl
  | (k, v) :: fs, fuel + 1, depth, cs, hfuel, hdepth => by
    rw [Json.fieldsDepth] at hdepth
    rw [Json.fieldsText, List.length_cons, List.length_append, List.length_cons, List.length_append]
      at hfuel
    have hkey := readKey_quoteString k (v.text ++ (Json.fieldsText fs ++ cs))
    have hvalue : readValue fuel depth (v.text ++ (Json.fieldsText fs ++ cs)) =
        some (v, Json.fieldsText fs ++ cs) :=
      readValue_text v (by omega) (by omega) (endsNumber_fieldsText fs cs)
    have hfields : readFields fuel depth (Json.fieldsText fs ++ cs) = some (fs, cs) :=
      readFields_text fs (by omega) (by omega)
    have htext : Json.fieldsText ((k, v) :: fs) ++ cs =
        ',' :: (quoteString k ++ ':' :: (v.text ++ (Json.fieldsText fs ++ cs))) := by
      rw [Json.fieldsText]
      simp only [List.cons_append, List.append_assoc]
    rw [htext, readFields, skipSpace_cons (by decide)]
    dsimp only
    rw [if_neg (by decide), if_pos rfl, hkey]
    dsimp only [Option.bind_eq_bind, Option.bind_some]
    rw [hvalue]
    dsimp only [Option.bind_some]
    rw [hfields]
    rfl

end

/-! ## Other spellings -/

/-- A text that is read as a tree, whatever follows it. -/
structure ReadsAs (text : List Char) (j : Json) : Prop where
  head : ∃ c cs, text = c :: cs ∧ isJsonSpace c = false ∧ c ≠ ']'
  read : ∀ {fuel depth : ℕ} {cs : List Char}, text.length ≤ fuel → j.depth ≤ depth →
    EndsNumber cs → readValue fuel depth (text ++ cs) = some (j, cs)

theorem readsAs_text (j : Json) : ReadsAs j.text j := ⟨head_text j, readValue_text j⟩

/-- A string with any spelling of its characters. -/
theorem readsAs_str {body : List Char} {s : String}
    (h : ∀ cs, readString none (body ++ '"' :: cs) = some (s.toList, cs)) :
    ReadsAs ('"' :: (body ++ ['"'])) (.str s) := by
  refine ⟨⟨'"', _, rfl, by decide, by decide⟩, fun {fuel} {depth} {cs} hfuel _ _ => ?_⟩
  cases fuel with
  | zero => cases hfuel
  | succ fuel =>
    rw [List.cons_append, List.append_assoc, List.singleton_append, readValue,
      skipSpace_cons (by decide)]
    dsimp only
    rw [if_neg (by decide), if_neg (by decide), if_pos rfl, h, Option.map_some,
      String.ofList_toList]

/-- What follows an element of an array, from the texts of the other elements. -/
def tailText : List (List Char) → List Char
  | [] => [']']
  | t :: ts => ',' :: (t ++ tailText ts)

theorem endsNumber_tailText (ts : List (List Char)) (cs : List Char) :
    EndsNumber (tailText ts ++ cs) := by
  cases ts with
  | nil => exact endsNumber_cons (Or.inr (Or.inl rfl)) _
  | cons t ts => exact endsNumber_cons (Or.inl rfl) _

/-- The rest of an array is read element by element. -/
theorem readElems_tailText {l : List (List Char × Json)} (h : ∀ e ∈ l, ReadsAs e.1 e.2)
    {fuel depth : ℕ} {cs : List Char} (hfuel : (tailText (l.map Prod.fst)).length ≤ fuel)
    (hdepth : Json.elemsDepth (l.map Prod.snd) ≤ depth) :
    readElems fuel depth (tailText (l.map Prod.fst) ++ cs) = some (l.map Prod.snd, cs) := by
  induction l generalizing fuel with
  | nil =>
    cases fuel with
    | zero => cases hfuel
    | succ fuel =>
      show readElems (fuel + 1) depth (']' :: cs) = some ([], cs)
      rw [readElems, skipSpace_cons (by decide)]
      rfl
  | cons e l ih =>
    rw [List.map_cons, tailText, List.length_cons, List.length_append] at hfuel
    rw [List.map_cons, Json.elemsDepth] at hdepth
    cases fuel with
    | zero => omega
    | succ fuel =>
      have hvalue : readValue fuel depth (e.1 ++ (tailText (l.map Prod.fst) ++ cs)) =
          some (e.2, tailText (l.map Prod.fst) ++ cs) :=
        (h e List.mem_cons_self).read (by omega) (by omega)
          (endsNumber_tailText (l.map Prod.fst) cs)
      have helems : readElems fuel depth (tailText (l.map Prod.fst) ++ cs) =
          some (l.map Prod.snd, cs) :=
        ih (fun e' he' => h e' (List.mem_cons_of_mem e he')) (by omega) (by omega)
      have htext : tailText ((e :: l).map Prod.fst) ++ cs =
          ',' :: (e.1 ++ (tailText (l.map Prod.fst) ++ cs)) := by
        rw [List.map_cons, tailText, List.cons_append, List.append_assoc]
      rw [htext, readElems, skipSpace_cons (by decide)]
      dsimp only
      rw [if_neg (by decide), if_pos rfl, hvalue]
      dsimp only [Option.bind_eq_bind, Option.bind_some]
      rw [helems]
      rfl

/-- **Arrays** of texts that are read. -/
theorem readsAs_arr {e : List Char × Json} {l : List (List Char × Json)} (he : ReadsAs e.1 e.2)
    (h : ∀ e ∈ l, ReadsAs e.1 e.2) :
    ReadsAs ('[' :: (e.1 ++ tailText (l.map Prod.fst))) (.arr (e.2 :: l.map Prod.snd)) := by
  refine ⟨⟨'[', _, rfl, by decide, by decide⟩, fun {fuel} {depth} {cs} hfuel hdepth _ => ?_⟩
  rw [List.length_cons, List.length_append] at hfuel
  rw [Json.depth, Json.elemsDepth] at hdepth
  cases fuel with
  | zero => omega
  | succ fuel =>
    have hvalue : readValue fuel (depth - 1) (e.1 ++ (tailText (l.map Prod.fst) ++ cs)) =
        some (e.2, tailText (l.map Prod.fst) ++ cs) :=
      he.read (by omega) (by omega) (endsNumber_tailText (l.map Prod.fst) cs)
    have helems : readElems fuel (depth - 1) (tailText (l.map Prod.fst) ++ cs) =
        some (l.map Prod.snd, cs) :=
      readElems_tailText h (by omega) (by omega)
    obtain ⟨c, ds, hhead, hspace, hne⟩ := he.head
    rw [hhead, List.cons_append] at hvalue
    have htext : '[' :: (e.1 ++ tailText (l.map Prod.fst)) ++ cs =
        '[' :: c :: (ds ++ (tailText (l.map Prod.fst) ++ cs)) := by
      rw [hhead]
      simp only [List.cons_append, List.append_assoc]
    rw [htext, readValue, skipSpace_cons (by decide)]
    dsimp only
    rw [if_pos rfl, if_neg (by omega), skipSpace_cons hspace]
    dsimp only
    rw [if_neg hne, hvalue]
    dsimp only [Option.bind_eq_bind, Option.bind_some]
    rw [helems]
    rfl

/-- The bytes of a text that is read as a tree. -/
theorem ReadsAs.parseJson {text : List Char} {j : Json} (h : ReadsAs text j)
    (hdepth : j.depth ≤ maxNestingDepth) : parseJson (utf8Bytes text) = some j := by
  have hread : readValue (text.length + 1) maxNestingDepth (text ++ []) = some (j, []) :=
    h.read (Nat.le_succ text.length) hdepth endsNumber_nil
  rw [List.append_nil] at hread
  unfold Go.parseJson
  rw [runes_utf8Bytes, hread]
  rfl

/-- **Round trip.** The bytes of a tree are a text of this tree. -/
theorem parseJson_text {j : Json} (h : j.depth ≤ maxNestingDepth) :
    parseJson (utf8Bytes j.text) = some j := (readsAs_text j).parseJson h

end Go
