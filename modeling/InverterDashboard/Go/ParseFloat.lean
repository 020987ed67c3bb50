import InverterDashboard.Go.Float
import InverterDashboard.Go.Text

set_option relaxedAutoImplicit false
set_option autoImplicit false

/-!
# `strconv.ParseFloat`

The grammar of floating-point texts: an optional sign, then a spelled infinity or NaN, or a decimal
or hexadecimal mantissa with an exponent, with underscores between digits. As for all of `F64`, the
rounding of the result is not modelled.

## Main definitions

* `Go.Mantissa`, `Go.readMantissa`, `Go.readExponent` — the parts of `readFloat`.
* `Go.underscoreOK` — where underscores may stand.
* `Go.parseFloat` — the result, `none` for a syntax error and for a value out of range.

## Main results

* `Go.parseFloat_ofRat` — a value that `readFloat` found is returned when it is in range.
-/

namespace Go

/-! ## Digits -/

/-- The value of a digit in a base of at most 16. -/
def digitValue? (hex : Bool) (c : Char) : Option ℕ :=
  if c.isDigit then some (c.toNat - '0'.toNat)
  else if hex && 'a' ≤ c.toLower && c.toLower ≤ 'f' then some (c.toLower.toNat - 'a'.toNat + 10)
  else none

/-- What `underscoreOK` has seen last: the start, a digit or a base, an underscore, or anything
else. -/
inductive Seen where
  | start
  | digit
  | underscore
  | other
  deriving DecidableEq

/-- The loop of `underscoreOK`. -/
def underscoresOK (hex : Bool) : Seen → List Char → Bool
  | seen, [] => seen != .underscore
  | seen, c :: cs =>
    if (digitValue? hex c).isSome then underscoresOK hex .digit cs
    else if c = '_' then seen == .digit && underscoresOK hex .underscore cs
    else seen != .underscore && underscoresOK hex .other cs

/-- A text without its sign, and whether it is negative. -/
def cutSign : List Char → Bool × List Char
  | '-' :: cs => (true, cs)
  | '+' :: cs => (false, cs)
  | cs => (false, cs)

/-- `underscoreOK`, on a text without its sign. -/
def underscoreOK : List Char → Bool
  | '0' :: c :: cs =>
    if c.toLower = 'x' then underscoresOK true .digit cs
    else if c.toLower = 'b' || c.toLower = 'o' then underscoresOK false .digit cs
    else underscoresOK false .start ('0' :: c :: cs)
  | cs => underscoresOK false .start cs

/-! ## Mantissa and exponent -/

/-- A mantissa: its digits as one number, how many of them are behind the point, whether there was
a point, a digit, an underscore. -/
structure Mantissa where
  digits : ℕ := 0
  frac : ℕ := 0
  sawDot : Bool := false
  sawDigits : Bool := false
  underscores : Bool := false

/-- The loop over the mantissa, which stops at the first other character. -/
def readMantissa (hex : Bool) : Mantissa → List Char → Mantissa × List Char
  | m, [] => (m, [])
  | m, c :: cs =>
    if c = '_' then readMantissa hex { m with underscores := true } cs
    else if c = '.' then
      if m.sawDot then (m, c :: cs) else readMantissa hex { m with sawDot := true } cs
    else
      match digitValue? hex c with
      | some d =>
        readMantissa hex
          { m with
            digits := m.digits * (if hex then 16 else 10) + d
            frac := if m.sawDot then m.frac + 1 else m.frac
            sawDigits := true } cs
      | none => (m, c :: cs)

/-- The loop over the digits of an exponent, which stop counting at 10000. -/
def readExponent (e : ℕ) (underscores : Bool) : List Char → (ℕ × Bool) × List Char
  | [] => ((e, underscores), [])
  | c :: cs =>
    if c = '_' then readExponent e true cs
    else
      match digitValue? false c with
      | some d => readExponent (if e < 10000 then e * 10 + d else e) underscores cs
      | none => ((e, underscores), c :: cs)

/-- The optional exponent behind a mantissa: its value, whether it had an underscore, and the
rest. A hexadecimal mantissa needs one. -/
def cutExponent (hex : Bool) : List Char → Option ((ℤ × Bool) × List Char)
  | [] => if hex then none else some ((0, false), [])
  | c :: cs =>
    if c.toLower = (if hex then 'p' else 'e') then
      let (neg, digits) := cutSign cs
      match digits with
      | [] => none
      | d :: _ =>
        if d.isDigit then
          let r := readExponent 0 false digits
          some ((if neg then -(r.1.1 : ℤ) else r.1.1, r.1.2), r.2)
        else none
    else if hex then none else some ((0, false), c :: cs)

/-- `readFloat` on a text without its sign, which has to be used up. -/
def readFloat (cs : List Char) : Option ℚ :=
  let (hex, body) : Bool × List Char :=
    match cs with
    | '0' :: x :: c :: rest => if x.toLower = 'x' then (true, c :: rest) else (false, cs)
    | _ => (false, cs)
  let (m, rest) := readMantissa hex {} body
  if !m.sawDigits then none
  else do
    let ((e, under), rest) ← cutExponent hex rest
    if rest.isEmpty && (!(m.underscores || under) || underscoreOK cs) then
      some (if hex then m.digits * (16 : ℚ)⁻¹ ^ m.frac * (2 : ℚ) ^ e
        else m.digits * (10 : ℚ)⁻¹ ^ m.frac * (10 : ℚ) ^ e)
    else none

/-! ## The result -/

/-- The spelled values, in any case. -/
def special (cs : List Char) : Option (Bool → F64) :=
  let word := String.ofList (cs.map Char.toLower)
  if word = "inf" || word = "infinity" then some F64.inf else none

/-- `ParseFloat(s, 64)`: NaN takes no sign, and a value out of range is an error. -/
def parseFloat (s : String) : Option F64 :=
  let (neg, body) := cutSign s.toList
  if toLower s = "nan" then some .nan
  else
    match special body with
    | some value => some (value neg)
    | none => do
      let q ← readFloat body
      match F64.ofRat (if neg then -q else q) with
      | .fin q => some (.fin q)
      | _ => none

/-- What was read is returned when it is in range. -/
theorem parseFloat_ofRat {s : String} {q : ℚ} (hnan : toLower s ≠ "nan")
    (hspecial : special (cutSign s.toList).2 = none)
    (hread : readFloat (cutSign s.toList).2 = some q)
    (hrange : F64.ofRat (if (cutSign s.toList).1 then -q else q) =
      .fin (if (cutSign s.toList).1 then -q else q)) :
    parseFloat s = some (.fin (if (cutSign s.toList).1 then -q else q)) := by
  unfold parseFloat
  simp only [hnan, hspecial, hread, hrange, if_false, Option.bind_eq_bind, Option.bind_some]

example : parseFloat "-1_2.5e1" = some (.fin (-125)) := by decide +kernel
example : parseFloat "0x1.8p1" = some (.fin 3) := by decide +kernel
example : parseFloat "1e400" = none := by decide +kernel
example : parseFloat "1__2" = none := by decide +kernel

end Go
