import Mathlib.Data.List.Infix
import Mathlib.Tactic

set_option relaxedAutoImplicit false
set_option autoImplicit false

/-!
# The parts of `strings`, `strconv` and `fmt` the dashboard uses

Texts are handled as lists of characters. Strings of the model are valid Unicode, as everything
`encoding/json` decodes is.

## Main definitions

* `Go.trimSpace`, `toLower`, `hasPrefix`, `hasSuffix`, `containsText` — of `strings`.
* `Go.atoi`, `Go.itoa`, `Go.twoDigits` — `strconv.Atoi`, `strconv.Itoa` and the verb `%02d`.
-/

namespace Go

/-- `unicode.IsSpace`. -/
def isSpace (c : Char) : Bool :=
  let n := c.toNat
  (9 ≤ n && n ≤ 13) || n == 32 || n == 0x85 || n == 0xA0 || n == 0x1680 ||
    (0x2000 ≤ n && n ≤ 0x200A) || n == 0x2028 || n == 0x2029 || n == 0x202F || n == 0x205F ||
    n == 0x3000

/-- `strings.TrimSpace`. -/
def trimSpace (s : String) : String :=
  String.ofList (((s.toList.dropWhile isSpace).reverse.dropWhile isSpace).reverse)

/-- `strings.ToLower` on the ASCII letters. The texts it is compared with are ASCII words that
no other letter folds to. -/
def toLower (s : String) : String := String.ofList (s.toList.map Char.toLower)

/-- `strings.HasPrefix`. -/
def hasPrefix (s p : String) : Bool := p.toList.isPrefixOf s.toList

/-- `strings.HasSuffix`. -/
def hasSuffix (s p : String) : Bool := p.toList.isSuffixOf s.toList

/-- `strings.TrimPrefix`. -/
def trimPrefix (s p : String) : String :=
  if hasPrefix s p then String.ofList (s.toList.drop p.toList.length) else s

/-- `strings.Contains`. -/
def containsText (s p : String) : Bool := s.toList.tails.any fun t => p.toList.isPrefixOf t

/-- The value of a digit string, most significant digit first; `none` on any other character
and on the empty text. -/
def digitsValue (cs : List Char) : Option ℕ :=
  if cs.isEmpty || !cs.all Char.isDigit then none
  else some (cs.foldl (fun n c => 10 * n + (c.toNat - '0'.toNat)) 0)

/-- `strconv.Atoi` on a 64-bit target. -/
def atoi (s : String) : Option ℤ :=
  let v : Option ℤ :=
    match s.toList with
    | '-' :: cs => (digitsValue cs).map fun n => -(n : ℤ)
    | '+' :: cs => (digitsValue cs).map fun n => (n : ℤ)
    | cs => (digitsValue cs).map fun n => (n : ℤ)
  v.filter fun n => -(2 : ℤ) ^ 63 ≤ n && n < (2 : ℤ) ^ 63

/-- `strconv.Itoa`. -/
def itoa (n : ℤ) : String := toString n

/-- The verb `%02d` on a number without sign. -/
def twoDigits (n : ℕ) : String := if n < 10 then "0" ++ toString n else toString n

end Go
