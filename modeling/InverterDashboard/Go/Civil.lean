import InverterDashboard.Go.Text

set_option relaxedAutoImplicit false
set_option autoImplicit false

/-!
# Calendar dates and RFC 3339

Seconds after the Unix epoch as dates of the Gregorian calendar in UTC, written and read in the
layout of RFC 3339. The reader is the strict one that `time.Parse` tries first for this layout.

## Main definitions

* `Go.DateTime`, `Go.ofUnix`, `Go.toUnix` — dates, and the seconds they stand for.
* `Go.fixedDigits`, `Go.formatRFC3339` — `Format(time.RFC3339)` in UTC.
* `Go.parseRFC3339` — `time.Parse(time.RFC3339Nano, s)`, in nanoseconds.

## Main results

* `Go.toUnix_ofUnix` — a second is found again from its date.
* `Go.ofUnix_valid` — its fields are those of a date in the calendar.
* `Go.parseRFC3339_formatRFC3339` — and from its text, up to the year 9999.
-/

namespace Go

/-! ## The calendar -/

/-- A date with the time of day. -/
structure DateTime where
  year : ℕ
  month : ℕ
  day : ℕ
  hour : ℕ
  minute : ℕ
  second : ℕ
  deriving DecidableEq

/-- `isLeap`. -/
def isLeap (year : ℕ) : Bool := year % 4 == 0 && (year % 100 != 0 || year % 400 == 0)

/-- The lengths of the months. -/
def monthLengths (leap : Bool) : List ℕ :=
  [31, if leap then 29 else 28, 31, 30, 31, 30, 31, 31, 30, 31, 30, 31]

/-- `daysIn`. -/
def daysIn (year month : ℕ) : ℕ := (monthLengths (isLeap year)).getD (month - 1) 0

/-- The days from the first of January of the year 1 to that of another year. -/
def daysBeforeYear (year : ℕ) : ℕ :=
  365 * (year - 1) + (year - 1) / 4 - (year - 1) / 100 + (year - 1) / 400

/-- The days of a year before a month. -/
def daysBeforeMonth (leap : Bool) (month : ℕ) : ℕ := ((monthLengths leap).take (month - 1)).sum

/-- The days from the first of January of the year 1 to the Unix epoch. -/
def epochDays : ℕ := 719162

/-- The seconds after the Unix epoch of a date. -/
def toUnix (t : DateTime) : ℤ :=
  ((daysBeforeYear t.year + daysBeforeMonth (isLeap t.year) t.month + (t.day - 1) : ℕ) -
      (epochDays : ℤ)) * 86400 + (t.hour * 3600 + t.minute * 60 + t.second : ℕ)

/-- The year of a day, and the day of the year from 0: whole cycles of 400, 100 and 4 years are
taken away, and the last day of a cycle belongs to its last year. -/
def yearOf (d : ℕ) : ℕ × ℕ :=
  let n₄₀₀ := d / 146097
  let d := d % 146097
  let n₁₀₀ := d / 36524 - d / 36524 / 4
  let d := d - 36524 * n₁₀₀
  let n₄ := d / 1461
  let d := d - 1461 * n₄
  let n₁ := d / 365 - d / 365 / 4
  (1 + 400 * n₄₀₀ + 100 * n₁₀₀ + 4 * n₄ + n₁, d - 365 * n₁)

/-- The month of a day of the year, from the months with these lengths, and the day of the month. -/
def monthOf : ℕ → List ℕ → ℕ → ℕ × ℕ
  | month, [], d => (month, d + 1)
  | month, n :: ns, d => if d < n then (month, d + 1) else monthOf (month + 1) ns (d - n)

/-- The date of a day of a year, with the time of day of a second. -/
def dateOf (year : ℕ × ℕ) (n : ℕ) : DateTime where
  year := year.1
  month := (monthOf 1 (monthLengths (isLeap year.1)) year.2).1
  day := (monthOf 1 (monthLengths (isLeap year.1)) year.2).2
  hour := n % 86400 / 3600
  minute := n % 3600 / 60
  second := n % 60

/-- The date of a second at or after the Unix epoch. -/
def ofUnix (n : ℕ) : DateTime := dateOf (yearOf (n / 86400 + epochDays)) n

/-- The number of days of a year. -/
def yearLength (leap : Bool) : ℕ := if leap then 366 else 365

/-- **Years.** The days before the year and the day of the year make up the day. -/
theorem yearOf_spec (d : ℕ) :
    daysBeforeYear (yearOf d).1 + (yearOf d).2 = d ∧
      (yearOf d).2 < yearLength (isLeap (yearOf d).1) ∧ 0 < (yearOf d).1 := by
  obtain ⟨a, r, hr, hd⟩ : ∃ a r, r < 146097 ∧ d = 146097 * a + r :=
    ⟨d / 146097, d % 146097, Nat.mod_lt _ (by norm_num), by omega⟩
  have ha : d / 146097 = a := by omega
  have hmod : d % 146097 = r := by omega
  unfold yearOf
  rw [ha, hmod]
  dsimp only
  obtain ⟨b, hb, hb3⟩ : ∃ b, r / 36524 - r / 36524 / 4 = b ∧ b ≤ 3 := ⟨_, rfl, by omega⟩
  rw [hb]
  obtain ⟨r₁, hr₁⟩ : ∃ r₁, r - 36524 * b = r₁ := ⟨_, rfl⟩
  have hr₁lt : r₁ < 36525 := by omega
  have hrsum : r = 36524 * b + r₁ := by omega
  have hlast : r₁ = 36524 → b = 3 := by omega
  rw [hr₁]
  obtain ⟨c, hc⟩ : ∃ c, r₁ / 1461 = c := ⟨_, rfl⟩
  rw [hc]
  obtain ⟨r₂, hr₂⟩ : ∃ r₂, r₁ - 1461 * c = r₂ := ⟨_, rfl⟩
  have hr₂lt : r₂ < 1461 := by omega
  have hr₁sum : r₁ = 1461 * c + r₂ := by omega
  have hc24 : c ≤ 24 := by omega
  rw [hr₂]
  obtain ⟨e, he, he3⟩ : ∃ e, r₂ / 365 - r₂ / 365 / 4 = e ∧ e ≤ 3 := ⟨_, rfl, by omega⟩
  rw [he]
  have hr₂sum : 365 * e ≤ r₂ := by omega
  have hy : 1 + 400 * a + 100 * b + 4 * c + e - 1 = 400 * a + 100 * b + 4 * c + e := by omega
  refine ⟨?_, ?_, by omega⟩
  · unfold daysBeforeYear
    rw [hy]
    have h₄ : (400 * a + 100 * b + 4 * c + e) / 4 = 100 * a + 25 * b + c := by omega
    have h₁₀₀ : (400 * a + 100 * b + 4 * c + e) / 100 = 4 * a + b := by omega
    have h₄₀₀ : (400 * a + 100 * b + 4 * c + e) / 400 = a := by omega
    rw [h₄, h₁₀₀, h₄₀₀]
    omega
  · -- the last day of a cycle of four years is in a leap year, but for the cycles of a hundred
    by_cases hlong : r₂ - 365 * e = 365
    · have he : e = 3 := by omega
      have hleap : isLeap (1 + 400 * a + 100 * b + 4 * c + e) = true := by
        unfold isLeap
        simp only [Bool.and_eq_true, Bool.or_eq_true, beq_iff_eq, bne_iff_ne, ne_eq]
        refine ⟨by omega, ?_⟩
        by_cases hcent : c = 24
        · right
          have hfull : r₁ = 36524 := by omega
          have hb : b = 3 := hlast hfull
          omega
        · left
          omega
      rw [hleap]
      show r₂ - 365 * e < 366
      omega
    · have hshort : r₂ - 365 * e < 365 := by omega
      unfold yearLength
      split_ifs <;> omega

/-- The months are passed one after the other.

**Proof sketch.** By induction on the lengths: a day that is not in the first month is one of the
others, as many days later. -/
theorem monthOf_eq (month : ℕ) {ns : List ℕ} {d : ℕ} (h : d < ns.sum) :
    ∃ k < ns.length, (monthOf month ns d).1 = month + k ∧
      (ns.take k).sum + ((monthOf month ns d).2 - 1) = d ∧ 1 ≤ (monthOf month ns d).2 ∧
      (monthOf month ns d).2 ≤ ns.getD k 0 := by
  induction ns generalizing month d with
  | nil => exact absurd h (Nat.not_lt_zero d)
  | cons n ns ih =>
    rw [monthOf]
    split_ifs with hlt
    · exact ⟨0, Nat.succ_pos _, rfl, by simp, by simp, hlt⟩
    · rw [List.sum_cons] at h
      obtain ⟨k, hk, hmonth, hsum, hpos, hle⟩ := ih (month + 1) (d := d - n) (by omega)
      refine ⟨k + 1, Nat.succ_lt_succ hk, by omega, ?_, hpos, hle⟩
      rw [List.take_succ_cons, List.sum_cons]
      omega

/-- **Months.** The days before the month and the day of the month make up the day of the year. -/
theorem monthOf_spec (leap : Bool) {d : ℕ} (h : d < yearLength leap) :
    daysBeforeMonth leap (monthOf 1 (monthLengths leap) d).1 +
        ((monthOf 1 (monthLengths leap) d).2 - 1) = d ∧
      1 ≤ (monthOf 1 (monthLengths leap) d).1 ∧ (monthOf 1 (monthLengths leap) d).1 ≤ 12 ∧
      1 ≤ (monthOf 1 (monthLengths leap) d).2 ∧
      (monthOf 1 (monthLengths leap) d).2 ≤
        (monthLengths leap).getD ((monthOf 1 (monthLengths leap) d).1 - 1) 0 := by
  have hsum : (monthLengths leap).sum = yearLength leap := by cases leap <;> rfl
  have hlen : (monthLengths leap).length = 12 := rfl
  obtain ⟨k, hk, hmonth, hdays, hpos, hle⟩ := monthOf_eq 1 (hsum ▸ h)
  have hpred : 1 + k - 1 = k := by omega
  unfold daysBeforeMonth
  rw [hmonth, hpred]
  exact ⟨hdays, by omega, by omega, hpos, hle⟩

/-- The seconds of a day of a year. -/
theorem toUnix_dateOf {year : ℕ × ℕ} (h : year.2 < yearLength (isLeap year.1)) (n : ℕ) :
    toUnix (dateOf year n) =
      ((daysBeforeYear year.1 + year.2 : ℕ) - (epochDays : ℤ)) * 86400 + (n % 86400 : ℕ) := by
  obtain ⟨hmonth, -⟩ := monthOf_spec _ h
  have hclock : n % 86400 / 3600 * 3600 + n % 3600 / 60 * 60 + n % 60 = n % 86400 := by omega
  unfold toUnix dateOf
  dsimp only
  rw [Nat.add_assoc, hmonth, hclock]

/-- **Seconds.** A second is found again from its date. -/
theorem toUnix_ofUnix (n : ℕ) : toUnix (ofUnix n) = n := by
  obtain ⟨hyear, hlt, -⟩ := yearOf_spec (n / 86400 + epochDays)
  unfold ofUnix
  rw [toUnix_dateOf hlt, hyear]
  generalize epochDays = e
  push_cast
  omega

/-- The fields of a date in the calendar. -/
structure DateTime.Valid (t : DateTime) : Prop where
  year : 1 ≤ t.year
  month : 1 ≤ t.month ∧ t.month ≤ 12
  day : 1 ≤ t.day ∧ t.day ≤ daysIn t.year t.month
  hour : t.hour ≤ 23
  minute : t.minute ≤ 59
  second : t.second ≤ 59

theorem dateOf_valid {year : ℕ × ℕ} (hpos : 1 ≤ year.1) (h : year.2 < yearLength (isLeap year.1))
    (n : ℕ) : (dateOf year n).Valid := by
  obtain ⟨-, h₁, h₂, h₃, h₄⟩ := monthOf_spec _ h
  exact ⟨hpos, ⟨h₁, h₂⟩, ⟨h₃, h₄⟩, by show n % 86400 / 3600 ≤ 23; omega,
    by show n % 3600 / 60 ≤ 59; omega, by show n % 60 ≤ 59; omega⟩

theorem ofUnix_valid (n : ℕ) : (ofUnix n).Valid := by
  obtain ⟨-, hlt, hpos⟩ := yearOf_spec (n / 86400 + epochDays)
  exact dateOf_valid hpos hlt n

/-- A date in the calendar has at most 31 days in its month. -/
theorem DateTime.Valid.day_le {t : DateTime} (h : t.Valid) : t.day ≤ 31 := by
  have hlen : ∀ leap : Bool, ∀ m < 12, (monthLengths leap).getD m 0 ≤ 31 := by decide
  have hmonth := h.month
  exact h.day.2.trans (hlen _ _ (by omega))

/-- The last second of the year 9999. -/
def lastFourDigitSecond : ℕ := 253402300799

/-- Up to then the year has four digits. -/
theorem year_le (n : ℕ) (h : n ≤ lastFourDigitSecond) : (ofUnix n).year ≤ 9999 := by
  obtain ⟨hyear, -, -⟩ := yearOf_spec (n / 86400 + epochDays)
  have hdays : n / 86400 ≤ 2932896 := by
    unfold lastFourDigitSecond at h
    omega
  show (yearOf (n / 86400 + epochDays)).1 ≤ 9999
  unfold daysBeforeYear epochDays at hyear
  unfold epochDays
  omega

/-! ## Texts -/

/-- A number in a given number of digits. -/
def fixedDigits : ℕ → ℕ → List Char
  | 0, _ => []
  | w + 1, n => fixedDigits w (n / 10) ++ [Nat.digitChar (n % 10)]

/-- `appendInt(b, n, width)`: a number that is too long is not cut. -/
def appendInt (n width : ℕ) : List Char :=
  if n < 10 ^ width then fixedDigits width n else Nat.toDigits 10 n

/-- `Format(time.RFC3339)` of a time in UTC. -/
def formatRFC3339 (t : DateTime) : String :=
  String.ofList (appendInt t.year 4 ++ '-' :: appendInt t.month 2 ++ '-' :: appendInt t.day 2 ++
    'T' :: appendInt t.hour 2 ++ ':' :: appendInt t.minute 2 ++ ':' :: appendInt t.second 2 ++
    ['Z'])

/-- `parseUint` of `parseRFC3339`. -/
def parseUint (cs : List Char) (lo hi : ℕ) : Option ℕ :=
  (digitsValue cs).filter fun n => lo ≤ n && n ≤ hi

/-- The fraction of a second in nanoseconds, and what is behind it. -/
def cutFraction : List Char → ℕ × List Char
  | '.' :: c :: cs =>
    if c.isDigit then
      let digits := (c :: cs).takeWhile Char.isDigit
      (((digitsValue (digits.take 9)).getD 0) * 10 ^ (9 - digits.length),
        (c :: cs).dropWhile Char.isDigit)
    else (0, '.' :: c :: cs)
  | cs => (0, cs)

/-- The offset of a time zone in seconds. -/
def zoneOffset (cs : List Char) : Option ℤ :=
  if cs = ['Z'] then some 0
  else if cs.length ≠ 6 ∨ cs[3]? ≠ some ':' then none
  else do
    let hours ← parseUint ((cs.drop 1).take 2) 0 23
    let minutes ← parseUint ((cs.drop 4).take 2) 0 59
    let offset : ℤ := ((hours * 60 + minutes) * 60 : ℕ)
    match cs.head? with
    | some '+' => some offset
    | some '-' => some (-offset)
    | _ => none

/-- `time.Parse(time.RFC3339Nano, s)` in nanoseconds after the Unix epoch. -/
def parseRFC3339 (s : String) : Option ℤ := do
  let cs := s.toList
  let year ← parseUint (cs.take 4) 0 9999
  let month ← parseUint ((cs.drop 5).take 2) 1 12
  let day ← parseUint ((cs.drop 8).take 2) 1 (daysIn year month)
  let hour ← parseUint ((cs.drop 11).take 2) 0 23
  let minute ← parseUint ((cs.drop 14).take 2) 0 59
  let second ← parseUint ((cs.drop 17).take 2) 0 59
  if [cs[4]?, cs[7]?, cs[10]?, cs[13]?, cs[16]?] =
    [some '-', some '-', some 'T', some ':', some ':'] then
    let (nanos, zone) := cutFraction (cs.drop 19)
    let offset ← zoneOffset zone
    return (toUnix ⟨year, month, day, hour, minute, second⟩ - offset) * 1000000000 + nanos
  else none

/-! ## Round trip -/

theorem length_fixedDigits (w n : ℕ) : (fixedDigits w n).length = w := by
  induction w generalizing n with
  | zero => rfl
  | succ w ih =>
    rw [fixedDigits, List.length_append, ih]
    rfl

/-- A number is read again from its digits. -/
theorem digitsValue_fixedDigits (w n : ℕ) :
    digitsValue (fixedDigits (w + 1) n) = some (n % 10 ^ (w + 1)) := by
  have hdigit : ∀ k < 10, (Nat.digitChar k).isDigit = true ∧
      (Nat.digitChar k).toNat - '0'.toNat = k := by decide
  have hall : ∀ w n, (fixedDigits w n).all Char.isDigit = true := by
    intro w
    induction w with
    | zero => exact fun n => rfl
    | succ w ih =>
      intro n
      rw [fixedDigits, List.all_append, ih, Bool.true_and]
      simp [(hdigit (n % 10) (Nat.mod_lt _ (by norm_num))).1]
  have hfold : ∀ w n, (fixedDigits w n).foldl (fun n c => 10 * n + (c.toNat - '0'.toNat)) 0 =
      n % 10 ^ w := by
    intro w
    induction w with
    | zero => exact fun n => (Nat.mod_one n).symm
    | succ w ih =>
      intro n
      rw [fixedDigits, List.foldl_append, ih, List.foldl_cons, List.foldl_nil,
        (hdigit (n % 10) (Nat.mod_lt _ (by norm_num))).2, pow_succ', Nat.mod_mul, add_comm]
  have hne : (fixedDigits (w + 1) n).isEmpty = false := by
    rw [← Bool.not_eq_true, List.isEmpty_iff_length_eq_zero, length_fixedDigits]
    omega
  unfold digitsValue
  rw [hne, hall, hfold]
  rfl

/-- A field of a date is read again. -/
theorem parseUint_fixedDigits {w n lo hi : ℕ} (hn : n < 10 ^ (w + 1)) (hlo : lo ≤ n)
    (hhi : n ≤ hi) : parseUint (fixedDigits (w + 1) n) lo hi = some n := by
  unfold parseUint
  rw [digitsValue_fixedDigits, Nat.mod_eq_of_lt hn]
  simp [hlo, hhi]

theorem appendInt_of_lt {n width : ℕ} (h : n < 10 ^ width) :
    appendInt n width = fixedDigits width n := if_pos h

/-- A field of two digits. -/
theorem fixedDigits_two (n : ℕ) :
    fixedDigits 2 n = [Nat.digitChar (n / 10 % 10), Nat.digitChar (n % 10)] := rfl

theorem fixedDigits_four (n : ℕ) :
    fixedDigits 4 n = [Nat.digitChar (n / 10 / 10 / 10 % 10), Nat.digitChar (n / 10 / 10 % 10),
      Nat.digitChar (n / 10 % 10), Nat.digitChar (n % 10)] := rfl

/-- **Round trip.** A date with a year of four digits is read again from its text. -/
theorem parseRFC3339_formatRFC3339 {t : DateTime} (h : t.Valid) (hyear : t.year ≤ 9999) :
    parseRFC3339 (formatRFC3339 t) = some (toUnix t * 1000000000) := by
  have hday := h.day_le
  have hmonth := h.month
  have hhour := h.hour
  have hminute := h.minute
  have hsecond := h.second
  have h₄ : parseUint (fixedDigits 4 t.year) 0 9999 = some t.year :=
    parseUint_fixedDigits (by omega) (Nat.zero_le _) hyear
  have hfield : ∀ {n lo hi : ℕ}, n < 100 → lo ≤ n → n ≤ hi →
      parseUint (fixedDigits 2 n) lo hi = some n := fun hn => parseUint_fixedDigits hn
  have hm := hfield (by omega : t.month < 100) h.month.1 h.month.2
  have hd := hfield (by omega : t.day < 100) h.day.1 h.day.2
  have hh := hfield (by omega : t.hour < 100) (Nat.zero_le _) h.hour
  have hmin := hfield (by omega : t.minute < 100) (Nat.zero_le _) h.minute
  have hs := hfield (by omega : t.second < 100) (Nat.zero_le _) h.second
  rw [fixedDigits_four] at h₄
  rw [fixedDigits_two] at hm hd hh hmin hs
  unfold parseRFC3339 formatRFC3339
  rw [appendInt_of_lt (by omega : t.year < 10 ^ 4), appendInt_of_lt (by omega : t.month < 10 ^ 2),
    appendInt_of_lt (by omega : t.day < 10 ^ 2), appendInt_of_lt (by omega : t.hour < 10 ^ 2),
    appendInt_of_lt (by omega : t.minute < 10 ^ 2), appendInt_of_lt (by omega : t.second < 10 ^ 2),
    String.toList_ofList, fixedDigits_four]
  simp only [fixedDigits_two, List.cons_append, List.nil_append, List.take_succ_cons,
    List.take_zero, List.drop_succ_cons, List.drop_zero, h₄, hm, hd, hh, hmin, hs,
    Option.bind_eq_bind, Option.bind_some, List.getElem?_cons_succ, List.getElem?_cons_zero,
    if_true]
  have hzone : cutFraction ['Z'] = (0, ['Z']) := rfl
  have hutc : zoneOffset ['Z'] = some 0 := rfl
  rw [hzone]
  simp only [hutc, Option.bind_some]
  simp

/-- `time.Unix(n, 0).UTC().Format(time.RFC3339)`. -/
def rfc3339 (n : ℕ) : String := formatRFC3339 (ofUnix n)

/-- **Times as texts.** A second up to the year 9999 is read again from its text. -/
theorem parseRFC3339_rfc3339 {n : ℕ} (h : n ≤ lastFourDigitSecond) :
    parseRFC3339 (rfc3339 n) = some ((n : ℤ) * 1000000000) := by
  unfold rfc3339
  rw [parseRFC3339_formatRFC3339 (ofUnix_valid n) (year_le n h), toUnix_ofUnix]

/-- Different seconds have different texts. -/
theorem rfc3339_injective {m n : ℕ} (hm : m ≤ lastFourDigitSecond) (hn : n ≤ lastFourDigitSecond)
    (h : rfc3339 m = rfc3339 n) : m = n := by
  have hparse := parseRFC3339_rfc3339 hm
  rw [h, parseRFC3339_rfc3339 hn] at hparse
  have hmul := Option.some.inj hparse
  omega

/-- A text has twenty characters, and the first four of them are the year. -/
theorem rfc3339_year {n : ℕ} (h : n ≤ lastFourDigitSecond) :
    (rfc3339 n).toList.length = 20 ∧
      digitsValue ((rfc3339 n).toList.take 4) = some (ofUnix n).year ∧
      (rfc3339 n).toList[4]? = some '-' := by
  have hvalid := ofUnix_valid n
  have hyear := year_le n h
  have hday := hvalid.day_le
  have hmonth := hvalid.month
  have hhour := hvalid.hour
  have hminute := hvalid.minute
  have hsecond := hvalid.second
  unfold rfc3339 formatRFC3339
  rw [appendInt_of_lt (by omega : (ofUnix n).year < 10 ^ 4),
    appendInt_of_lt (by omega : (ofUnix n).month < 10 ^ 2),
    appendInt_of_lt (by omega : (ofUnix n).day < 10 ^ 2),
    appendInt_of_lt (by omega : (ofUnix n).hour < 10 ^ 2),
    appendInt_of_lt (by omega : (ofUnix n).minute < 10 ^ 2),
    appendInt_of_lt (by omega : (ofUnix n).second < 10 ^ 2), String.toList_ofList]
  have hdigits := digitsValue_fixedDigits 3 (ofUnix n).year
  rw [Nat.mod_eq_of_lt (by omega)] at hdigits
  rw [fixedDigits_four] at hdigits ⊢
  exact ⟨rfl, hdigits, rfl⟩

example : rfc3339 1791226020 = "2026-10-05T18:47:00Z" := by decide
example : rfc3339 253402300799 = "9999-12-31T23:59:59Z" := by decide
example : parseRFC3339 "2026-10-05T20:47:00.25+02:00" =
    some 1791226020250000000 := by decide

end Go
