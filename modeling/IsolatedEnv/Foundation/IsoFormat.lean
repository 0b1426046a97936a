import IsolatedEnv.Foundation.DateTime
import IsolatedEnv.Foundation.Digits
import IsolatedEnv.Foundation.Octets

/-!
# `isoformat` and `fromisoformat`

`fromIsoFormat` follows the C implementation of Python 3.12, which works on the
UTF-8 octets of the text.  It finds the end of the date by the octets at positions
4 and 5, reads pairs of digits with or without colons, and lets odd things pass
before a time zone.  A zone of less than a second is taken for UTC.  `none` is a
`ValueError`.
-/

namespace IsolatedEnv.Foundation

/-! ## Printing -/

def dateText (c : Civil) : List Char :=
  padDigits 10 4 c.year ++ '-' :: (padDigits 10 2 c.month ++
    '-' :: padDigits 10 2 c.day)

def fractionText (microsecond : Nat) : List Char :=
  if microsecond = 0 then [] else '.' :: padDigits 10 6 microsecond

def timeText (c : Civil) : List Char :=
  padDigits 10 2 c.hour ++ ':' :: (padDigits 10 2 c.minute ++
    ':' :: (padDigits 10 2 c.second ++ fractionText c.microsecond))

def offsetText (o : UtcOffset) : List Char :=
  let n := o.microseconds.natAbs
  (if o.microseconds < 0 then '-' else '+') ::
    (padDigits 10 2 (n / 3600000000) ++
      ':' :: (padDigits 10 2 (n / 60000000 % 60) ++
        if n % 60000000 = 0 then []
        else ':' :: (padDigits 10 2 (n / 1000000 % 60) ++
          fractionText (n % 1000000))))

def isoFormat (d : DateTime) : List Char :=
  dateText d.civil ++ 'T' :: (timeText d.civil ++ offsetText d.offset)

/-! ## Reading the date -/

def isAsciiDigit (c : Char) : Bool := '0' ≤ c && c ≤ '9'

/-- `parse_digits(p, &value, n)`. -/
def takeDigits (n : Nat) (cs : List Char) : Option (Nat × List Char) :=
  if (cs.take n).length = n then
    (readDigits 10 (cs.take n)).map fun value => (value, cs.drop n)
  else none

/-- `_find_isoformat_datetime_separator`. -/
def separatorLocation (cs : List Char) : Option Nat :=
  if cs.length = 7 then some 7
  else if cs[4]? = some '-' then
    if cs[5]? = some 'W' then
      if cs[8]? = some '-' then
        if cs.length = 9 then none
        else if (cs[10]?.map isAsciiDigit).getD false then some 8
        else some 10
      else some 8
    else some 10
  else if cs[4]? = some 'W' then
    let position := 7 + ((cs.drop 7).takeWhile isAsciiDigit).length
    if position < 9 then some position
    else if position % 2 = 0 then some 7
    else some 8
  else some 8

/-- The ordinal of the Monday that begins the first ISO week of a year. -/
def isoWeekOneMonday (year : Nat) : Nat :=
  let firstDay := Civil.daysBeforeYear year + 1
  let weekday := (firstDay + 6) % 7
  if weekday > 3 then firstDay - weekday + 7 else firstDay - weekday

/-- The month and the day of the day of a year with the given number. -/
def monthAndDay (year : Nat) : Nat → Nat → Nat → Nat × Nat
  | 0, month, n => (month, n)
  | fuel + 1, month, n =>
      if n ≤ daysInMonth year month then (month, n)
      else monthAndDay year fuel (month + 1) (n - daysInMonth year month)

/-- The calendar date of an ordinal in or next to a year. -/
def ordinalDate (year ordinal : Nat) : Nat × Nat × Nat :=
  let y :=
    if ordinal ≤ Civil.daysBeforeYear year then year - 1
    else if ordinal ≤ Civil.daysBeforeYear (year + 1) then year
    else year + 1
  (y, monthAndDay y 11 1 (ordinal - Civil.daysBeforeYear y))

def isoWeekDate (year week day : Nat) : Option (Nat × Nat × Nat) :=
  let firstWeekday := (Civil.daysBeforeYear year + 7) % 7
  let hasWeek53 := firstWeekday = 3 ∨ firstWeekday = 2 ∧ isLeap year
  if 1 ≤ year ∧ year ≤ 9999 ∧ 1 ≤ week ∧
      (week ≤ 52 ∨ week = 53 ∧ hasWeek53) ∧ 1 ≤ day ∧ day ≤ 7 then
    some (ordinalDate year (isoWeekOneMonday year + (week - 1) * 7 + (day - 1)))
  else none

def readDate (cs : List Char) (location : Nat) : Option (Nat × Nat × Nat) := do
  let (year, rest) ← takeDigits 4 cs
  let separated := rest.head? = some '-'
  let rest := if separated then rest.tail else rest
  if rest.head? = some 'W' then
    let (week, rest) ← takeDigits 2 rest.tail
    if cs.length - rest.length < location then
      if separated && rest.head? ≠ some '-' then none
      else do
        let (day, _) ← takeDigits 1 (if separated then rest.tail else rest)
        isoWeekDate year week day
    else isoWeekDate year week 1
  else
    let (month, rest) ← takeDigits 2 rest
    if separated && rest.head? ≠ some '-' then none
    else do
      let (day, _) ← takeDigits 2 (if separated then rest.tail else rest)
      some (year, month, day)

/-! ## Reading the time -/

structure ClockFields where
  hour : Nat
  minute : Nat
  second : Nat
  microsecond : Nat
  deriving DecidableEq

/-- The end of `parse_hh_mm_ss_ff`: up to six digits of a fraction, and more. -/
def readFractionDigits (cs : List Char) : Option (Nat × List Char) :=
  (takeDigits (min 6 cs.length) cs).map fun p =>
    (p.1 * 10 ^ (6 - min 6 cs.length), p.2.dropWhile isAsciiDigit)

/-- Whether something other than the end of the text follows. -/
def more (final : Bool) : List Char → Bool
  | [] => !final
  | c :: _ => c ≠ '\x00'

def readFraction (final : Bool) (fields : Nat → ClockFields) (cs : List Char) :
    Option (ClockFields × Bool) :=
  (readFractionDigits cs).map fun p => (fields p.1, more final p.2)

/-- What may follow a pair of digits: the end, another pair or a fraction. -/
def afterPair (final separated : Bool) (fields : Nat → ClockFields)
    (readNext : List Char → Option (ClockFields × Bool)) :
    List Char → Option (ClockFields × Bool)
  | [] => some (fields 0, more final [])
  | [c] => some (fields 0, more final [c])
  | c :: rest =>
      if separated && c = ':' then readNext rest
      else if c = '.' || c = ',' then readFraction final fields rest
      else if separated then none
      else readNext (c :: rest)

/--
`parse_hh_mm_ss_ff` on the text of a time, which is `final` if the whole text
ends with it: the fields, and whether there is more text.
-/
def readClock (final : Bool) (cs : List Char) : Option (ClockFields × Bool) := do
  let (hour, rest) ← takeDigits 2 cs
  let separated := rest.head? = some ':'
  afterPair final separated (⟨hour, 0, 0, ·⟩) (fun rest => do
    let (minute, rest) ← takeDigits 2 rest
    afterPair final separated (⟨hour, minute, 0, ·⟩) (fun rest => do
      let (second, rest) ← takeDigits 2 rest
      afterPair final separated (⟨hour, minute, second, ·⟩)
        (readFraction final (⟨hour, minute, second, ·⟩)) rest) rest) rest

def isZoneStart (c : Char) : Bool := c = '+' || c = '-' || c = 'Z'

def zoneOffset (negative : Bool) (fields : ClockFields) : Option UtcOffset :=
  let seconds := fields.hour * 3600 + fields.minute * 60 + fields.second
  if seconds = 0 then some .utc
  else
    let n : Int := seconds * 1000000 + fields.microsecond
    UtcOffset.make? (if negative then -n else n)

/-- `parse_isoformat_time`, with the time zone it leads to. -/
def readTime (cs : List Char) : Option (ClockFields × Option UtcOffset) := do
  let clock := cs.takeWhile fun c => !isZoneStart c
  match cs.dropWhile fun c => !isZoneStart c with
  | [] =>
      let (fields, rest) ← readClock true clock
      if rest then none else some (fields, none)
  | sign :: zone =>
      let (fields, _) ← readClock false clock
      if sign = 'Z' then
        if more true zone then none else some (fields, some .utc)
      else
        let (zoneFields, rest) ← readClock true zone
        if rest then none
        else do
          let offset ← zoneOffset (sign = '-') zoneFields
          some (fields, some offset)

/-- Behind the separator, whose first octet tells how many it has. -/
def dropSeparator : List Char → List Char
  | [] => []
  | lead :: rest =>
      if lead.toNat < 0x80 then rest
      else if lead.toNat < 0xE0 then rest.drop 1
      else if lead.toNat < 0xF0 then rest.drop 2
      else rest.drop 3

/-- `datetime.fromisoformat`; without an offset the result is naive. -/
def fromIsoFormat (text : List Char) : Option (Civil × Option UtcOffset) :=
  if text.length < 7 then none
  else do
    let cs := encodeUtf8 text
    let location ← separatorLocation cs
    let (year, month, day) ← readDate cs location
    if cs.length ≤ location then do
      let civil ← Civil.make? year month day 0 0 0 0
      some (civil, none)
    else do
      let (fields, offset) ← readTime (dropSeparator (cs.drop location))
      let civil ← Civil.make? year month day fields.hour fields.minute
        fields.second fields.microsecond
      some (civil, offset)

def isLone (n : Nat) : Bool := !decide n.isValidChar

/-- `_sanitize_isoformat_str`: a lone surrogate may stand where a separator can. -/
def sanitize (points : List Nat) : List Nat :=
  match [7, 8, 10].find? fun i => points[i]?.any isLone with
  | some i => points.set i 'T'.toNat
  | none => points

/--
A text as the constructors of times and identifiers take it.  What has a lone surrogate
elsewhere is a `ValueError` to both of them, as is the replacement character.
-/
def argumentText (points : List Nat) : String :=
  if (sanitize points).any isLone then "\uFFFD"
  else String.ofList ((sanitize points).map Char.ofNat)

/-! ## What is printed is read back -/

theorem takeDigits_padDigits {n v : Nat} (hv : v < 10 ^ n) (rest : List Char) :
    takeDigits n (padDigits 10 n v ++ rest) = some (v, rest) := by
  have hlength := padDigits_length 10 n v
  have htake : (padDigits 10 n v ++ rest).take n = padDigits 10 n v := by
    rw [List.take_append_of_le_length hlength.ge, List.take_of_length_le hlength.le]
  have hdrop : (padDigits 10 n v ++ rest).drop n = rest := by
    rw [List.drop_append_of_le_length hlength.ge, List.drop_of_length_le hlength.le,
      List.nil_append]
  rw [takeDigits, htake, hdrop, if_pos hlength,
    readDigits_padDigits (by decide) (by decide) hv]
  rfl

theorem isAsciiDigit_digitChar {d : Nat} (hd : d < 10) :
    isAsciiDigit d.digitChar = true := by
  have hall : ∀ d < 10, isAsciiDigit d.digitChar = true := by decide
  exact hall d hd

theorem mem_padDigits_ten {n v : Nat} {c : Char} (h : c ∈ padDigits 10 n v) :
    isAsciiDigit c = true := by
  obtain ⟨d, hd, rfl⟩ := mem_padDigits (by decide) h
  exact isAsciiDigit_digitChar hd

theorem readFractionDigits_six {us : Nat} (hus : us < 1000000) :
    readFractionDigits (padDigits 10 6 us) = some (us, []) := by
  have hlength := padDigits_length 10 6 us
  have hread := takeDigits_padDigits (show us < 10 ^ 6 from hus) []
  rw [List.append_nil] at hread
  rw [readFractionDigits, hlength, Nat.min_self, hread]
  simp

theorem afterPair_colon {rest : List Char} (hrest : rest ≠ []) (final : Bool)
    (fields : Nat → ClockFields)
    (readNext : List Char → Option (ClockFields × Bool)) :
    afterPair final true fields readNext (':' :: rest) = readNext rest := by
  obtain ⟨c, cs, rfl⟩ := List.exists_cons_of_ne_nil hrest
  rfl

theorem afterPair_fraction {us : Nat} (hus : us < 1000000) (final : Bool)
    (fields : Nat → ClockFields)
    (readNext : List Char → Option (ClockFields × Bool)) :
    afterPair final true fields readNext (fractionText us) =
      some (fields us, !final) := by
  by_cases hzero : us = 0
  · simp [fractionText, hzero, afterPair, more]
  · have hread := readFractionDigits_six hus
    rw [fractionText, if_neg hzero]
    cases hdigits : padDigits 10 6 us with
    | nil =>
        have hlength := padDigits_length 10 6 us
        simp [hdigits] at hlength
    | cons d ds =>
        rw [hdigits] at hread
        simp [afterPair, readFraction, hread, more]

theorem padDigits_append_ne_nil (n v : Nat) (cs : List Char) :
    padDigits 10 (n + 1) v ++ cs ≠ [] := by
  intro h
  have hlength := congrArg List.length h
  simp at hlength

theorem readClock_full {h m s us : Nat} (hh : h < 100) (hm : m < 100) (hs : s < 100)
    (hus : us < 1000000) (final : Bool) :
    readClock final (padDigits 10 2 h ++ ':' :: (padDigits 10 2 m ++
        ':' :: (padDigits 10 2 s ++ fractionText us))) =
      some (⟨h, m, s, us⟩, !final) := by
  have hminute := takeDigits_padDigits (show m < 10 ^ 2 from hm)
    (':' :: (padDigits 10 2 s ++ fractionText us))
  have hsecond := takeDigits_padDigits (show s < 10 ^ 2 from hs) (fractionText us)
  rw [readClock, takeDigits_padDigits (show h < 10 ^ 2 from hh)]
  simp [afterPair_colon (padDigits_append_ne_nil 1 _ _), hminute, hsecond,
    afterPair_fraction hus]

theorem readClock_short {h m : Nat} (hh : h < 100) (hm : m < 100) (final : Bool) :
    readClock final (padDigits 10 2 h ++ ':' :: padDigits 10 2 m) =
      some (⟨h, m, 0, 0⟩, !final) := by
  have hminute := takeDigits_padDigits (show m < 10 ^ 2 from hm) []
  rw [List.append_nil] at hminute
  have hcolon := padDigits_append_ne_nil 1 m []
  rw [List.append_nil] at hcolon
  rw [readClock, takeDigits_padDigits (show h < 10 ^ 2 from hh)]
  simp only [Option.bind_eq_bind, Option.bind_some, List.head?_cons, decide_true,
    afterPair_colon hcolon, hminute]
  rfl

theorem isAsciiDigit_head_padDigits {n v : Nat} {rest : List Char} {c : Char}
    (h : (padDigits 10 (n + 1) v ++ rest).head? = some c) :
    isAsciiDigit c = true := by
  cases hdigits : padDigits 10 (n + 1) v with
  | nil =>
      have hlength := padDigits_length 10 (n + 1) v
      simp [hdigits] at hlength
  | cons d ds =>
      rw [hdigits] at h
      simp at h
      exact mem_padDigits_ten (n := n + 1) (v := v) (by simp [hdigits, h])

theorem separatorLocation_dateText (c : Civil) (rest : List Char) :
    separatorLocation (dateText c ++ 'T' :: rest) = some 10 := by
  have hyear := padDigits_length 10 4 c.year
  have hmonth := padDigits_length 10 2 c.month
  have hday := padDigits_length 10 2 c.day
  have hlength : (dateText c ++ 'T' :: rest).length = 11 + rest.length := by
    simp [dateText]
    omega
  have hfour : (dateText c ++ 'T' :: rest)[4]? = some '-' := by
    rw [dateText, List.append_assoc, List.getElem?_append_right hyear.le, hyear]
    rfl
  have hfive : (dateText c ++ 'T' :: rest)[5]? ≠ some 'W' := by
    intro h
    rw [dateText, List.append_assoc, List.getElem?_append_right (by omega), hyear,
      List.cons_append, List.getElem?_cons_succ, List.append_assoc,
      ← List.head?_eq_getElem?] at h
    have hdigit := isAsciiDigit_head_padDigits h
    simp [isAsciiDigit] at hdigit
  rw [separatorLocation, if_neg (by omega), if_pos hfour, if_neg hfive]

theorem readDate_dateText (c : Civil) (rest : List Char) :
    readDate (dateText c ++ 'T' :: rest) 10 = some (c.year, c.month, c.day) := by
  obtain ⟨-, hyear, -, hmonth, -, hday, -⟩ := c.valid
  have hdays := daysInMonth_le c.year c.month
  have htext : dateText c ++ 'T' :: rest = padDigits 10 4 c.year ++
      '-' :: (padDigits 10 2 c.month ++ '-' :: (padDigits 10 2 c.day ++ 'T' :: rest)) := by
    simp [dateText]
  have hfirst := takeDigits_padDigits (show c.year < 10 ^ 4 by omega)
    ('-' :: (padDigits 10 2 c.month ++ '-' :: (padDigits 10 2 c.day ++ 'T' :: rest)))
  have hsecond := takeDigits_padDigits (show c.month < 10 ^ 2 by omega)
    ('-' :: (padDigits 10 2 c.day ++ 'T' :: rest))
  have hthird := takeDigits_padDigits (show c.day < 10 ^ 2 by omega) ('T' :: rest)
  have hweek : (padDigits 10 2 c.month ++
      '-' :: (padDigits 10 2 c.day ++ 'T' :: rest)).head? ≠ some 'W' := by
    intro h
    have hdigit := isAsciiDigit_head_padDigits h
    simp [isAsciiDigit] at hdigit
  rw [htext, readDate, hfirst]
  simp only [Option.bind_eq_bind, Option.bind_some, List.head?_cons, decide_true,
    if_true, List.tail_cons]
  rw [if_neg hweek, hsecond]
  simp [hthird]

theorem not_isZoneStart_of_mem_timeText {c : Civil} {x : Char}
    (h : x ∈ timeText c) : isZoneStart x = false := by
  have hdigit : ∀ {n v : Nat}, x ∈ padDigits 10 n v → isZoneStart x = false := by
    intro n v hx
    have := mem_padDigits_ten hx
    rw [Bool.eq_false_iff]
    intro hzone
    simp only [isZoneStart, Bool.or_eq_true, decide_eq_true_eq] at hzone
    rcases hzone with (rfl | rfl) | rfl <;> simp [isAsciiDigit] at this
  have hcolon : isZoneStart ':' = false := by decide
  have hdot : isZoneStart '.' = false := by decide
  simp only [timeText, fractionText, List.mem_append, List.mem_cons] at h
  rcases h with h | rfl | h | rfl | h | h
  · exact hdigit h
  · exact hcolon
  · exact hdigit h
  · exact hcolon
  · exact hdigit h
  · split at h
    · cases h
    · rcases List.mem_cons.mp h with rfl | h
      · exact hdot
      · exact hdigit h

/-- An offset that is read back: zero, or at least one second. -/
def UtcOffset.Readable (o : UtcOffset) : Prop :=
  o.microseconds = 0 ∨ 1000000 ≤ o.microseconds.natAbs

/-- What a printed offset is read as: one of less than a second as UTC. -/
def UtcOffset.readBack (o : UtcOffset) : UtcOffset :=
  if o.microseconds.natAbs < 1000000 then .utc else o

theorem UtcOffset.readBack_eq_iff {o : UtcOffset} : o.readBack = o ↔ o.Readable := by
  unfold readBack Readable
  split
  · obtain ⟨n, hn⟩ := o
    simp only [utc, mk.injEq]
    dsimp only at *
    omega
  · simp only [true_iff]
    omega

theorem zoneOffset_of_fields {o : UtcOffset} {fields : ClockFields}
    (hlong : 1000000 ≤ o.microseconds.natAbs) (hus : fields.microsecond < 1000000)
    (hsum : (fields.hour * 3600 + fields.minute * 60 + fields.second) * 1000000 +
      fields.microsecond = o.microseconds.natAbs) :
    zoneOffset (o.microseconds < 0) fields = some o := by
  have hsigned : (if decide (o.microseconds < 0) = true then
      -(o.microseconds.natAbs : Int) else o.microseconds.natAbs) = o.microseconds := by
    split
    next h =>
      have := of_decide_eq_true h
      omega
    next h =>
      have := of_decide_eq_false (Bool.eq_false_iff.mpr h)
      omega
  have hcast : (((fields.hour * 3600 + fields.minute * 60 + fields.second : Nat) : Int) *
      1000000 + fields.microsecond) = o.microseconds.natAbs := by omega
  rw [zoneOffset, if_neg (by omega), hcast]
  dsimp only
  rw [hsigned, UtcOffset.make?_microseconds]

theorem readZone_offsetText (o : UtcOffset) :
    ∃ fields, readClock true (offsetText o).tail = some (fields, false) ∧
      zoneOffset (o.microseconds < 0) fields = some o.readBack := by
  have hvalid := o.valid
  simp only [microsecondsPerDay] at hvalid
  by_cases hwhole : o.microseconds.natAbs % 60000000 = 0
  · refine ⟨⟨o.microseconds.natAbs / 3600000000,
      o.microseconds.natAbs / 60000000 % 60, 0, 0⟩, ?_, ?_⟩
    · simp only [offsetText, hwhole, if_true, List.append_nil, List.tail_cons]
      exact readClock_short (by omega) (by omega) true
    · unfold UtcOffset.readBack
      split
      · rw [zoneOffset, if_pos (by dsimp only; omega)]
      · exact zoneOffset_of_fields (by omega) (by dsimp only; omega) (by dsimp only; omega)
  · refine ⟨⟨o.microseconds.natAbs / 3600000000,
      o.microseconds.natAbs / 60000000 % 60, o.microseconds.natAbs / 1000000 % 60,
      o.microseconds.natAbs % 1000000⟩, ?_, ?_⟩
    · simp only [offsetText, hwhole, if_false, List.tail_cons]
      exact readClock_full (by omega) (by omega) (by omega) (by omega) true
    · unfold UtcOffset.readBack
      split
      · rw [zoneOffset, if_pos (by dsimp only; omega)]
      · exact zoneOffset_of_fields (by omega) (by dsimp only; omega) (by dsimp only; omega)

theorem readTime_text (c : Civil) (o : UtcOffset) :
    readTime (timeText c ++ offsetText o) =
      some (⟨c.hour, c.minute, c.second, c.microsecond⟩, some o.readBack) := by
  obtain ⟨-, -, -, -, -, -, hh, hm, hs, hus⟩ := c.valid
  have hclock (final : Bool) : readClock final (timeText c) =
      some (⟨c.hour, c.minute, c.second, c.microsecond⟩, !final) :=
    readClock_full (by omega) (by omega) (by omega) hus final
  obtain ⟨fields, hzone, hoffset⟩ := readZone_offsetText o
  have hall : ∀ x ∈ timeText c, (!isZoneStart x) = true := by
    intro x hx
    simp [not_isZoneStart_of_mem_timeText hx]
  have hsign : isZoneStart (if o.microseconds < 0 then '-' else '+') = true := by
    split <;> decide
  have hcons : offsetText o =
      (if o.microseconds < 0 then '-' else '+') :: (offsetText o).tail := rfl
  rw [readTime, List.takeWhile_append_of_pos hall, List.dropWhile_append_of_pos hall,
    hcons, List.takeWhile_cons_of_neg (by simp [hsign]),
    List.dropWhile_cons_of_neg (by simp [hsign]), List.append_nil]
  by_cases hneg : o.microseconds < 0
  · simp only [hneg, decide_true] at hoffset
    simp [hneg, hzone, hoffset, hclock]
  · simp only [hneg, decide_false] at hoffset
    simp [hneg, hzone, hoffset, hclock]

/-- The characters that a date-time is printed with. -/
def isIsoChar (c : Char) : Bool := isAsciiDigit c || ['-', ':', '.', 'T', '+'].contains c

section Printed

variable {c : Char} {d : DateTime}

theorem isIsoChar_of_mem_padDigits {n v : Nat} (h : c ∈ padDigits 10 n v) :
    isIsoChar c = true := by
  rw [isIsoChar, mem_padDigits_ten h, Bool.true_or]

theorem isIsoChar_of_mem_fractionText {us : Nat} (h : c ∈ fractionText us) :
    isIsoChar c = true := by
  unfold fractionText at h
  split at h
  · cases h
  · rcases List.mem_cons.mp h with rfl | h
    · decide
    · exact isIsoChar_of_mem_padDigits h

theorem isIsoChar_of_mem_offsetText {o : UtcOffset} (h : c ∈ offsetText o) :
    isIsoChar c = true := by
  have hcolon : isIsoChar ':' = true := by decide
  simp only [offsetText, List.mem_cons, List.mem_append] at h
  rcases h with rfl | h | rfl | h | h
  · split <;> decide
  · exact isIsoChar_of_mem_padDigits h
  · exact hcolon
  · exact isIsoChar_of_mem_padDigits h
  · split at h
    · cases h
    · simp only [List.mem_cons, List.mem_append] at h
      rcases h with rfl | h | h
      · exact hcolon
      · exact isIsoChar_of_mem_padDigits h
      · exact isIsoChar_of_mem_fractionText h

theorem isIsoChar_of_mem_isoFormat (h : c ∈ isoFormat d) : isIsoChar c = true := by
  have hmarks : ['-', ':', 'T'].all isIsoChar = true := by decide
  have hmark {m : Char} (hm : m ∈ ['-', ':', 'T']) : isIsoChar m = true :=
    List.all_eq_true.mp hmarks m hm
  simp only [isoFormat, dateText, timeText, List.mem_append, List.mem_cons] at h
  rcases h with (h | rfl | h | rfl | h) | rfl | (h | rfl | h | rfl | h | h) | h
  · exact isIsoChar_of_mem_padDigits h
  · exact hmark (by simp)
  · exact isIsoChar_of_mem_padDigits h
  · exact hmark (by simp)
  · exact isIsoChar_of_mem_padDigits h
  · exact hmark (by simp)
  · exact isIsoChar_of_mem_padDigits h
  · exact hmark (by simp)
  · exact isIsoChar_of_mem_padDigits h
  · exact hmark (by simp)
  · exact isIsoChar_of_mem_padDigits h
  · exact isIsoChar_of_mem_fractionText h
  · exact isIsoChar_of_mem_offsetText h

theorem isIsoChar_cases (h : isIsoChar c = true) :
    48 ≤ c.toNat ∧ c.toNat ≤ 57 ∨ c ∈ ['-', ':', '.', 'T', '+'] := by
  simp only [isIsoChar, isAsciiDigit, Bool.or_eq_true, Bool.and_eq_true, decide_eq_true_eq,
    List.contains_eq_mem] at h
  exact h.imp_left fun hdigit => hdigit

theorem isoFormat_ascii (d : DateTime) : Ascii (isoFormat d) := by
  intro c hc
  rcases isIsoChar_cases (isIsoChar_of_mem_isoFormat hc) with hdigit | hmark
  · omega
  · revert hmark
    simp only [List.mem_cons, List.not_mem_nil, or_false]
    rintro (rfl | rfl | rfl | rfl | rfl) <;> decide

end Printed

theorem fromIsoFormat_isoFormat_readBack (d : DateTime) :
    fromIsoFormat (isoFormat d) = some (d.civil, some d.offset.readBack) := by
  have hdate : (dateText d.civil).length = 10 := by
    simp [dateText]
  have hlong : 10 < (isoFormat d).length := by
    simp [isoFormat, hdate]
  have hlocation : separatorLocation (isoFormat d) = some 10 :=
    separatorLocation_dateText d.civil _
  have hread : readDate (isoFormat d) 10 = some (d.civil.year, d.civil.month, d.civil.day) :=
    readDate_dateText d.civil _
  have htime : dropSeparator ((isoFormat d).drop 10) =
      timeText d.civil ++ offsetText d.offset := by
    rw [isoFormat, List.drop_append_of_le_length hdate.ge, List.drop_of_length_le hdate.le]
    rfl
  rw [fromIsoFormat, if_neg (by omega), encodeUtf8_ascii (isoFormat_ascii d)]
  simp only [Option.bind_eq_bind, hlocation, Option.bind_some, hread]
  rw [if_neg (by omega), htime]
  simp [readTime_text d.civil d.offset]

/-- A printed date-time is read back, its instant and its text unchanged. -/
theorem fromIsoFormat_isoFormat {d : DateTime} (hd : d.offset.Readable) :
    fromIsoFormat (isoFormat d) = some (d.civil, some d.offset) := by
  rw [fromIsoFormat_isoFormat_readBack, UtcOffset.readBack_eq_iff.mpr hd]

theorem isLone_toNat (c : Char) : isLone c.toNat = false := by
  have hvalid : c.toNat.isValidChar := c.valid
  simp [isLone, hvalid]

/-- A text without lone surrogates is taken as it is. -/
theorem argumentText_toNat (s : String) : argumentText (s.toList.map Char.toNat) = s := by
  have hlone (i : Nat) : ((s.toList.map Char.toNat)[i]?.any isLone) = false := by
    rw [List.getElem?_map]
    cases s.toList[i]? with
    | none => rfl
    | some c => exact isLone_toNat c
  have hsanitize : sanitize (s.toList.map Char.toNat) = s.toList.map Char.toNat := by
    simp only [sanitize, hlone, List.find?_cons_of_neg, List.find?_nil, Bool.false_eq_true,
      not_false_eq_true]
  have hnone : (s.toList.map Char.toNat).any isLone = false := by
    simp [List.any_map, Function.comp_def, isLone_toNat]
  have hchars : (s.toList.map Char.toNat).map Char.ofNat = s.toList := by
    rw [List.map_map]
    exact (List.map_congr_left fun c _ => Char.ofNat_toNat c).trans (List.map_id _)
  rw [argumentText, hsanitize, hnone, hchars, String.ofList_toList]
  rfl

end IsolatedEnv.Foundation
