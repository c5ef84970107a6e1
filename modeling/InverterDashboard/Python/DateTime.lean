import InverterDashboard.Python.Text

/-
  `datetime.fromisoformat`: the ISO 8601 forms it accepts, as the instant they name.

  Dates are counted as proleptic Gregorian ordinals (day 1 is 0001-01-01). A text without a UTC
  offset is a naive datetime and names no instant.
-/

namespace Python

/-! ## Calendar -/

def isLeap (y : Nat) : Bool := y % 4 = 0 && (y % 100 ≠ 0 || y % 400 = 0)

def daysInMonth (y m : Nat) : Nat :=
  if m = 2 then (if isLeap y then 29 else 28)
  else if m = 4 ∨ m = 6 ∨ m = 9 ∨ m = 11 then 30 else 31

/-- The days before January 1 of a year. -/
def daysBeforeYear (y : Nat) : Nat := (y - 1) * 365 + (y - 1) / 4 - (y - 1) / 100 + (y - 1) / 400

def daysBeforeMonth (y m : Nat) : Nat := ((List.range (m - 1)).map fun i => daysInMonth y (i + 1)).sum

/-- The ordinal of 9999-12-31, the last date. -/
def maxOrdinal : Nat := 3652059

/-- The ordinal of a calendar date. -/
def ordinal? (y m d : Nat) : Option Nat :=
  if 1 ≤ y ∧ y ≤ 9999 ∧ 1 ≤ m ∧ m ≤ 12 ∧ 1 ≤ d ∧ d ≤ daysInMonth y m then
    some (daysBeforeYear y + daysBeforeMonth y m + d)
  else none

/-- The ordinal of a day of an ISO week. -/
def weekOrdinal? (y week day : Nat) : Option Nat :=
  let newYear := daysBeforeYear y + 1
  let long := newYear % 7 = 4 ∨ newYear % 7 = 3 ∧ isLeap y
  if 1 ≤ y ∧ y ≤ 9999 ∧ 1 ≤ week ∧ (week ≤ 52 ∨ week = 53 ∧ long) ∧ 1 ≤ day ∧ day ≤ 7 then
    let weekday := (newYear + 6) % 7
    let monday := if 3 < weekday then newYear + 7 - weekday else newYear - weekday
    let ordinal := monday + (week - 1) * 7 + (day - 1)
    -- Week 1 of year 1 starts on day 1; the last week of 9999 may leave the calendar.
    if 1 ≤ ordinal ∧ ordinal ≤ maxOrdinal then some ordinal else none
  else none

/-! ## Fields -/

def asciiDigit (c : CodePoint) : Bool := 0x30 ≤ c.val ∧ c.val ≤ 0x39

def asciiNat (s : Str) : Nat := s.foldl (fun n c => 10 * n + (c.val - 0x30)) 0

/-- Exactly `n` ASCII digits. -/
def digits? (n : Nat) (s : Str) : Option Nat :=
  if s.length = n ∧ s.all asciiDigit then some (asciiNat s) else none

def dash : CodePoint := CodePoint.ofChar '-'

def colon : CodePoint := CodePoint.ofChar ':'

/-- Where the date ends: `_find_isoformat_datetime_separator`. -/
def dateLength (s : Str) : Option Nat :=
  let at? := fun (i : Nat) (c : CodePoint) => s[i]? = some c
  let week := CodePoint.ofChar 'W'
  if s.length = 7 then some 7
  else if at? 4 dash then
    if at? 5 week then
      if s.length < 8 then none
      else if s.length > 8 ∧ at? 8 dash then
        if s.length = 9 then none
        else if s.length > 10 ∧ (s[10]?.any asciiDigit) then some 8
        else some 10
      else some 8
    else some 10
  else if at? 4 week then
    let idx := 7 + ((s.drop 7).takeWhile asciiDigit).length
    if idx < 9 then some idx else if idx % 2 = 0 then some 7 else some 8
  else some 8

/-- `_parse_isoformat_date`, as an ordinal. -/
def isoDate (s : Str) : Option Nat :=
  if s.length ≠ 7 ∧ s.length ≠ 8 ∧ s.length ≠ 10 then none
  else (digits? 4 (s.take 4)).bind fun year =>
    let hasSep := s[4]? = some dash
    let rest := if hasSep then s.drop 5 else s.drop 4
    match rest with
    | [] => none
    | c :: tail =>
      if c = CodePoint.ofChar 'W' then
        (digits? 2 (tail.take 2)).bind fun week =>
          match tail.drop 2 with
          | [] => weekOrdinal? year week 1
          | d :: more =>
            if (d = dash) ≠ hasSep then none
            else (digits? 1 (if hasSep then more else d :: more)).bind (weekOrdinal? year week)
      else
        (digits? 2 (rest.take 2)).bind fun month =>
          let tail := rest.drop 2
          if (tail.head? = some dash) ≠ hasSep then none
          else (digits? 2 (if hasSep then tail.drop 1 else tail)).bind (ordinal? year month)

/-- The microseconds of a fraction: at most six digits count. -/
def fraction? (s : Str) : Option Nat :=
  match s with
  | [] => some 0
  | mark :: ds =>
    if (mark = CodePoint.ofChar '.' ∨ mark = CodePoint.ofChar ',') ∧ ds ≠ [] ∧ ds.all asciiDigit then
      some (asciiNat (ds.take 6) * 10 ^ (6 - ds.length))
    else none

/-- `_parse_hh_mm_ss_ff`: hours, minutes, seconds and microseconds. -/
def isoClock (s : Str) : Option (Nat × Nat × Nat × Nat) :=
  (digits? 2 (s.take 2)).bind fun hour =>
    match s.drop 2 with
    | [] => some (hour, 0, 0, 0)
    | c :: rest =>
      let hasSep := c = colon
      let rest := if hasSep then rest else c :: rest
      (digits? 2 (rest.take 2)).bind fun minute =>
        match rest.drop 2 with
        | [] => some (hour, minute, 0, 0)
        | c :: more =>
          if hasSep ∧ c ≠ colon then none
          else
            let more := if hasSep then more else c :: more
            (digits? 2 (more.take 2)).bind fun second =>
              (fraction? (more.drop 2)).map fun micro => (hour, minute, second, micro)

def microseconds (t : Nat × Nat × Nat × Nat) : Nat :=
  ((t.1 * 60 + t.2.1) * 60 + t.2.2.1) * 1000000 + t.2.2.2

def isZoneMark (c : CodePoint) : Bool :=
  c = dash || c = CodePoint.ofChar '+' || c = CodePoint.ofChar 'Z'

/-- The UTC offset in microseconds that follows the time: `none` is malformed. -/
def isoOffset (mark : CodePoint) (zone : Str) : Option Int :=
  if mark = CodePoint.ofChar 'Z' then (if zone.isEmpty then some 0 else none)
  else (isoClock zone).bind fun t =>
    let offset := microseconds t
    if offset < 86400 * 1000000 then
      some (if mark = dash then -(offset : Int) else offset)
    else none

/-- `_parse_isoformat_time`: the microseconds since midnight, and the UTC offset if there is
    one. -/
def isoTime (s : Str) : Option (Nat × Option Int) :=
  let clock := s.takeWhile fun c => !isZoneMark c
  (isoClock clock).bind fun t =>
    if t.1 < 24 ∧ t.2.1 < 60 ∧ t.2.2.1 < 60 then
      match s.drop clock.length with
      | [] => some (microseconds t, none)
      | mark :: zone => (isoOffset mark zone).map fun offset => (microseconds t, some offset)
    else none

/-- The ordinal of 1970-01-01. -/
def epochOrdinal : Nat := 719163

/-- `datetime.fromisoformat(s)`: `none` is `ValueError`, `some none` a naive datetime, and
    otherwise the microseconds since the epoch. -/
def fromisoformat (s : Str) : Option (Option Int) :=
  if s.length < 7 then none
  else (dateLength s).bind fun n =>
    (isoDate (s.take n)).bind fun ordinal =>
      let day : Int := ((ordinal : Int) - epochOrdinal) * 86400 * 1000000
      let time := s.drop (n + 1)
      if time.isEmpty then some none
      else (isoTime time).map fun t => t.2.map fun offset => day + t.1 - offset

/-! ## Printing -/

/-- Year, month and day of an ordinal. -/
def dateOfOrdinal (ordinal : Nat) : Nat × Nat × Nat :=
  let n := ordinal - 1
  let (n400, n) := (n / 146097, n % 146097)
  let (n100, n) := (n / 36524, n % 36524)
  let (n4, n) := (n / 1461, n % 1461)
  let (n1, n) := (n / 365, n % 365)
  let year := n400 * 400 + n100 * 100 + n4 * 4 + n1 + 1
  -- The last day of a cycle of 4 or 400 years.
  if n1 = 4 ∨ n100 = 4 then (year - 1, 12, 31)
  else
    let month := ((List.range 12).filter fun i => daysBeforeMonth year (i + 1) ≤ n).length
    (year, month, n - daysBeforeMonth year month + 1)

/-- A number with at least this many digits. -/
def padded (width n : Nat) : Str :=
  let s := natStr n
  List.replicate (width - s.length) (CodePoint.ofChar '0') ++ s

/-- `datetime.fromtimestamp(n, tz=UTC).isoformat()`. -/
def utcIsoformat (seconds : Nat) : Str :=
  let (year, month, day) := dateOfOrdinal (epochOrdinal + seconds / 86400)
  let clock := seconds % 86400
  padded 4 year ++ [dash] ++ padded 2 month ++ [dash] ++ padded 2 day ++ Str.lit "T" ++
    padded 2 (clock / 3600) ++ [colon] ++ padded 2 (clock / 60 % 60) ++ [colon] ++
    padded 2 (clock % 60) ++ Str.lit "+00:00"

end Python
