/-
  Library.IsoTime
  **ISO 8601 TEXTS AND THE CALENDAR BEHIND THEM.**

  `datetime.fromisoformat` and `time.fromisoformat` read the formats that
  their documentation lists: calendar and week dates, with dashes or
  without, one character between the date and the time, a time of two, four
  or six digits with a fraction of the seconds, and an offset from UTC.

  A date and time is the number of microseconds since the first midnight of
  the year 1 that a clock in its zone has shown; days count from the same
  midnight, which began a Monday.
-/
import Mathlib.Algebra.BigOperators.Group.List.Basic
import Mathlib.Algebra.Order.Ring.Nat

namespace DeterminFlow.Library.IsoTime

/-! ## The calendar -/

def microsPerSecond : Nat := 1000000

def microsPerDay : Nat := 86400 * microsPerSecond

/-- The first year whose days cannot be stored, `MAXYEAR + 1`. -/
def endYear : Nat := 10000

def isLeap (year : Nat) : Bool := year % 4 = 0 && (year % 100 ≠ 0 || year % 400 = 0)

/-- The days before the first of January of `year`. -/
def daysBeforeYear (year : Nat) : Nat :=
  let y := year - 1
  y * 365 + y / 4 - y / 100 + y / 400

def daysInMonths (year : Nat) : List Nat :=
  [31, if isLeap year then 29 else 28, 31, 30, 31, 30, 31, 31, 30, 31, 30, 31]

def endDay : Nat := daysBeforeYear endYear

def dayOfDate? (year month day : Nat) : Option Nat :=
  if 1 ≤ year ∧ year < endYear ∧ 1 ≤ month ∧ month ≤ 12 ∧ 1 ≤ day
      ∧ day ≤ (daysInMonths year).getD (month - 1) 0 then
    some (daysBeforeYear year + ((daysInMonths year).take (month - 1)).sum + (day - 1))
  else none

/-- Monday is `0`. -/
def weekday (day : Nat) : Nat := day % 7

/-- The Monday of the first ISO week of `year`; the last days of December can
belong to it. -/
def isoWeek1Monday (year : Nat) : Nat :=
  let firstDay := daysBeforeYear year
  let firstWeekday := weekday firstDay
  if 3 < firstWeekday then firstDay + 7 - firstWeekday else firstDay - firstWeekday

/-- Years that begin on a Thursday, and leap years that begin on a Wednesday,
have 53 weeks. -/
def isoWeeks (year : Nat) : Nat :=
  let firstWeekday := weekday (daysBeforeYear year)
  if firstWeekday = 3 ∨ (firstWeekday = 2 ∧ isLeap year) then 53 else 52

def dayOfWeekDate? (year week day : Nat) : Option Nat :=
  if 1 ≤ year ∧ year < endYear ∧ 1 ≤ week ∧ week ≤ isoWeeks year ∧ 1 ≤ day ∧ day ≤ 7 then
    let found := isoWeek1Monday year + (week - 1) * 7 + (day - 1)
    if found < endDay then some found else none
  else none

/-! ## The texts -/

/-- The number of exactly `count` ASCII digits in front, and what follows. -/
def takeDigits? : Nat → Nat → List Char → Option (Nat × List Char)
  | 0, n, rest => some (n, rest)
  | _ + 1, _, [] => none
  | count + 1, n, c :: rest =>
    if c.isDigit then takeDigits? count (n * 10 + (c.toNat - 48)) rest else none

/-- The text behind `c`. -/
def expect? (c : Char) : List Char → Option (List Char)
  | [] => none
  | d :: rest => if d = c then some rest else none

def skip? (hasSep : Bool) (c : Char) (rest : List Char) : Option (List Char) :=
  if hasSep then expect? c rest else some rest

def parseDate? (chars : List Char) : Option Nat := do
  let (year, rest) ← takeDigits? 4 0 chars
  let hasSep : Bool := rest.head? = some '-'
  let rest := if hasSep then rest.tail else rest
  if rest.head? = some 'W' then
    let (week, rest) ← takeDigits? 2 0 rest.tail
    if rest = [] then dayOfWeekDate? year week 1
    else
      let (day, rest) ← takeDigits? 1 0 (← skip? hasSep '-' rest)
      if rest = [] then dayOfWeekDate? year week day else none
  else
    let (month, rest) ← takeDigits? 2 0 rest
    let (day, rest) ← takeDigits? 2 0 (← skip? hasSep '-' rest)
    if rest = [] then dayOfDate? year month day else none

/-- `_find_isoformat_datetime_separator`: the length of the date in front. -/
def dateLength? (chars : List Char) : Option Nat :=
  let size := chars.length
  if size < 7 then none
  else if size = 7 then some 7
  else if chars[4]? = some '-' then
    if chars[5]? = some 'W' then
      if chars[8]? = some '-' then
        if size = 9 then none
        -- a digit behind two more characters belongs to a time
        else if (chars[10]?).any Char.isDigit then some 8
        else some 10
      else some 8
    else some 10
  else if chars[4]? = some 'W' then
    let digits := 7 + ((chars.drop 7).takeWhile Char.isDigit).length
    if digits < 9 then some digits
    -- two digits of a time follow a date without a day
    else if digits % 2 = 0 then some 7
    else some 8
  else some 8

def fractionMicros? (digits : List Char) : Option Nat :=
  if digits ≠ [] ∧ digits.all Char.isDigit then
    let kept := digits.take 6
    (takeDigits? kept.length 0 kept).map (fun found => found.1 * 10 ^ (6 - kept.length))
  else none

/-- The hours, minutes, seconds and microseconds of a text. -/
structure Clock where
  hour : Nat := 0
  minute : Nat := 0
  second : Nat := 0
  micro : Nat := 0
  deriving DecidableEq

namespace Clock

def micros (clock : Clock) : Nat :=
  ((clock.hour * 60 + clock.minute) * 60 + clock.second) * microsPerSecond + clock.micro

def inDay (clock : Clock) : Bool := clock.hour < 24 && clock.minute < 60 && clock.second < 60

/-- `_parse_hh_mm_ss_ff` -/
def parse? (chars : List Char) : Option Clock := do
  let (hour, rest) ← takeDigits? 2 0 chars
  if rest = [] then some { hour }
  else
    let hasSep : Bool := rest.head? = some ':'
    let (minute, rest) ← takeDigits? 2 0 (← skip? hasSep ':' rest)
    if rest = [] then some { hour, minute }
    else
      let (second, rest) ← takeDigits? 2 0 (← skip? hasSep ':' rest)
      match rest with
      | [] => some { hour, minute, second }
      | c :: digits =>
        if c = '.' ∨ c = ',' then
          (fractionMicros? digits).map (fun micro => { hour, minute, second, micro })
        else none

end Clock

/-- `timezone(timedelta)`, as the microseconds east of UTC. -/
def offset? (west : Bool) (clock : Clock) : Option Int :=
  if clock.micros < microsPerDay then
    some (if west then -(clock.micros : Int) else clock.micros)
  else none

/-- `_parse_isoformat_time`: the time of the day, and the offset from UTC if the
text has one. -/
def parseTime? (chars : List Char) : Option (Nat × Option Int) := do
  let front := chars.takeWhile (fun c => c ≠ '+' && c ≠ '-' && c ≠ 'Z')
  let clock ← Clock.parse? front
  if clock.inDay = false then none
  else
    match chars.drop front.length with
    | [] => some (clock.micros, none)
    | 'Z' :: rest => if rest = [] then some (clock.micros, some 0) else none
    | sign :: rest => do
        let offset ← offset? (sign = '-') (← Clock.parse? rest)
        some (clock.micros, some offset)

/-- `time.fromisoformat`; `none` stands for `ValueError`. -/
def timeFromIso? (chars : List Char) : Option (Nat × Option Int) :=
  match chars with
  | 'T' :: rest => parseTime? rest
  | rest => parseTime? rest

/-- `datetime.fromisoformat`: what the clock shows, and the offset if the text
has one; `none` stands for `ValueError`. -/
def datetimeFromIso? (chars : List Char) : Option (Nat × Option Int) := do
  let length ← dateLength? chars
  let day ← parseDate? (chars.take length)
  match chars.drop length with
  | [] => some (day * microsPerDay, none)
  -- nothing follows the separator
  | [separator] => if separator.toNat < 128 then some (day * microsPerDay, none) else none
  | _ :: rest => do
      let (time, offset) ← parseTime? rest
      some (day * microsPerDay + time, offset)

/-! ## What a text can denote -/

def endOfTime : Nat := endDay * microsPerDay

example : datetimeFromIso? "2026-01-01T08:30+08:00".toList
    = some ((739616 * 24 * 60 + 8 * 60 + 30) * 60 * 1000000, some (8 * 3600 * 1000000)) := by decide

example : datetimeFromIso? "2025-W01-1".toList = datetimeFromIso? "20241230".toList := by decide

end DeterminFlow.Library.IsoTime
