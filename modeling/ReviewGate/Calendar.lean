/-!
# `ReviewGate.Calendar` — dates and moments

Dates of the proleptic Gregorian calendar and times of day, with the ISO 8601 texts in which
documents hold them.

## Contents
- `Date`, `Date.isValid`, `Date.iso`.
- `Moment`: a date, a time of day in microseconds and an optional offset from UTC in minutes.
- `Moment.iso`: its text with a given separator between date and time.
- `Moment.shift`: the moment so many minutes later.
- `Moment.ofUnix`: the moment so long after the beginning of 1970.
-/

namespace ReviewGate

/-- A day of the Gregorian calendar. -/
structure Date where
  year : Nat
  month : Nat
  day : Nat
deriving DecidableEq, Repr, Inhabited

/-- A time of day on a date, in UTC plus `offset` minutes if an offset is known. -/
structure Moment where
  date : Date
  hour : Nat
  minute : Nat
  second : Nat
  microsecond : Nat
  offset : Option Int
deriving DecidableEq, Repr, Inhabited

/-- `n` in at least `width` decimal digits. -/
def padded (width n : Nat) : String :=
  let ds := Nat.toDigits 10 n
  String.ofList (List.replicate (width - ds.length) '0' ++ ds)

namespace Date

/-- Is `y` a leap year? -/
def isLeap (y : Nat) : Bool := y % 4 == 0 && (y % 100 != 0 || y % 400 == 0)

/-- The number of days of month `m` in year `y`. -/
def daysInMonth (y m : Nat) : Nat :=
  if m == 2 then if isLeap y then 29 else 28
  else if m == 4 || m == 6 || m == 9 || m == 11 then 30 else 31

/-- Does the calendar have this day, in the years 1 to 9999? -/
def isValid (d : Date) : Bool :=
  1 ≤ d.year && d.year ≤ 9999 && 1 ≤ d.month && d.month ≤ 12 &&
    1 ≤ d.day && d.day ≤ daysInMonth d.year d.month

/-- Year, month and day with hyphens. -/
def iso (d : Date) : String := s!"{padded 4 d.year}-{padded 2 d.month}-{padded 2 d.day}"

/-- The day after. -/
def next (d : Date) : Date :=
  if d.day < daysInMonth d.year d.month then { d with day := d.day + 1 }
  else if d.month < 12 then ⟨d.year, d.month + 1, 1⟩
  else ⟨d.year + 1, 1, 1⟩

/-- The day before. -/
def previous (d : Date) : Date :=
  if 1 < d.day then { d with day := d.day - 1 }
  else if 1 < d.month then ⟨d.year, d.month - 1, daysInMonth d.year (d.month - 1)⟩
  else ⟨d.year - 1, 12, 31⟩

end Date

namespace Moment

/-- Does the time of day exist on an existing day? -/
def isValid (m : Moment) : Bool :=
  m.date.isValid && m.hour < 24 && m.minute < 60 && m.second < 60

/-- The text of an offset: sign, hours and minutes. -/
def offsetText (minutes : Int) : String :=
  let n := minutes.natAbs
  (if minutes < 0 then "-" else "+") ++ padded 2 (n / 60) ++ ":" ++ padded 2 (n % 60)

/-- Date and time around `separator`, the fraction only if there is one. -/
def iso (separator : String) (m : Moment) : String :=
  m.date.iso ++ separator ++ padded 2 m.hour ++ ":" ++ padded 2 m.minute ++ ":" ++
    padded 2 m.second ++ (if m.microsecond == 0 then "" else "." ++ padded 6 m.microsecond) ++
    (match m.offset with
      | some minutes => offsetText minutes
      | none => "")

/-- The day `days` after `d`, for a small number of days of either sign. -/
def shiftDays (d : Date) (days : Int) : Date :=
  if days < 0 then Nat.repeat Date.previous days.natAbs d else Nat.repeat Date.next days.natAbs d

/-- The moment `minutes` later, with the same offset. -/
def shift (m : Moment) (minutes : Int) : Moment :=
  let total : Int := (m.hour * 60 + m.minute : Nat) + minutes
  let inDay := (total.emod 1440).toNat
  { m with
    date := shiftDays m.date (total.ediv 1440)
    hour := inDay / 60
    minute := inDay % 60 }

/-- The moment so many seconds and microseconds after the beginning of 1970, in UTC. -/
def ofUnix (seconds fraction : Nat) : Moment where
  date := shiftDays ⟨1970, 1, 1⟩ (seconds / 86400 : Nat)
  hour := seconds % 86400 / 3600
  minute := seconds % 3600 / 60
  second := seconds % 60
  microsecond := fraction
  offset := some 0

end Moment

end ReviewGate
