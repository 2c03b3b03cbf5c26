import ReviewGate.Fault

/-!
# `ReviewGate.Yaml.Timestamp` — dates and moments in YAML

## Contents
- `Timestamp`: the parts of a date or a moment as they are written.
- `Timestamp.read?`: the parts of a text.
- `Timestamp.isCanonicalDate`: is the date written with all its digits?
- `Timestamp.toDocument`: the date or moment, if there is such a one.
-/

namespace ReviewGate.Yaml

/-- A time of day as it is written. -/
structure ClockParts where
  hour : Nat
  minute : Nat
  second : Nat
  fraction : List Char
  /-- The offset in minutes, if one is given. -/
  offset : Option Int
deriving Repr

/-- A date, with a time of day or without. -/
structure Timestamp where
  date : Date
  clock : Option ClockParts
deriving Repr

namespace Timestamp

/-- The number with the given decimal digits. -/
def number (ds : List Char) : Nat := ds.foldl (fun n c => n * 10 + (c.toNat - 48)) 0

/-- Between `least` and `most` digits at the front, as many as there are, with what follows. -/
def digits (least most : Nat) (cs : List Char) : Option (List Char × List Char) :=
  let ds := (cs.take most).takeWhile Char.isDigit
  if ds.length < least then none else some (ds, cs.drop ds.length)

/-- The number in the digits at the front. -/
def field (least most : Nat) (cs : List Char) : Option (Nat × List Char) :=
  (digits least most cs).map fun (ds, rest) => (number ds, rest)

/-- What follows the character `c`. -/
def sign (c : Char) : List Char → Option (List Char)
  | [] => none
  | d :: rest => if d = c then some rest else none

/-- An offset in minutes, which ends the text: a `Z`, or a sign, hours and minutes. -/
def zone (cs : List Char) : Option Int :=
  match cs with
  | ['Z'] => some 0
  | c :: rest => do
      if c != '+' && c != '-' then none
      let (hours, rest) ← field 1 2 rest
      let minutes ←
        match rest with
        | [] => some 0
        | _ => do
            let (m, rest) ← field 2 2 (← sign ':' rest)
            if rest.isEmpty then some m else none
      let total : Int := hours * 60 + minutes
      return if c == '-' then -total else total
  | [] => none

/-- Is `c` a space or a tab? -/
def isGap (c : Char) : Bool := c == ' ' || c == '\t'

/-- A time of day, which ends the text. -/
def readClock (cs : List Char) : Option ClockParts := do
  let (hour, rest) ← field 1 2 cs
  let (minute, rest) ← field 2 2 (← sign ':' rest)
  let (second, rest) ← field 2 2 (← sign ':' rest)
  let (fraction, rest) :=
    match rest with
    | '.' :: rest => (rest.takeWhile Char.isDigit, rest.dropWhile Char.isDigit)
    | _ => ([], rest)
  if rest.isEmpty then return ⟨hour, minute, second, fraction, none⟩
  let offset ← zone (rest.dropWhile isGap)
  return ⟨hour, minute, second, fraction, some offset⟩

/-- What follows the separator of date and time: a `T` or blanks. -/
def afterSeparator (cs : List Char) : Option (List Char) :=
  match cs with
  | [] => none
  | c :: rest =>
      if c == 'T' || c == 't' then some rest
      else if isGap c then some (rest.dropWhile isGap)
      else none

/-- The parts of a text. -/
def read? (cs : List Char) : Option Timestamp := do
  let (year, rest) ← field 4 4 cs
  let (month, rest) ← field 1 2 (← sign '-' rest)
  let (day, rest) ← field 1 2 (← sign '-' rest)
  let date : Date := ⟨year, month, day⟩
  if rest.isEmpty then return ⟨date, none⟩
  return ⟨date, some (← readClock (← afterSeparator rest))⟩

/-- Is the text a moment, or a date with all its digits? Only such a text is a timestamp by
itself. -/
def isTimestamp (cs : List Char) : Bool :=
  match read? cs with
  | some t => t.clock.isSome || cs.length == 10
  | none => false

/-- The first six digits of a fraction, as microseconds. -/
def microseconds (fraction : List Char) : Nat :=
  number (fraction.take 6 ++ List.replicate (6 - fraction.length) '0')

/-- Refuse a value for a cause unless the condition holds. -/
def check (condition : Bool) (cause : ScalarFault) : Except Fault Unit :=
  if condition then .ok () else .error (.badScalar cause)

/-- The days and seconds of an offset, days being rounded down. -/
def offsetFault (minutes : Int) : ScalarFault :=
  .offset (minutes.fdiv 1440) (minutes.fmod 1440 * 60)

/-- Refuse a date that the calendar does not have. -/
def checkDate (d : Date) : Except Fault Unit := do
  check (1 ≤ d.year) (.year d.year)
  check (1 ≤ d.month && d.month ≤ 12) .month
  check (1 ≤ d.day && d.day ≤ Date.daysInMonth d.year d.month) .day

/-- The date or moment. -/
def toDocument (t : Timestamp) : Except Fault Document := do
  match t.clock with
  | none => do
      checkDate t.date
      return .date t.date
  | some c => do
      match c.offset with
      | some minutes => check (minutes.natAbs < 1440) (offsetFault minutes)
      | none => pure ()
      checkDate t.date
      check (c.hour < 24) .hour
      check (c.minute < 60) .minute
      check (c.second < 60) .second
      return .moment ⟨t.date, c.hour, c.minute, c.second, microseconds c.fraction, c.offset⟩

end Timestamp

end ReviewGate.Yaml
