/-
**Dates and timestamps.**

A timestamp is a date of the proleptic Gregorian calendar and a time of day without a zone.  A leap
second is written as second 59 with a thousand million nanoseconds or more, and shown as 60.

Main definitions:

* `SqlAccess.Date`, `SqlAccess.Timestamp` — the types;
* `SqlAccess.Date.toDays`, `SqlAccess.Date.ofDays` — days counted from the first of January 2000;
* `SqlAccess.Timestamp.toMicros`, `SqlAccess.Timestamp.ofMicros?` — microseconds from the same day;
* `SqlAccess.Timestamp.render` — the text of a timestamp.
-/

import SqlAccess.Text.Word

set_option autoImplicit false

namespace SqlAccess

/-! ### Dates -/

/-- A date of the proleptic Gregorian calendar. -/
structure Date where
  year : Int
  month : Nat
  day : Nat
  deriving DecidableEq, Repr, Inhabited

namespace Date

/-- Days from the first of March of year 0 to the first of January 2000. -/
def epochDay : Int := 730425

/-- Days since the first of January 2000.  Years are counted from March, so that a leap day is the
last of its year. -/
def toDays (d : Date) : Int :=
  let year := if d.month ≤ 2 then d.year - 1 else d.year
  let era := year.fdiv 400
  let yearOfEra := year - era * 400
  let month : Int := if d.month ≤ 2 then d.month + 9 else d.month - 3
  let dayOfYear := (153 * month + 2).fdiv 5 + d.day - 1
  era * 146097 + yearOfEra * 365 + yearOfEra.fdiv 4 - yearOfEra.fdiv 100 + dayOfYear - epochDay

/-- The date that many days after the first of January 2000. -/
def ofDays (days : Int) : Date :=
  let fromMarch := days + epochDay
  let era := fromMarch.fdiv 146097
  let dayOfEra := fromMarch - era * 146097
  let yearOfEra :=
    (dayOfEra - dayOfEra.fdiv 1460 + dayOfEra.fdiv 36524 - dayOfEra.fdiv 146096).fdiv 365
  let dayOfYear := dayOfEra - (365 * yearOfEra + yearOfEra.fdiv 4 - yearOfEra.fdiv 100)
  let month := (5 * dayOfYear + 2).fdiv 153
  let day := dayOfYear - (153 * month + 2).fdiv 5 + 1
  let calendarMonth := if month < 10 then month + 3 else month - 9
  ⟨yearOfEra + era * 400 + (if calendarMonth ≤ 2 then 1 else 0), calendarMonth.toNat, day.toNat⟩

/-- The first and the last year that a date can have. -/
def yearRange : Int × Int := (-262143, 262142)

/-- Whether the date has a year in range. -/
def inRange (d : Date) : Bool := yearRange.1 ≤ d.year && d.year ≤ yearRange.2

/-- Years from 0 to 9999 have four digits, others a sign and at least four. -/
def yearText (year : Int) : List Char :=
  if 0 ≤ year ∧ year ≤ 9999 then Text.padded 4 year.toNat
  else (if year < 0 then '-' else '+') :: Text.padded 4 year.natAbs

/-- Year, month and day with hyphens between. -/
def chars (d : Date) : List Char :=
  yearText d.year ++ '-' :: Text.padded 2 d.month ++ '-' :: Text.padded 2 d.day

end Date

/-! ### Timestamps -/

/-- A date and a time of day. -/
structure Timestamp where
  date : Date
  hour : Nat
  minute : Nat
  second : Nat
  nanos : Nat
  deriving DecidableEq, Repr, Inhabited

namespace Timestamp

/-- The first moment of a date. -/
def midnight (d : Date) : Timestamp := ⟨d, 0, 0, 0, 0⟩

/-- Hours, minutes and seconds with colons between; a leap second is second 60. -/
def clock (t : Timestamp) : List Char :=
  Text.padded 2 t.hour ++ ':' :: Text.padded 2 t.minute ++
    ':' :: Text.padded 2 (t.second + t.nanos / 1000000000)

/-- The fraction of a second in three, six or nine digits, and nothing for a whole second. -/
def fraction (t : Timestamp) : List Char :=
  let n := t.nanos % 1000000000
  if n = 0 then []
  else if n % 1000000 = 0 then '.' :: Text.padded 3 (n / 1000000)
  else if n % 1000 = 0 then '.' :: Text.padded 6 (n / 1000)
  else '.' :: Text.padded 9 n

/-- Date and time to the second, with a blank between. -/
def toSeconds (t : Timestamp) : String := String.ofList (t.date.chars ++ ' ' :: t.clock)

/-- Date and time with its fraction. -/
def render (t : Timestamp) : String :=
  String.ofList (t.date.chars ++ ' ' :: t.clock ++ t.fraction)

/-- Date and time with its fraction, joined by a `T`. -/
def renderJoined (t : Timestamp) : String :=
  String.ofList (t.date.chars ++ 'T' :: t.clock ++ t.fraction)

/-- Nanoseconds since the start of the year 2000. -/
def toNanos (t : Timestamp) : Int :=
  (t.date.toDays * 86400 + t.hour * 3600 + t.minute * 60 + t.second) * 1000000000 + t.nanos

/-- Microseconds since the start of the year 2000, a rest cut off toward zero. -/
def toMicros (t : Timestamp) : Int := t.toNanos.tdiv 1000

/-- The timestamp that many microseconds after the start of the year 2000, if its year is in
range. -/
def ofMicros? (micros : Int) : Option Timestamp :=
  let days := micros.fdiv 86400000000
  let rest := (micros - days * 86400000000).toNat
  let date := Date.ofDays days
  if date.inRange then
    some ⟨date, rest / 3600000000, rest / 60000000 % 60, rest / 1000000 % 60,
      rest % 1000000 * 1000⟩
  else none

end Timestamp

end SqlAccess
