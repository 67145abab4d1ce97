import Shipment.Text.Number

/-!
# Civil time

An instant is a number of seconds since the start of 1970 with a number of
nanoseconds.  A thousand million nanoseconds or more mark a leap second, which
is written as a second more.  `CivilTime.ofInstant` is its date and time of day in UTC,
in the Gregorian calendar carried back without end.

The date is found by counting days from the first of March of the year zero,
so that the leap day is the last of its year.
-/

namespace Shipment

/-- A point in time. -/
structure Instant where
  /-- Seconds since the start of 1970. -/
  seconds : Int
  /-- Nanoseconds since then. -/
  nanos : Nat
deriving DecidableEq, Repr

/-- A date and a time of day. -/
structure CivilTime where
  /-- The year, negative before the year zero. -/
  year : Int
  /-- The month, from 1. -/
  month : Nat
  /-- The day of the month, from 1. -/
  day : Nat
  /-- The hour. -/
  hour : Nat
  /-- The minute. -/
  minute : Nat
  /-- The second, up to 60. -/
  second : Nat
deriving DecidableEq, Repr

namespace CivilTime

/-- The seconds of a day. -/
def daySeconds : Int := 86400

/-- The days of four hundred years. -/
def eraDays : Int := 146097

/-- The days from the first of March of the year zero to the start of 1970. -/
def epochDays : Int := 719468

/-- Year, month and day of a number of days since the start of 1970. -/
def dateOfDays (days : Int) : Int × Nat × Nat :=
  let shifted := days + epochDays
  let era := shifted.fdiv eraDays
  let dayOfEra := (shifted - era * eraDays).toNat
  let yearOfEra :=
    (dayOfEra - dayOfEra / 1460 + dayOfEra / 36524 - dayOfEra / 146096) / 365
  let dayOfYear := dayOfEra - (365 * yearOfEra + yearOfEra / 4 - yearOfEra / 100)
  let monthFromMarch := (5 * dayOfYear + 2) / 153
  let day := dayOfYear - (153 * monthFromMarch + 2) / 5 + 1
  let month := if monthFromMarch < 10 then monthFromMarch + 3 else monthFromMarch - 9
  let year := yearOfEra + era * 400 + (if month ≤ 2 then 1 else 0)
  (year, month, day)

/-- The date and the time of day of an instant. -/
def ofInstant (i : Instant) : CivilTime :=
  let days := i.seconds.fdiv daySeconds
  let rest := (i.seconds - days * daySeconds).toNat
  let date := dateOfDays days
  { year := date.1
    month := date.2.1
    day := date.2.2
    hour := rest / 3600
    minute := rest % 3600 / 60
    second := rest % 60 + i.nanos / 1000000000 }

/-- A year in four digits, with a sign outside the years 0 to 9999. -/
def yearText (year : Int) : String :=
  if 0 ≤ year && year ≤ 9999 then Text.padded 4 year.toNat
  else (if year < 0 then "-" else "+") ++ Text.padded 4 year.natAbs

/-- The date and time as one row of digits, from year to second. -/
def digits (t : CivilTime) : String :=
  yearText t.year ++ Text.padded 2 t.month ++ Text.padded 2 t.day ++ Text.padded 2 t.hour ++
    Text.padded 2 t.minute ++ Text.padded 2 t.second

example : (ofInstant ⟨0, 0⟩).digits = "19700101000000" := by decide +kernel
example : (ofInstant ⟨951782400, 0⟩).digits = "20000229000000" := by decide +kernel
example : (ofInstant ⟨-1, 0⟩).digits = "19691231235959" := by decide +kernel

end CivilTime

end Shipment
