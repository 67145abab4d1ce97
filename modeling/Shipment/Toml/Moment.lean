import Shipment.Text.Lines
import Shipment.Text.Number

/-!
# Dates and times in TOML

A moment is a date, a time, or a date with a time behind it and perhaps an offset
from universal time.  A `T` or one space stands between a date and its time.  The
seconds of a time may be left out.  A date is a day of the calendar, and a minute
may have a second more at its end.
-/

namespace Shipment.Toml

/-- Read a number of exactly so many digits. -/
def fixedDigits : (count value : Nat) → List Char → Option (Nat × List Char)
  | 0, value, cs => some (value, cs)
  | _ + 1, _, [] => none
  | count + 1, value, c :: cs =>
      if Text.isAsciiDigit c then fixedDigits count (value * 10 + Text.digitValue c) cs else none

/-- The days of a month. -/
def daysIn (year month : Nat) : Nat :=
  if month = 2 then
    if year % 4 = 0 ∧ (year % 100 ≠ 0 ∨ year % 400 = 0) then 29 else 28
  else if month = 4 ∨ month = 6 ∨ month = 9 ∨ month = 11 then 30
  else 31

/-- Read a date. -/
def date (cs : List Char) : Option (List Char) := do
  let (year, cs) ← fixedDigits 4 0 cs
  let (month, cs) ← fixedDigits 2 0 (← Text.after? ['-'] cs)
  let (day, cs) ← fixedDigits 2 0 (← Text.after? ['-'] cs)
  if 1 ≤ month ∧ month ≤ 12 ∧ 1 ≤ day ∧ day ≤ daysIn year month then some cs else none

/-- Read hours and minutes. -/
def hourMinute (cs : List Char) : Option (List Char) := do
  let (hour, cs) ← fixedDigits 2 0 cs
  let (minute, cs) ← fixedDigits 2 0 (← Text.after? [':'] cs)
  if hour ≤ 23 ∧ minute ≤ 59 then some cs else none

/-- Read a time.  The seconds may be left out, and may have a fraction. -/
def time (cs : List Char) : Option (List Char) := do
  let cs ← hourMinute cs
  match cs with
  | ':' :: cs => do
      let (second, cs) ← fixedDigits 2 0 cs
      if second ≤ 60 then
        match cs with
        | '.' :: cs =>
            let behind := cs.dropWhile Text.isAsciiDigit
            if behind.length < cs.length then some behind else none
        | cs => some cs
      else none
  | cs => some cs

/-- Read an offset from universal time to the end. -/
def isOffset : List Char → Bool
  | [] => true
  | ['Z'] => true
  | ['z'] => true
  | '+' :: cs => hourMinute cs == some []
  | '-' :: cs => hourMinute cs == some []
  | _ => false

/-- Whether a text is a date, a time, or a date and a time. -/
def isMoment (cs : List Char) : Bool :=
  match date cs with
  | some [] => true
  | some (c :: cs) =>
      (c == 'T' || c == 't' || c == ' ') &&
      match time cs with
      | some cs => isOffset cs
      | none => false
  | none => time cs == some []

example : isMoment "2024-02-29T07:32:00.5+01:00".toList = true := by decide +kernel
example : isMoment "2023-02-29".toList = false := by decide +kernel

end Shipment.Toml
