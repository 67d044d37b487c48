import BucketTransfer.Text.Number

/-!
# Calendar

Moments in seconds since the start of 1970, and their date and time in the Gregorian calendar.
-/
namespace BucketTransfer

/-- A date and time of day. -/
structure Moment where
  year : Int
  month : Nat
  day : Nat
  hour : Nat
  minute : Nat
  second : Nat
  deriving DecidableEq, Repr

namespace Moment

/-- The date of a day counted from the start of 1970. Years are counted from March, in cycles of 400
years that start with the year 0. -/
def dateOfDay (day : Int) : Int × Nat × Nat :=
  let shifted := day + 719468
  let cycle := shifted / 146097
  let dayOfCycle := (shifted % 146097).toNat
  let yearOfCycle :=
    (dayOfCycle - dayOfCycle / 1460 + dayOfCycle / 36524 - dayOfCycle / 146096) / 365
  let dayOfYear := dayOfCycle - (365 * yearOfCycle + yearOfCycle / 4 - yearOfCycle / 100)
  let shiftedMonth := (5 * dayOfYear + 2) / 153
  let month := if shiftedMonth < 10 then shiftedMonth + 3 else shiftedMonth - 9
  let year := (yearOfCycle : Int) + cycle * 400 + (if month ≤ 2 then 1 else 0)
  (year, month, dayOfYear - (153 * shiftedMonth + 2) / 5 + 1)

/-- The day of a date, counted from the start of 1970. -/
def dayOfDate (year : Int) (month day : Nat) : Int :=
  let shiftedYear := if month ≤ 2 then year - 1 else year
  let cycle := shiftedYear / 400
  let yearOfCycle := (shiftedYear % 400).toNat
  let shiftedMonth := if 2 < month then month - 3 else month + 9
  let dayOfYear := (153 * shiftedMonth + 2) / 5 + day - 1
  let dayOfCycle := yearOfCycle * 365 + yearOfCycle / 4 - yearOfCycle / 100 + dayOfYear
  cycle * 146097 + dayOfCycle - 719468

/-- The first and the last second that the calendar has. -/
def firstSecond : Int := dayOfDate (-262143) 1 1 * 86400
def lastSecond : Int := dayOfDate 262142 12 31 * 86400 + 86399

/-- The moment of a second. -/
def ofSeconds (seconds : Int) : Moment :=
  let (year, month, day) := dateOfDay (seconds / 86400)
  let rest := (seconds % 86400).toNat
  ⟨year, month, day, rest / 3600, rest / 60 % 60, rest % 60⟩

/-- The moment of a second, in the years that the calendar has. -/
def ofSeconds? (seconds : Int) : Option Moment :=
  if firstSecond ≤ seconds ∧ seconds ≤ lastSecond then some (ofSeconds seconds) else none

/-- A number with leading zeros. -/
def padded (width n : Nat) : String :=
  let digits := toString n
  String.ofList (List.replicate (width - digits.length) '0') ++ digits

/-- A year of four digits, with its sign if it has more or is negative. -/
def yearText (year : Int) : String :=
  if 0 ≤ year ∧ year ≤ 9999 then padded 4 year.toNat
  else (if year < 0 then "-" else "+") ++ padded 4 year.natAbs

def dateText (m : Moment) : String := yearText m.year ++ padded 2 m.month ++ padded 2 m.day

/-- Date and time without separators, in universal time. -/
def basicText (m : Moment) : String :=
  m.dateText ++ "T" ++ padded 2 m.hour ++ padded 2 m.minute ++ padded 2 m.second ++ "Z"

end Moment

end BucketTransfer
