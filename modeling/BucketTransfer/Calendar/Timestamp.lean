import BucketTransfer.Calendar
import BucketTransfer.Utf8

/-!
# Timestamps

Date, time of day and distance from universal time, as they stand in documents. Reading goes from
left to right over the bytes and stops at the first fault; that the month has the day is checked
last.
-/
namespace BucketTransfer.Moment

/-- Why a text is no timestamp. -/
inductive Fault where
  | truncated
  | malformed
  | outOfRange
  | trailing
  deriving DecidableEq, Repr

def Fault.message : Fault → String
  | .truncated => "premature end of input"
  | .malformed => "input contains invalid characters"
  | .outOfRange => "input is out of range"
  | .trailing => "trailing input"

/-- The value of a digit. -/
def digit? (b : UInt8) : Option Nat :=
  if 0x30 ≤ b ∧ b ≤ 0x39 then some (b.toNat - 0x30) else none

/-- Takes a number of `width` digits off the front. -/
def digits (width : Nat) (input : Bytes) : Except Fault (Nat × Bytes) :=
  if input.length < width then .error .truncated
  else
    match (input.take width).mapM digit? with
    | none => .error .malformed
    | some values => .ok (values.foldl (fun n d => 10 * n + d) 0, input.drop width)

/-- Takes a number of two digits off the front that lies in a range. -/
def field (lowest highest : Nat) (input : Bytes) : Except Fault (Nat × Bytes) := do
  let (n, rest) ← digits 2 input
  if n < lowest || highest < n then .error .outOfRange else .ok (n, rest)

/-- Passes one of some ASCII characters. -/
def one (allowed : String) : Bytes → Except Fault Bytes
  | [] => .error .truncated
  | b :: rest => if b ∈ utf8 allowed then .ok rest else .error .malformed

/-- The thousandths of a second that a fraction, if there is one, begins with. -/
def thousandths (input : Bytes) : Except Fault (Nat × Bytes) :=
  match one "." input with
  | .error _ => .ok (0, input)
  | .ok rest => do
    let _ ← digits 1 rest
    let isDigit b := (digit? b).isSome
    let (n, _) ← digits 3 (rest.takeWhile isDigit ++ utf8 "00")
    return (n, rest.dropWhile isDigit)

/-- A sign, which may be a proper minus sign. -/
def sign (input : Bytes) : Except Fault (Int × Bytes) :=
  if input.isEmpty then .error .truncated
  else if (utf8 "+").isPrefixOf input then .ok (1, input.drop 1)
  else if (utf8 "-").isPrefixOf input then .ok (-1, input.drop 1)
  else if (utf8 "−").isPrefixOf input then .ok (-1, input.drop 3)
  else .error .malformed

/-- The distance from universal time in seconds, less than a day. -/
def offset (input : Bytes) : Except Fault (Int × Bytes) :=
  match one "Zz" input with
  | .ok rest => .ok (0, rest)
  | .error _ => do
    let (sign, rest) ← sign input
    let (hours, rest) ← digits 2 rest
    let (minutes, rest) ← field 0 59 (← one ":" rest)
    let seconds : Int := hours * 3600 + minutes * 60
    if 86400 ≤ seconds then .error .outOfRange else .ok (sign * seconds, rest)

def isLeapYear (year : Nat) : Bool := year % 4 == 0 && (year % 100 != 0 || year % 400 == 0)

def daysOfMonth (year month : Nat) : Nat :=
  if month = 2 then (if isLeapYear year then 29 else 28)
  else if month = 4 ∨ month = 6 ∨ month = 9 ∨ month = 11 then 30
  else 31

/-- The milliseconds from the start of 1970 to a timestamp. -/
def milliseconds (timestamp : String) : Except Fault Int := do
  let (year, rest) ← digits 4 (utf8 timestamp)
  let (month, rest) ← field 1 12 (← one "-" rest)
  let (day, rest) ← field 1 31 (← one "-" rest)
  let (hour, rest) ← field 0 23 (← one "Tt " rest)
  let (minute, rest) ← field 0 59 (← one ":" rest)
  let (second, rest) ← field 0 60 (← one ":" rest)
  let (thousandths, rest) ← thousandths rest
  let (offset, rest) ← offset rest
  if !rest.isEmpty then .error .trailing
  else if daysOfMonth year month < day then .error .outOfRange
  else
    .ok ((dayOfDate year month day * 86400 + hour * 3600 + minute * 60 + second - offset) * 1000
      + thousandths)

end BucketTransfer.Moment
