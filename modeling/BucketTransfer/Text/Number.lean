/-!
# Numbers in text

Unsigned numbers are written in digits after an optional plus sign. Reading goes from left to right
and stops at the first fault.
-/
namespace BucketTransfer.Text

/-- Why a text is no number. -/
inductive NumberFault where
  | empty
  | invalidDigit
  | tooLarge
  deriving DecidableEq, Repr

def NumberFault.message : NumberFault → String
  | .empty => "cannot parse integer from empty string"
  | .invalidDigit => "invalid digit found in string"
  | .tooLarge => "number too large to fit in target type"

/-- The value of a digit, of either case. -/
def digitValue (c : Char) : Option Nat :=
  if c.isDigit then some (c.toNat - '0'.toNat)
  else if 'a' ≤ c ∧ c ≤ 'z' then some (c.toNat - 'a'.toNat + 10)
  else if 'A' ≤ c ∧ c ≤ 'Z' then some (c.toNat - 'A'.toNat + 10)
  else none

/-- Reads the digits that follow a number `value`, which must not exceed `limit`. -/
def readDigits (base limit value : Nat) : List Char → Except NumberFault Nat
  | [] => .ok value
  | c :: cs =>
    match digitValue c with
    | none => .error .invalidDigit
    | some d =>
      if base ≤ d then .error .invalidDigit
      else if limit < value * base + d then .error .tooLarge
      else readDigits base limit (value * base + d) cs

/-- Reads a number up to `limit`. -/
def readUnsigned (base limit : Nat) : List Char → Except NumberFault Nat
  | [] => .error .empty
  | '+' :: [] => .error .invalidDigit
  | '+' :: cs => readDigits base limit 0 cs
  | cs => readDigits base limit 0 cs

def maxU32 : Nat := 4294967295
def maxU64 : Nat := 18446744073709551615
def maxI64 : Nat := 9223372036854775807

end BucketTransfer.Text
