import BucketTransfer.Text.Number
import BucketTransfer.Utf8

/-!
# Bytes in hexadecimal

Two lower-case digits a byte.
-/
namespace BucketTransfer.Text

/-- A digit of a base up to sixteen. -/
def hexDigit (n : Nat) : Char :=
  if n < 10 then Char.ofNat ('0'.toNat + n) else Char.ofNat ('a'.toNat + (n - 10))

def hexByte (b : UInt8) : List Char := [hexDigit (b.toNat / 16), hexDigit (b.toNat % 16)]

/-- Bytes in hexadecimal. -/
def hex (bytes : Bytes) : String := String.ofList (bytes.flatMap hexByte)

/-- The bytes that hexadecimal digits of either case stand for; a digit too much is dropped. -/
def ofHex : List Char → Bytes
  | a :: b :: rest =>
    let value (c : Char) : Nat := (digitValue c).getD 0
    (value a * 16 + value b).toUInt8 :: ofHex rest
  | _ => []

/-- A number in hexadecimal with leading zeros up to `width` digits. -/
def hexPadded (width n : Nat) : String :=
  let digits := Nat.toDigits 16 n
  String.ofList (List.replicate (width - digits.length) '0' ++ digits)

end BucketTransfer.Text
