import BucketTransfer.Text.Hex

/-!
# Percent encoding

Bytes that are not unreserved become a percent sign and two digits.
-/
namespace BucketTransfer.Text

/-- A byte that stands for itself anywhere in a URI. -/
def isUnreserved (b : UInt8) : Bool :=
  let c := Char.ofNat b.toNat
  c.isAlphanum || c == '-' || c == '_' || c == '.' || c == '~'

/-- A percent sign and two capital digits. -/
def escapeByte (b : UInt8) : List Char :=
  ['%', (hexDigit (b.toNat / 16)).toUpper, (hexDigit (b.toNat % 16)).toUpper]

def percentByte (b : UInt8) : List Char :=
  if isUnreserved b then [Char.ofNat b.toNat] else escapeByte b

/-- A text with all but unreserved characters encoded. -/
def percentEncode (s : String) : String := String.ofList ((utf8 s).flatMap percentByte)

end BucketTransfer.Text
