import BucketTransfer.Json.Value
import BucketTransfer.Decimal.Shortest
import BucketTransfer.Text.Hex

/-!
# JSON text

The compact form has no blanks. The indented form puts every item and member on a line of its own,
two spaces further in than its container. Doubles have the fewest digits that read back, always with
a point or an exponent.
-/
namespace BucketTransfer.Json

open BucketTransfer.Text

/-- How a character stands in a string: quotes, backslashes and control characters are escaped. -/
def escapeChar (c : Char) : List Char :=
  if c = '"' then ['\\', '"']
  else if c = '\\' then ['\\', '\\']
  else if c.toNat = 0x08 then ['\\', 'b']
  else if c.toNat = 0x09 then ['\\', 't']
  else if c.toNat = 0x0a then ['\\', 'n']
  else if c.toNat = 0x0c then ['\\', 'f']
  else if c.toNat = 0x0d then ['\\', 'r']
  else if c.toNat < 0x20 then
    ['\\', 'u', '0', '0', hexDigit (c.toNat / 16), hexDigit (c.toNat % 16)]
  else [c]

/-- A string with its quotes. -/
def stringText (s : String) : String :=
  String.ofList ('"' :: s.toList.flatMap escapeChar ++ ['"'])

/-- Where positional notation is used: for leading digits from `10^-5` to `10^15`. -/
def positionalFrom : Int := -5
def positionalTo : Int := 15

private def zeros (n : Nat) : String := String.ofList (List.replicate n '0')

/-- A positive decimal in positional or exponent notation. -/
def decimalText (d : Decimal) : String :=
  let digits := toString d.digits
  let count := digits.length
  let leading := d.exponent + (count : Int) - 1
  if positionalFrom ≤ leading ∧ leading ≤ positionalTo then
    if 0 ≤ d.exponent then digits ++ zeros d.exponent.toNat ++ ".0"
    else if 0 ≤ leading then
      let whole := leading.toNat + 1
      String.ofList (digits.toList.take whole) ++ "." ++ String.ofList (digits.toList.drop whole)
    else "0." ++ zeros (-leading - 1).toNat ++ digits
  else
    let fraction := if count = 1 then "" else "." ++ String.ofList (digits.toList.drop 1)
    let sign := if leading < 0 then "-" else "+"
    String.ofList (digits.toList.take 1) ++ fraction ++ "e" ++ sign ++ toString leading.natAbs

/-- A finite double. -/
def doubleText (bits : UInt64) : String :=
  let sign := if bits.toNat < 0x8000000000000000 then "" else "-"
  let x := Decimal.Binary.ofBits bits
  if x.mantissa = 0 then sign ++ "0.0" else sign ++ decimalText (Decimal.shortest x)

def Number.text : Number → String
  | .integer z => toString z
  | .double bits => doubleText bits

mutual

/-- The compact form. -/
def text : Json → String
  | .null => "null"
  | .bool b => if b then "true" else "false"
  | .number n => n.text
  | .string s => stringText s
  | .array items => "[" ++ ",".intercalate (itemTexts items) ++ "]"
  | .object members => "\x7b" ++ ",".intercalate (memberTexts members) ++ "\x7d"

def itemTexts : List Json → List String
  | [] => []
  | j :: js => j.text :: itemTexts js

def memberTexts : List (String × Json) → List String
  | [] => []
  | (key, value) :: rest => (stringText key ++ ":" ++ value.text) :: memberTexts rest

end

/-- A new line, indented. -/
def newline (depth : Nat) : String := "\n" ++ String.ofList (List.replicate (2 * depth) ' ')

/-- A container whose parts, if it has any, stand on lines of their own. -/
def block (depth : Nat) (opening closing : String) (parts : List String) : String :=
  if parts.isEmpty then opening ++ closing
  else
    opening ++ newline (depth + 1) ++ ("," ++ newline (depth + 1)).intercalate parts
      ++ newline depth ++ closing

mutual

/-- The indented form inside `depth` containers. -/
def indented (depth : Nat) : Json → String
  | .null => "null"
  | .bool b => if b then "true" else "false"
  | .number n => n.text
  | .string s => stringText s
  | .array items => block depth "[" "]" (indentedItems (depth + 1) items)
  | .object members => block depth "\x7b" "\x7d" (indentedMembers (depth + 1) members)

def indentedItems (depth : Nat) : List Json → List String
  | [] => []
  | j :: js => j.indented depth :: indentedItems depth js

def indentedMembers (depth : Nat) : List (String × Json) → List String
  | [] => []
  | (key, value) :: rest =>
    (stringText key ++ ": " ++ value.indented depth) :: indentedMembers depth rest

end

/-- The indented form. -/
def pretty (j : Json) : String := j.indented 0

end BucketTransfer.Json
