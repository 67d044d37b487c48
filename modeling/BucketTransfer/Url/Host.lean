import BucketTransfer.Text.Lowercase
import BucketTransfer.Text.Percent
import BucketTransfer.Url.Address
import BucketTransfer.Url.Punycode

/-!
# Hosts

The host of a URL is a domain or an address. A domain is written in ASCII and in small letters.
-/
namespace BucketTransfer.Url

/-- Bytes with each percent sign and two digits behind it as one byte. -/
def percentDecode : Bytes → Bytes
  | 0x25 :: a :: b :: rest =>
    let digit (b : UInt8) : Option Nat :=
      (Text.digitValue (Char.ofNat b.toNat)).filter (· < 16)
    match digit a, digit b with
    | some x, some y => (x * 16 + y).toUInt8 :: percentDecode rest
    | _, _ => 0x25 :: percentDecode (a :: b :: rest)
  | b :: rest => b :: percentDecode rest
  | [] => []

/-- A character that no host may have, whether a domain or not. -/
def isForbidden (c : Char) : Bool :=
  c.toNat == 0 || c == '\t' || c == '\n' || c == '\r' || " #/:<>?@[\\]^|".toList.contains c

/-- A character that no domain may have. -/
def isForbiddenInDomain (c : Char) : Bool :=
  decide (c.toNat < 0x20) || c.toNat == 0x7f || c == '%' || isForbidden c

/-- A label in ASCII. -/
def asciiLabel (label : List Char) : Except Error (List Char) :=
  if label.all fun c => decide (c.toNat < 128) then
    if label.any isForbiddenInDomain then .error .domain
    else if label.take 4 = "xn--".toList then
      match Punycode.decode (label.drop 4) with
      | some decoded =>
        if decoded.all fun c => decide (c.toNat < 128) then .error .domain else .ok label
      | none => .error .domain
    else .ok label
  else .ok ("xn--".toList ++ Punycode.encode label)

/-- A stop between labels as the usual dot. -/
def usualDot (c : Char) : Char :=
  if c.toNat = 0x3002 ∨ c.toNat = 0xff0e ∨ c.toNat = 0xff61 then '.' else c

/-- A domain in ASCII and small letters. -/
def asciiDomain (name : List Char) : Except Error (List Char) := do
  let small := (Text.lowercase (String.ofList (name.map usualDot))).toList
  return ['.'].intercalate (← (Text.split '.' small).mapM asciiLabel)

/-- The host that is written between brackets or, in a scheme that has domains, as a domain or an
address of four bytes. -/
def specialHost (cs : List Char) : Except Error String :=
  match cs with
  | '[' :: inner =>
    if inner.getLast? = some ']' then do return "[" ++ (← ipv6 inner.dropLast) ++ "]"
    else .error .ipv6
  | cs =>
    match Utf8.decode (percentDecode (Utf8.encode cs)) with
    | .error _ => .error .domain
    | .ok name => do
      let domain ← asciiDomain name
      if domain.isEmpty then .error .emptyHost
      else if endsInNumber domain then ipv4 domain
      else return String.ofList domain

/-- The host of a scheme that gives it no meaning. -/
def opaqueHost (cs : List Char) : Except Error String :=
  match cs with
  | '[' :: _ => specialHost cs
  | cs =>
    if cs.any isForbidden then .error .hostCharacter
    else .ok (String.ofList (cs.flatMap fun c =>
      if c.toNat < 0x20 ∨ 0x7f ≤ c.toNat then (Utf8.encode [c]).flatMap Text.escapeByte else [c]))

end BucketTransfer.Url
