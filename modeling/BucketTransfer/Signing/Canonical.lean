import BucketTransfer.Digest.Sha256
import BucketTransfer.KeyMap
import BucketTransfer.Text.Blank
import BucketTransfer.Text.Lowercase
import BucketTransfer.Text.Percent

/-!
# Canonical requests

The text of a request that is signed. Path and query are written here as they are sent, so that what
is signed is what is asked for.
-/
namespace BucketTransfer.Signing

/-- The path with each segment encoded, and a slash in front. -/
def canonicalUri (path : String) : String :=
  let encoded := (utf8 path).flatMap fun b =>
    if b = '/'.toNat.toUInt8 then ['/'] else Text.percentByte b
  match encoded with
  | '/' :: _ => String.ofList encoded
  | _ => String.ofList ('/' :: encoded)

/-- The order of pairs: by the first, then by the second. -/
def pairLe (a b : String × String) : Bool :=
  decide (a.1 < b.1) || (a.1 == b.1 && !decide (b.2 < a.2))

/-- The parameters, encoded and in order. -/
def canonicalQuery (parameters : List (String × String)) : String :=
  let encoded := parameters.map fun p => (Text.percentEncode p.1, Text.percentEncode p.2)
  "&".intercalate ((encoded.mergeSort pairLe).map fun p => p.1 ++ "=" ++ p.2)

/-- The values of each name in small letters: trimmed, collapsed, with commas between them. -/
def headerValues (headers : List (String × String)) : KeyMap String :=
  headers.foldl (fun m h =>
    let name := Text.lowercase h.1
    let value := Text.collapse (Text.trim h.2)
    match m.get? name with
    | none => m.insert name value
    | some old => m.insert name (old ++ "," ++ value)) ∅

/-- Names in order, each once. -/
def sortedNames (names : List String) : List String :=
  (names.mergeSort fun a b => !decide (b < a)).eraseReps

/-- A line for each signed header that is there. -/
def canonicalHeaders (headers : List (String × String)) (signed : List String) : String :=
  let values := headerValues headers
  "\n".intercalate ((sortedNames signed).filterMap fun name =>
    (values.get? name).map fun value => name ++ ":" ++ value)

def signedHeaders (signed : List String) : String := ";".intercalate (sortedNames signed)

/-- A request as far as it is signed. -/
structure Request where
  method : String
  uri : String
  query : String
  headers : List (String × String)
  signed : List String
  payloadHash : String

def Request.canonical (r : Request) : String :=
  "\n".intercalate [r.method, r.uri, r.query, canonicalHeaders r.headers r.signed, "",
    signedHeaders r.signed, r.payloadHash]

/-- The digest of a body. -/
def payloadHash (body : Bytes) : String := Digest.Sha256.hexDigest body

end BucketTransfer.Signing
