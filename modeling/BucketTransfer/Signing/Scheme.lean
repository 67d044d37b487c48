import BucketTransfer.Calendar
import BucketTransfer.Credential
import BucketTransfer.Signing.Canonical
import BucketTransfer.Signing.Headers

/-!
# Signing requests

Two schemes. The store's derives a key from the secret, the day and the region, and signs the time,
the digest of the body and the session token. The gateway's uses the secret itself. Both sign every
header field that is there.
-/
namespace BucketTransfer.Signing

inductive Error where
  | missingHeader (name : String)
  | invalidHeaderValue (name : String)
  | invalidAuthorization
  deriving DecidableEq, Repr

def Error.message : Error → String
  | .missingHeader name => s!"missing required header: {name}"
  | .invalidHeaderValue name => s!"header {name} is not a valid ASCII value"
  | .invalidAuthorization => "invalid authorization header: failed to parse header value"

/-- An error, with the header fields as far as they had been made. -/
structure Failure where
  error : Error
  headers : Headers

/-- Makes a text the value of a field, if it may be one. -/
def Headers.insertText (h : Headers) (name value : String) : Except Failure Headers :=
  if (utf8 value).all isValueByte then .ok (h.insert name (utf8 value))
  else .error ⟨.invalidAuthorization, h⟩

/-- The fields as texts. -/
def Headers.texts (h : Headers) : Except Failure (List (String × String)) :=
  h.pairs.mapM fun p =>
    if p.2.all isTextByte then .ok (p.1, String.ofList (p.2.map fun b => Char.ofNat b.toNat))
    else .error ⟨.invalidHeaderValue p.1, h⟩

/-- What a signer is given besides the header fields. -/
structure Input where
  method : String
  uri : String
  query : String
  payloadHash : String
  time : Moment

inductive Scheme where
  | store (region : String)
  | gateway

namespace Scheme

def algorithm : Scheme → String
  | .store _ => "AWS4-HMAC-SHA256"
  | .gateway => "SDK-HMAC-SHA256"

/-- The fields that the scheme sets. -/
def ownFields (s : Scheme) (c : Credentials) (input : Input) : List (String × String) :=
  let token (name : String) := (c.sessionToken.map fun t => (name, t)).toList
  match s with
  | .store _ =>
    [("x-amz-date", input.time.basicText), ("x-amz-content-sha256", input.payloadHash)]
      ++ token "x-amz-security-token"
  | .gateway => [("x-sdk-date", input.time.basicText)] ++ token "x-security-token"

/-- The path that is signed: the gateway's ends with a slash. -/
def signedUri (s : Scheme) (uri : String) : String :=
  match s with
  | .store _ => uri
  | .gateway => if uri.toList.getLast? = some '/' then uri else uri ++ "/"

/-- What limits a key to a day, a region and a service. -/
def scope (region : String) (time : Moment) : String :=
  time.dateText ++ "/" ++ region ++ "/s3/aws4_request"

/-- The key of a day, a region and a service. -/
def signingKey (secret date region service : String) : Bytes :=
  ["aws4_request", service, region, date].foldr
    (fun part key => Digest.Sha256.keyed key (utf8 part)) (utf8 ("AWS4" ++ secret))

def storeStringToSign (time scope hash : String) : String :=
  "\n".intercalate ["AWS4-HMAC-SHA256", time, scope, hash]

def gatewayStringToSign (time hash : String) : String :=
  "\n".intercalate ["SDK-HMAC-SHA256", time, hash]

/-- The signature of a canonical request. -/
def signature (s : Scheme) (c : Credentials) (time : Moment) (canonical : String) : String :=
  let hash := payloadHash (utf8 canonical)
  match s with
  | .store region =>
    let key := signingKey c.secretKey time.dateText region "s3"
    Text.hex (Digest.Sha256.keyed key
      (utf8 (storeStringToSign time.basicText (scope region time) hash)))
  | .gateway =>
    Text.hex (Digest.Sha256.keyed (utf8 c.secretKey)
      (utf8 (gatewayStringToSign time.basicText hash)))

/-- Who signs. -/
def claimant (s : Scheme) (c : Credentials) (time : Moment) : String :=
  match s with
  | .store region => "Credential=" ++ c.accessKey ++ "/" ++ scope region time
  | .gateway => "Access=" ++ c.accessKey

/-- The request that is signed when its header fields are `headers`. -/
def request (s : Scheme) (input : Input) (headers : List (String × String)) : Request where
  method := input.method
  uri := s.signedUri input.uri
  query := input.query
  headers := headers
  signed := headers.map (·.1)
  payloadHash := input.payloadHash

/-- The value of the field that carries the signature. -/
def authorization (s : Scheme) (c : Credentials) (input : Input)
    (headers : List (String × String)) : String :=
  s.algorithm ++ " " ++ s.claimant c input.time
    ++ ", SignedHeaders=" ++ signedHeaders (headers.map (·.1))
    ++ ", Signature=" ++ s.signature c input.time (s.request input headers).canonical

/-- Signs a request: sets the scheme's fields and then the signature, in place of any older one. -/
def sign (s : Scheme) (c : Credentials) (input : Input) (h : Headers) : Except Failure Headers := do
  if !h.contains "host" then .error ⟨.missingHeader "host", h⟩
  else
    let h ← (s.ownFields c input).foldlM (fun h f => h.insertText f.1 f.2)
      (h.remove "authorization")
    let texts ← h.texts
    h.insertText "authorization" (s.authorization c input texts)

end Scheme

end BucketTransfer.Signing
