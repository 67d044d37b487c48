/-!
# Errors of object stores

A store answers with a status and a code; or no answer arrives, or one that cannot be understood, or
the request is one that no store would take.
-/
namespace BucketTransfer.ObjectStore

/-- The codes that are told apart; all others are kept by name. -/
inductive Code where
  | accessDenied
  | bucketAlreadyExists
  | bucketAlreadyOwnedByYou
  | bucketNotEmpty
  | internalError
  | invalidAccessKeyId
  | invalidBucketName
  | invalidPart
  | noSuchBucket
  | noSuchKey
  | noSuchUpload
  | requestTimeout
  | serviceUnavailable
  | signatureDoesNotMatch
  | slowDown
  | other (name : String)
  deriving DecidableEq, Repr

namespace Code

def name : Code → String
  | accessDenied => "AccessDenied"
  | bucketAlreadyExists => "BucketAlreadyExists"
  | bucketAlreadyOwnedByYou => "BucketAlreadyOwnedByYou"
  | bucketNotEmpty => "BucketNotEmpty"
  | internalError => "InternalError"
  | invalidAccessKeyId => "InvalidAccessKeyId"
  | invalidBucketName => "InvalidBucketName"
  | invalidPart => "InvalidPart"
  | noSuchBucket => "NoSuchBucket"
  | noSuchKey => "NoSuchKey"
  | noSuchUpload => "NoSuchUpload"
  | requestTimeout => "RequestTimeout"
  | serviceUnavailable => "ServiceUnavailable"
  | signatureDoesNotMatch => "SignatureDoesNotMatch"
  | slowDown => "SlowDown"
  | other s => s

/-- The codes that are told apart. -/
def known : List Code :=
  [accessDenied, bucketAlreadyExists, bucketAlreadyOwnedByYou, bucketNotEmpty, internalError,
    invalidAccessKeyId, invalidBucketName, invalidPart, noSuchBucket, noSuchKey, noSuchUpload,
    requestTimeout, serviceUnavailable, signatureDoesNotMatch, slowDown]

def ofName (s : String) : Code := (known.find? fun c => c.name == s).getD (other s)

/-- The code of an answer that has only a status. -/
def ofStatus (status : Nat) : Code :=
  if status = 403 then accessDenied
  else if status = 404 then noSuchKey
  else if status = 503 then serviceUnavailable
  else if status = 500 then internalError
  else other (toString status)

def isOther : Code → Bool
  | other _ => true
  | _ => false

end Code

/-- What an error means for what was wanted. -/
inductive Reason where
  | notFound
  | alreadyExists
  | accessDenied
  | other
  deriving DecidableEq, Repr

inductive Error where
  | service (status : Nat) (code : Code) (message : String) (requestId : Option String)
  | transport (message : String)
  | invalidResponse (message : String)
  | invalidRequest (message : String)
  deriving DecidableEq, Repr

namespace Error

/-- An answer of the store by status, code and message. -/
def ofCode (status : Nat) (code message : String) : Error :=
  .service status (Code.ofName code) message none

def message : Error → String
  | .service status code message _ => s!"{code.name}: {message} (status {status})"
  | .transport m => s!"transport error: {m}"
  | .invalidResponse m => s!"invalid response: {m}"
  | .invalidRequest m => s!"invalid request: {m}"

def code? : Error → Option Code
  | .service _ code _ _ => some code
  | _ => none

/-- Whether the same request may succeed later. -/
def isRetryable : Error → Bool
  | .transport _ => true
  | .service status code _ _ =>
    500 ≤ status || status == 429 || code == .slowDown || code == .serviceUnavailable
      || code == .internalError || code == .requestTimeout
  | .invalidResponse _ => false
  | .invalidRequest _ => false

def reason : Error → Reason
  | .service status code _ _ =>
    match code with
    | .noSuchBucket | .noSuchKey | .noSuchUpload => .notFound
    | .bucketAlreadyExists | .bucketAlreadyOwnedByYou => .alreadyExists
    | .accessDenied | .invalidAccessKeyId | .signatureDoesNotMatch => .accessDenied
    | _ =>
      if status = 404 then .notFound
      else if status = 401 ∨ status = 403 then .accessDenied
      else .other
  | _ => .other

end Error

end BucketTransfer.ObjectStore
