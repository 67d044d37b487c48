import BucketTransfer.Json.Printer
import BucketTransfer.Json.Record
import BucketTransfer.Text.Quoted

/-!
# Credentials

Keys that sign requests, and temporary ones that an identity service has issued. When they are
shown, only the name of the key is.
-/
namespace BucketTransfer

/-- Keys to sign requests with. -/
structure Credentials where
  accessKey : String
  secretKey : String
  sessionToken : Option String := none
  deriving DecidableEq, Repr

open Text in
def Credentials.display (c : Credentials) : String :=
  record "Credentials" [("access_key_id", quoted c.accessKey), ("secret_access_key", redacted),
    ("session_token", optional (c.sessionToken.map fun _ => redacted))]

/-- Keys that an identity service has issued for a limited time, in milliseconds since 1970. -/
structure TemporaryCredential where
  accessKey : String
  secretKey : String
  securityToken : String
  expiresAt : Int := 0
  deriving DecidableEq, Repr

namespace TemporaryCredential

/-- A credential whose time of expiry is not positive does not expire. -/
def isExpiredAt (c : TemporaryCredential) (now : Int) : Bool :=
  decide (0 < c.expiresAt ∧ c.expiresAt ≤ now)

def toCredentials (c : TemporaryCredential) : Credentials :=
  ⟨c.accessKey, c.secretKey, some c.securityToken⟩

open Text in
def display (c : TemporaryCredential) : String :=
  record "TemporaryCredential" [("access_key", quoted c.accessKey), ("secret_key", redacted),
    ("security_token", redacted), ("expires_at_epoch_millis", toString c.expiresAt)]

def toJson (c : TemporaryCredential) : Json :=
  .object [("ak", .string c.accessKey), ("sk", .string c.secretKey),
    ("token", .string c.securityToken), ("expiration", .int c.expiresAt)]

def reader : Json.Reader TemporaryCredential :=
  (Json.Fields.and (.required "ak" Json.Reader.string) <|
    .and (.required "sk" Json.Reader.string) <|
    .and (.required "token" Json.Reader.string) <|
    .and (.defaulted "expiration" (Json.Reader.integer (-Text.maxI64 - 1) Text.maxI64) 0)
      .none).into
    fun (accessKey, secretKey, securityToken, expiresAt, ()) =>
      ⟨accessKey, secretKey, securityToken, expiresAt⟩

/-- Reads a stored credential. -/
def ofText (text : String) : Except Json.Fault TemporaryCredential :=
  reader.complete (utf8 text)

end TemporaryCredential

end BucketTransfer
