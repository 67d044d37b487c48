import BucketTransfer.Calendar.Timestamp
import BucketTransfer.Credential
import BucketTransfer.Identity.Error
import BucketTransfer.Identity.Policy
import BucketTransfer.Machine
import BucketTransfer.Signing.Scheme
import BucketTransfer.Url

/-!
# Identity services on the web
-/
namespace BucketTransfer.Identity

structure Remote where
  /-- What the URL of every request begins with. -/
  endpoint : String
  /-- The host and port that requests name. -/
  host : String
  credentials : Credentials
  deriving DecidableEq, Repr

namespace Remote

/-- A client for an endpoint. -/
def connect (endpoint : String) (credentials : Credentials) : Except Error Remote :=
  let endpoint := String.ofList ((endpoint.toList.reverse.dropWhile (· == '/')).reverse)
  match Url.parse endpoint with
  | .error e => .error (.transport s!"invalid IAM endpoint {endpoint}: {e.message}")
  | .ok url =>
    match url.hostText with
    | none => .error (.transport s!"IAM endpoint {endpoint} has no host")
    | some host => .ok ⟨endpoint, host, credentials⟩

def tokenPath : String := "/v3.0/OS-CREDENTIAL/securitytokens"

/-- The request for a credential. -/
def signed (c : Remote) (r : TokenRequest) (seconds : Int) : Except Error Http.Request :=
  let body := utf8 r.toJson.text
  let uri := Signing.canonicalUri tokenPath
  let input : Signing.Input :=
    { method := "POST", uri, query := "", payloadHash := Signing.payloadHash body
      time := .ofSeconds seconds }
  let headers := (({} : Signing.Headers).insert "host" (utf8 c.host)).insert "content-type"
    (utf8 "application/json;charset=utf8")
  match Signing.Scheme.gateway.sign c.credentials input headers with
  | .error failure => .error (.transport failure.error.message)
  | .ok headers => .ok ⟨"POST", c.endpoint ++ uri, headers, body⟩

/-- The credential of an answer, with its time of expiry as a timestamp. -/
def credentialReader : Json.Reader (TemporaryCredential × String) :=
  (Json.Fields.and (.required "access" Json.Reader.string) <|
    .and (.required "secret" Json.Reader.string) <|
    .and (.required "securitytoken" Json.Reader.string) <|
    .and (.required "expires_at" Json.Reader.string) .none).into
    fun (access, secret, token, expiry, ()) => (⟨access, secret, token, 0⟩, expiry)

def answerReader : Json.Reader (TemporaryCredential × String) :=
  (Json.Fields.and (.required "credential" credentialReader) .none).into fun (c, ()) => c

/-- The code and the message of an answer that grants nothing. -/
def refusalReader : Json.Reader (Option String × Option String) :=
  (Json.Fields.and (.nullable "error_code" Json.Reader.string) <|
    .and (.nullable "error_msg" Json.Reader.string) .none).into
    fun (code, message, ()) => (code, message)

/-- Reads the credential in an answer. -/
def credentialOf (body : Bytes) : Except Error TemporaryCredential :=
  match answerReader.complete body with
  | .error fault =>
    .error (.invalidResponse s!"malformed security token response: {fault.category}")
  | .ok (credential, expiry) =>
    match Moment.milliseconds expiry with
    | .error fault => .error (.invalidResponse s!"invalid expires_at {expiry}: {fault.message}")
    | .ok time => .ok { credential with expiresAt := time }

/-- What an answer says that grants nothing. -/
def refusal (status : Nat) (body : Bytes) : Error :=
  let (code, message) := (refusalReader.complete body).toOption.getD (none, none)
  .service status code (message.getD (String.ofList (Utf8.lossy body)))

/-- Asks for a credential. -/
def issue (c : Remote) (r : TokenRequest) :
    Dialogue Machine (Except Error TemporaryCredential) := do
  match c.signed r ((← Machine.now) / 1000) with
  | .error e => return .error e
  | .ok request =>
    match ← Machine.send request with
    | .error m => return .error (.transport m)
    | .ok response =>
      match response.body.content with
      | .error m => return .error (.transport m)
      | .ok body =>
        if response.isSuccess then return credentialOf body
        else return .error (refusal response.status body)

end Remote

end BucketTransfer.Identity
