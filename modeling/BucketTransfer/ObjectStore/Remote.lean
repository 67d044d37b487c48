import BucketTransfer.Digest.Md5
import BucketTransfer.Machine
import BucketTransfer.ObjectStore.Document
import BucketTransfer.ObjectStore.Request
import BucketTransfer.Signing.Scheme
import BucketTransfer.Text.Base64
import BucketTransfer.Url

/-!
# Object stores on the web

A client that sends signed requests. Bucket and key stand in the path; path and query are sent as
they are signed.
-/
namespace BucketTransfer.ObjectStore

structure Remote where
  /-- What the URL of every request begins with. -/
  endpoint : String
  /-- The host and port that requests name. -/
  host : String
  region : String
  credentials : Credentials
  deriving DecidableEq, Repr

/-- A request before it is signed. -/
structure Unsigned where
  method : String
  path : String
  query : List (String × String) := []
  headers : Signing.Headers := {}
  body : Bytes := []

namespace Remote

/-- An endpoint without blanks around it and slashes at its end, and with a scheme. -/
def normalEndpoint (endpoint : String) : Except Error String :=
  let trimmed := ((Text.trim endpoint).toList.reverse.dropWhile (· == '/')).reverse
  if trimmed.isEmpty then .error (.invalidRequest "endpoint is empty")
  else if "http://".toList.isPrefixOf trimmed || "https://".toList.isPrefixOf trimmed then
    .ok (String.ofList trimmed)
  else .ok ("https://" ++ String.ofList trimmed)

/-- A client for an endpoint. -/
def connect (endpoint region : String) (credentials : Credentials) : Except Error Remote := do
  let endpoint ← normalEndpoint endpoint
  match Url.parse endpoint with
  | .error e => .error (.invalidRequest s!"invalid endpoint {endpoint}: {e.message}")
  | .ok url =>
    match url.hostText with
    | none => .error (.invalidRequest s!"endpoint {endpoint} has no host")
    | some host => .ok ⟨endpoint, host, region, credentials⟩

/-- The path of a bucket, or of what is in it. -/
def pathOf (bucket : String) (key : Option String := none) : String :=
  "/" ++ bucket ++ key.elim "" ("/" ++ ·)

def xmlHeaders : Signing.Headers :=
  ({} : Signing.Headers).insert "content-type" (utf8 "application/xml")

/-- What a request comes to that is not sent, or the request that is sent. -/
def plan (c : Remote) : (r : Request) → Except Error r.Reply ⊕ Unsigned
  | .createBucket bucket =>
    if c.region.isEmpty || c.region == "us-east-1" then
      .inr { method := "PUT", path := pathOf bucket }
    else
      .inr
        { method := "PUT", path := pathOf bucket, headers := xmlHeaders
          body := utf8 (locationDocument "CreateBucketConfiguration" c.region) }
  | .deleteBucket bucket => .inr { method := "DELETE", path := pathOf bucket }
  | .listObjects bucket keyPrefix marker =>
    .inr
      { method := "GET", path := pathOf bucket
        query := [("max-keys", "1000")]
          ++ (if keyPrefix.isEmpty then [] else [("prefix", keyPrefix)])
          ++ (marker.map fun m => ("marker", m)).toList }
  | .putObject bucket key body => .inr { method := "PUT", path := pathOf bucket key, body }
  | .getObject bucket key => .inr { method := "GET", path := pathOf bucket key }
  | .deleteObject bucket key => .inr { method := "DELETE", path := pathOf bucket key }
  | .deleteObjects bucket keys =>
    if keys.isEmpty then .inl (.ok {})
    else if maxBatch < keys.length then
      let count := keys.length
      .inl (.error (.invalidRequest
        s!"cannot delete {count} keys in one request (limit {maxBatch})"))
    else
      let body := utf8 (deleteDocument keys true)
      .inr
        { method := "POST", path := pathOf bucket, query := [("delete", "")]
          headers := xmlHeaders.insert "content-md5" (utf8 (Text.base64 (Digest.Md5.digest body)))
          body }
  | .initiateUpload bucket key =>
    .inr { method := "POST", path := pathOf bucket key, query := [("uploads", "")] }
  | .uploadPart part =>
    .inr
      { method := "PUT", path := pathOf part.bucket part.key
        query := [("partNumber", toString part.number), ("uploadId", part.uploadId)]
        body := part.body }
  | .completeUpload upload parts =>
    .inr
      { method := "POST", path := pathOf upload.bucket upload.key
        query := [("uploadId", upload.id)], headers := xmlHeaders
        body := utf8 (completeDocument parts) }
  | .abortUpload upload =>
    .inr
      { method := "DELETE", path := pathOf upload.bucket upload.key
        query := [("uploadId", upload.id)] }
  | .close => .inl (.ok ())

/-- The URL of a request. -/
def urlOf (c : Remote) (u : Unsigned) : String :=
  let query := Signing.canonicalQuery u.query
  c.endpoint ++ Signing.canonicalUri u.path ++ if query.isEmpty then "" else "?" ++ query

/-- A request with its signature. -/
def signed (c : Remote) (u : Unsigned) (seconds : Int) : Except Error Http.Request :=
  let input : Signing.Input :=
    { method := u.method, uri := Signing.canonicalUri u.path
      query := Signing.canonicalQuery u.query, payloadHash := Signing.payloadHash u.body
      time := .ofSeconds seconds }
  match (Signing.Scheme.store c.region).sign c.credentials input
      (u.headers.insert "host" (utf8 c.host)) with
  | .error failure => .error (.invalidRequest failure.error.message)
  | .ok headers => .ok ⟨u.method, c.urlOf u, headers, u.body⟩

/-- What an answer says that does not grant the request. -/
def refusal (r : Http.Response) : Error :=
  let requestId := (r.text? "x-obs-request-id").or (r.text? "x-amz-request-id")
  match ErrorBody.ofDocument? (r.body.content.toOption.getD []) with
  | some body =>
    .service r.status (.ofName body.code) body.message (body.requestId.or requestId)
  | none =>
    .service r.status (.ofStatus r.status) ((Http.reasonPhrase r.status).getD "unknown error")
      requestId

/-- Sends a request; only an answer that grants it counts. -/
def exchange (c : Remote) (u : Unsigned) : Dialogue Machine (Except Error Http.Response) := do
  match c.signed u ((← Machine.now) / 1000) with
  | .error e => return .error e
  | .ok request =>
    match ← Machine.send request with
    | .error m => return .error (.transport m)
    | .ok response => return if response.isSuccess then .ok response else .error (refusal response)

/-- The body of an answer. -/
def content (r : Http.Response) : Except Error Bytes :=
  match r.body.content with
  | .ok content => .ok content
  | .error m => .error (.transport m)

/-- Reads the document of an answer. -/
def documentOf {α : Type} (r : Xml.Reader α) (response : Http.Response) : Except Error α := do
  match readDocument r (← content response) with
  | .ok a => .ok a
  | .error e => .error (.invalidResponse e.message)

def isAsciiBlank (b : UInt8) : Bool :=
  b == 0x20 || b == 0x09 || b == 0x0a || b == 0x0c || b == 0x0d

/-- What an answer that grants a request says. -/
def reply (response : Http.Response) : (r : Request) → Except Error r.Reply
  | .listObjects .. => documentOf Page.xmlReader response
  | .putObject .. => .ok ((response.text? "etag").getD "")
  | .getObject .. =>
    .ok ⟨response.contentLength,
      (response.text? "etag").map fun e =>
        String.ofList (Text.trimWhere (· == '"') e.toList),
      response.body⟩
  | .deleteObjects .. => do
    if (← content response).all isAsciiBlank then .ok {}
    else documentOf DeleteResult.xmlReader response
  | .initiateUpload .. => documentOf Upload.xmlReader response
  | .uploadPart part =>
    match response.text? "etag" with
    | some etag => .ok ⟨part.number, etag⟩
    | none => .error (.invalidResponse s!"upload of part {part.number} returned no ETag")
  | .completeUpload .. => do
    match ErrorBody.ofDocument? (← content response) with
    | some body => .error (.service response.status (.ofName body.code) body.message body.requestId)
    | none => .ok ()
  | .createBucket _ | .deleteBucket _ | .deleteObject .. | .abortUpload _ | .close => .ok ()

/-- Makes a request. -/
def answer (c : Remote) (r : Request) : Dialogue Machine (Except Error r.Reply) :=
  match c.plan r with
  | .inl outcome => pure outcome
  | .inr unsigned => do
    match ← c.exchange unsigned with
    | .error e => return .error e
    | .ok response => return reply response r

end Remote

end BucketTransfer.ObjectStore
