import BucketTransfer.ObjectStore.Types
import BucketTransfer.Xml.Reader
import BucketTransfer.Xml.Writer

/-!
# The documents of object stores

What requests say and what answers hold, in XML.
-/
namespace BucketTransfer.ObjectStore

open Xml (Reader)

/-- An entity tag without blanks and quotes around it. -/
def bareEtag (s : String) : String :=
  String.ofList (Text.trimWhere (· == '"') (Text.trim s).toList)

/-- What an error answer holds. -/
structure ErrorBody where
  code : String := ""
  message : String := ""
  requestId : Option String := none
  key : Option String := none
  deriving DecidableEq, Repr

namespace ErrorBody

def reader : Reader ErrorBody :=
  .children (fun tag body =>
    match tag with
    | "Code" => Reader.text.map fun s => { body with code := s }
    | "Message" => Reader.text.map fun s => { body with message := s }
    | "RequestId" => Reader.text.map fun s => { body with requestId := some s }
    | "Key" => Reader.text.map fun s => { body with key := some s }
    | _ => .ignore body) {}

/-- The error in an answer, if its document is one. -/
def ofDocument? (document : Bytes) : Option ErrorBody :=
  reader.documentNamed (utf8 "Error") (Xml.Event.ofDocument document)

end ErrorBody

/-- A summary with the key once it is known. -/
def summaryReader : Reader (Option String × Summary) :=
  .children (fun tag s =>
    match tag with
    | "Key" => Reader.text.map fun key => (some key, s.2)
    | "Size" => Reader.natural.map fun size => (s.1, { s.2 with size })
    | "ETag" => Reader.text.map fun etag => (s.1, { s.2 with etag := some (bareEtag etag) })
    | "LastModified" => Reader.text.map fun time => (s.1, { s.2 with lastModified := some time })
    | _ => .ignore s) (none, {})

def Summary.xmlReader : Reader Summary :=
  summaryReader.bind fun (key, summary) =>
    match key with
    | some key => .ok { summary with key }
    | none => .error (.missing "Key")

def Page.xmlReader : Reader Page :=
  .children (fun tag page =>
    match tag with
    | "Contents" => Summary.xmlReader.map fun s => { page with objects := page.objects ++ [s] }
    | "IsTruncated" => Reader.truth.map fun truncated => { page with truncated }
    | "NextMarker" => Reader.text.map fun marker =>
      if marker.isEmpty then page else { page with nextMarker := some marker }
    | _ => .ignore page) {}

def Upload.xmlReader : Reader Upload :=
  (Reader.children (fun tag (u : Upload) =>
    match tag with
    | "Bucket" => Reader.text.map fun bucket => { u with bucket }
    | "Key" => Reader.text.map fun key => { u with key }
    | "UploadId" => Reader.text.map fun id => { u with id }
    | _ => .ignore u) ⟨"", "", ""⟩).bind fun u =>
      if u.id.isEmpty then .error (.missing "UploadId") else .ok u

def DeleteResult.xmlReader : Reader DeleteResult :=
  .children (fun tag result =>
    match tag with
    | "Deleted" =>
      (Reader.children (fun tag key => if tag = "Key" then Reader.text else .ignore key) "").map
        fun key => { result with deleted := result.deleted ++ [key] }
    | "Error" => ErrorBody.reader.map fun body =>
      let error : DeleteError := ⟨body.key.getD "", body.code, body.message⟩
      { result with errors := result.errors ++ [error] }
    | _ => .ignore result) {}

/-- Reads an answer's document. -/
def readDocument {α : Type} (r : Reader α) (document : Bytes) : Except Xml.Error α :=
  r.document (Xml.Event.ofDocument document)

/-! ## Requests -/

/-- The request to put the parts of an upload together. -/
def completeDocument (parts : List CompletedPart) : String :=
  Xml.documentText "CompleteMultipartUpload" (parts.map fun p =>
    .node "Part" [.leaf "PartNumber" (toString p.number), .leaf "ETag" p.etag])

/-- The request to delete objects; a quiet one is answered with failures alone. -/
def deleteDocument (keys : List String) (quiet : Bool) : String :=
  Xml.documentText "Delete" ((if quiet then [.leaf "Quiet" "true"] else [])
    ++ keys.map fun key => .node "Object" [.leaf "Key" key])

/-- The request to create a bucket somewhere. -/
def locationDocument (root location : String) : String :=
  Xml.documentText root [.leaf "LocationConstraint" location]

end BucketTransfer.ObjectStore
