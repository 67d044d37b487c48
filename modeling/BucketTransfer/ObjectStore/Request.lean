import BucketTransfer.ByteStream
import BucketTransfer.ObjectStore.Error
import BucketTransfer.ObjectStore.Types
import BucketTransfer.Text.Quoted

/-!
# Requests to object stores

What a store can be asked to do, and what it answers to each.
-/
namespace BucketTransfer.ObjectStore

/-- The most keys that one request may delete. -/
def maxBatch : Nat := 1000

/-- The highest number of a part. -/
def maxPart : Nat := 10000

/-- A part of an upload. -/
structure PartUpload where
  bucket : String
  key : String
  uploadId : String
  number : Nat
  offset : Nat
  body : Bytes
  deriving DecidableEq, Repr

/-- An object as it is fetched. -/
structure Body where
  contentLength : Option Nat
  etag : Option String
  stream : ByteStream
  deriving DecidableEq, Repr

open Text in
/-- A body is shown without its content. -/
def Body.display (b : Body) : String :=
  record "ObjectBody" [("content_length", optional (b.contentLength.map toString)),
    ("etag", optional (b.etag.map quoted))] true

/-- The kinds of requests. -/
inductive Operation where
  | createBucket
  | deleteBucket
  | listObjects
  | putObject
  | getObject
  | deleteObject
  | deleteObjects
  | initiateUpload
  | uploadPart
  | completeUpload
  | abortUpload
  | close
  deriving DecidableEq, Repr

namespace Operation

def name : Operation → String
  | createBucket => "CreateBucket"
  | deleteBucket => "DeleteBucket"
  | listObjects => "ListObjects"
  | putObject => "PutObject"
  | getObject => "GetObject"
  | deleteObject => "DeleteObject"
  | deleteObjects => "DeleteObjects"
  | initiateUpload => "InitiateMultipartUpload"
  | uploadPart => "UploadPart"
  | completeUpload => "CompleteMultipartUpload"
  | abortUpload => "AbortMultipartUpload"
  | close => "Close"

def all : List Operation :=
  [createBucket, deleteBucket, listObjects, putObject, getObject, deleteObject, deleteObjects,
    initiateUpload, uploadPart, completeUpload, abortUpload, close]

def ofName? (name : String) : Option Operation := all.find? fun o => o.name == name

/-- What a credential that may only put objects allows: uploads in one piece and in parts, but not
to abort them. -/
def putOnly : List Operation := [putObject, initiateUpload, uploadPart, completeUpload, close]

end Operation

inductive Request where
  | createBucket (bucket : String)
  | deleteBucket (bucket : String)
  | listObjects (bucket keyPrefix : String) (marker : Option String)
  | putObject (bucket key : String) (body : Bytes)
  | getObject (bucket key : String)
  | deleteObject (bucket key : String)
  | deleteObjects (bucket : String) (keys : List String)
  | initiateUpload (bucket key : String)
  | uploadPart (part : PartUpload)
  | completeUpload (upload : Upload) (parts : List CompletedPart)
  | abortUpload (upload : Upload)
  | close
  deriving DecidableEq, Repr

/-- A request as a log keeps it: without what was sent. -/
structure Call where
  operation : Operation
  bucket : String
  key : Option String := none
  partNumber : Option Nat := none
  /-- The size of a body, or the number of keys. -/
  size : Option Nat := none
  deriving DecidableEq, Repr

namespace Request

def operation : Request → Operation
  | createBucket _ => .createBucket
  | deleteBucket _ => .deleteBucket
  | listObjects .. => .listObjects
  | putObject .. => .putObject
  | getObject .. => .getObject
  | deleteObject .. => .deleteObject
  | deleteObjects .. => .deleteObjects
  | initiateUpload .. => .initiateUpload
  | uploadPart _ => .uploadPart
  | completeUpload .. => .completeUpload
  | abortUpload _ => .abortUpload
  | close => .close

/-- What is answered if the request succeeds; for an object that is put, its entity tag. -/
abbrev Reply : Request → Type
  | listObjects .. => Page
  | putObject .. => String
  | getObject .. => Body
  | deleteObjects .. => DeleteResult
  | initiateUpload .. => Upload
  | uploadPart _ => CompletedPart
  | createBucket _ | deleteBucket _ | deleteObject .. | completeUpload .. | abortUpload _ | close =>
    Unit

def call (r : Request) : Call :=
  match r with
  | createBucket bucket | deleteBucket bucket | listObjects bucket _ _ =>
    { operation := r.operation, bucket }
  | putObject bucket key body =>
    { operation := r.operation, bucket, key := some key, size := some body.length }
  | getObject bucket key | deleteObject bucket key | initiateUpload bucket key =>
    { operation := r.operation, bucket, key := some key }
  | deleteObjects bucket keys =>
    { operation := r.operation, bucket, size := some keys.length }
  | uploadPart part =>
    { operation := r.operation, bucket := part.bucket, key := some part.key
      partNumber := some part.number, size := some part.body.length }
  | completeUpload upload _ | abortUpload upload =>
    { operation := r.operation, bucket := upload.bucket, key := some upload.key }
  | close => { operation := r.operation, bucket := "" }

end Request

end BucketTransfer.ObjectStore
