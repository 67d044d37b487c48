import BucketTransfer.ObjectStore.Document
import BucketTransfer.ObjectStore.Request
import BucketTransfer.Text.Hex

/-!
# Object stores in memory

A store that keeps its buckets in memory, keeps a log of all calls, and fails where it is told to.
A call is logged first and then meets the faults for its operation; only if it passes them does it
have an effect.
-/
namespace BucketTransfer.ObjectStore

/-- A failure to come: after `skip` calls of an operation the next ones fail, `times` of them or
all. -/
structure Fault where
  operation : Operation
  error : Error
  skip : Nat := 0
  times : Option Nat := none
  deriving DecidableEq, Repr

/-- Whether a call fails, and the faults that are left. Only the first fault for an operation
counts. -/
def Fault.meet (operation : Operation) : List Fault → Option Error × List Fault
  | [] => (none, [])
  | fault :: rest =>
    if fault.operation = operation then
      if 0 < fault.skip then (none, { fault with skip := fault.skip - 1 } :: rest)
      else
        match fault.times with
        | none => (some fault.error, fault :: rest)
        | some n =>
          (some fault.error,
            if n ≤ 1 then rest else { fault with times := some (n - 1) } :: rest)
    else
      let (error, rest) := meet operation rest
      (error, fault :: rest)

/-- An upload that is neither completed nor aborted. -/
structure Pending where
  bucket : String
  key : String
  /-- The parts, the last one to arrive first. -/
  parts : List (Nat × Bytes) := []
  deriving DecidableEq, Repr

/-- A checksum of content, of 64 bits. -/
def checksum (content : Bytes) : UInt64 :=
  content.foldl (fun h b => (h ^^^ b.toUInt64) * 0x100000001b3) 0xcbf29ce484222325

/-- The entity tag of content, without quotes. -/
def plainEtag (content : Bytes) : String := Text.hexPadded 16 (checksum content).toNat

/-- The entity tag of content. -/
def etagOf (content : Bytes) : String := "\"" ++ plainEtag content ++ "\""

structure Memory where
  endpoint : String := "memory://obs"
  /-- The most objects on one page of a listing. -/
  pageSize : Nat := 1000
  buckets : KeyMap (KeyMap Bytes) := ∅
  uploads : KeyMap Pending := ∅
  /-- How many uploads were ever started. -/
  started : Nat := 0
  faults : List Fault := []
  /-- All calls, the last one first. -/
  calls : List Call := []
  closed : Bool := false

namespace Memory

/-- A store with pages of a given size, and of one object at least. -/
def withPages (endpoint : String) (pageSize : Nat) : Memory :=
  { endpoint, pageSize := max pageSize 1 }

def noSuchBucket (bucket : String) : Error :=
  .ofCode 404 "NoSuchBucket" s!"bucket {bucket} does not exist"

def noSuchKey (key : String) : Error := .ofCode 404 "NoSuchKey" s!"key {key} does not exist"

def noSuchUpload (id : String) : Error :=
  .ofCode 404 "NoSuchUpload" s!"upload {id} does not exist"

/-- The page after a marker of what stands in key order. -/
def page (objects : List (String × Bytes)) (size : Nat) (keyPrefix : String)
    (marker : Option String) : Page :=
  let matching := objects.filter fun o =>
    o.1.startsWith keyPrefix && marker.all fun m => decide (m < o.1)
  { objects := (matching.take size).map fun o =>
      { key := o.1, size := o.2.length, etag := some (plainEtag o.2) }
    truncated := decide (size < matching.length) }

/-- Whether the numbers of parts increase. -/
def ascending : List CompletedPart → Bool
  | [] => true
  | [_] => true
  | a :: b :: rest => decide (a.number < b.number) && ascending (b :: rest)

/-- The content that parts make, if each was the last to arrive under its number. -/
def assemble (pending : Pending) : List CompletedPart → Except Error Bytes
  | [] => .ok []
  | part :: rest =>
    match (pending.parts.lookup part.number).filter fun body => etagOf body == part.etag with
    | none => .error (.ofCode 400 "InvalidPart" s!"part {part.number} was not uploaded")
    | some body => (assemble pending rest).map (body ++ ·)

/-- The content of an upload, if it is pending for its bucket and key and its parts fit. -/
def content (m : Memory) (upload : Upload) (parts : List CompletedPart) : Except Error Bytes :=
  match m.uploads.get? upload.id with
  | none => .error (noSuchUpload upload.id)
  | some pending =>
    if pending.bucket ≠ upload.bucket ∨ pending.key ≠ upload.key then
      .error (noSuchUpload upload.id)
    else if parts.isEmpty then .error (.ofCode 400 "MalformedXML" "no parts given")
    else if !ascending parts then
      .error (.ofCode 400 "InvalidPartOrder" "parts are not in ascending order")
    else assemble pending parts

/-- What a request does that meets no fault. -/
def effect (m : Memory) : (r : Request) → Except Error r.Reply × Memory
  | .createBucket bucket =>
    if m.buckets.contains bucket then
      (.error (.ofCode 409 "BucketAlreadyOwnedByYou" s!"bucket {bucket} already exists"), m)
    else (.ok (), { m with buckets := m.buckets.insert bucket ∅ })
  | .deleteBucket bucket =>
    match m.buckets.get? bucket with
    | none => (.error (noSuchBucket bucket), m)
    | some objects =>
      if objects.isEmpty then (.ok (), { m with buckets := m.buckets.erase bucket })
      else (.error (.ofCode 409 "BucketNotEmpty" s!"bucket {bucket} is not empty"), m)
  | .listObjects bucket keyPrefix marker =>
    match m.buckets.get? bucket with
    | none => (.error (noSuchBucket bucket), m)
    | some objects => (.ok (page objects.entries m.pageSize keyPrefix marker), m)
  | .putObject bucket key body =>
    match m.buckets.get? bucket with
    | none => (.error (noSuchBucket bucket), m)
    | some objects =>
      (.ok (etagOf body), { m with buckets := m.buckets.insert bucket (objects.insert key body) })
  | .getObject bucket key =>
    match m.buckets.get? bucket with
    | none => (.error (noSuchBucket bucket), m)
    | some objects =>
      match objects.get? key with
      | none => (.error (noSuchKey key), m)
      | some body =>
        (.ok ⟨some body.length, some (plainEtag body), .ofBytes body⟩, m)
  | .deleteObject bucket key =>
    match m.buckets.get? bucket with
    | none => (.error (noSuchBucket bucket), m)
    | some objects => (.ok (), { m with buckets := m.buckets.insert bucket (objects.erase key) })
  | .deleteObjects bucket keys =>
    if maxBatch < keys.length then
      (.error (.ofCode 400 "MalformedXML" "too many keys in one delete request"), m)
    else
      match m.buckets.get? bucket with
      | none => (.error (noSuchBucket bucket), m)
      | some objects =>
        (.ok { deleted := keys },
          { m with buckets := m.buckets.insert bucket (objects.eraseAll keys) })
  | .initiateUpload bucket key =>
    match m.buckets.get? bucket with
    | none => (.error (noSuchBucket bucket), m)
    | some _ =>
      let id := s!"upload-{m.started + 1}"
      (.ok ⟨bucket, key, id⟩,
        { m with started := m.started + 1, uploads := m.uploads.insert id { bucket, key } })
  | .uploadPart part =>
    match m.uploads.get? part.uploadId with
    | none => (.error (noSuchUpload part.uploadId), m)
    | some pending =>
      let pending := { pending with parts := (part.number, part.body) :: pending.parts }
      (.ok ⟨part.number, etagOf part.body⟩,
        { m with uploads := m.uploads.insert part.uploadId pending })
  | .completeUpload upload parts =>
    match m.content upload parts with
    | .error e => (.error e, m)
    | .ok body =>
      let m := { m with uploads := m.uploads.erase upload.id }
      match m.buckets.get? upload.bucket with
      | none => (.error (noSuchBucket upload.bucket), m)
      | some objects =>
        (.ok (),
          { m with buckets := m.buckets.insert upload.bucket (objects.insert upload.key body) })
  | .abortUpload upload =>
    if m.uploads.contains upload.id then
      (.ok (), { m with uploads := m.uploads.erase upload.id })
    else (.error (noSuchUpload upload.id), m)
  | .close => (.ok (), { m with closed := true })

/-- Answers a request. -/
def answer (m : Memory) (r : Request) : Except Error r.Reply × Memory :=
  let m := { m with calls := r.call :: m.calls }
  match Fault.meet r.operation m.faults with
  | (some e, faults) => (.error e, { m with faults })
  | (none, faults) => effect { m with faults } r

/-- What a bucket holds under a key. -/
def object? (m : Memory) (bucket key : String) : Option Bytes :=
  (m.buckets.get? bucket).bind (·.get? key)

/-- The keys of a bucket in order; none if there is no such bucket. -/
def keys (m : Memory) (bucket : String) : List String :=
  ((m.buckets.get? bucket).map (·.keys)).getD []

/-- The store with a bucket and objects in it, without a call. -/
def seed (m : Memory) (bucket : String) (objects : List (String × Bytes)) : Memory :=
  let held := (m.buckets.get? bucket).getD ∅
  { m with buckets := m.buckets.insert bucket (objects.foldl (fun h o => h.insert o.1 o.2) held) }

/-- The store with a fault behind those that are there; one for no calls is none. -/
def withFault (m : Memory) (fault : Fault) : Memory :=
  if fault.times = some 0 then m else { m with faults := m.faults ++ [fault] }

end Memory

/-! ## Restricted access -/

/-- A store as a credential sees it that allows only some operations. -/
structure Restricted where
  allowed : List Operation := Operation.putOnly
  /-- The operations that were refused, the last one first. -/
  denied : List Operation := []
  deriving DecidableEq, Repr

/-- Answers a request if its operation is allowed; one that is refused does not reach the store. -/
def Restricted.answer (c : Restricted) (m : Memory) (r : Request) :
    Except Error r.Reply × Restricted × Memory :=
  if r.operation ∈ c.allowed then
    let (reply, m) := m.answer r
    (reply, c, m)
  else
    let name := r.operation.name
    (.error (.ofCode 403 "AccessDenied" s!"{name} is not allowed by the credential policy"),
      { c with denied := r.operation :: c.denied }, m)

end BucketTransfer.ObjectStore
