import BucketTransfer.Transfer.Part

/-!
# Sinks

A sink uploads parts into a bucket, one after the other and each in chunks of one size. An upload
that fails is aborted; the objects before it are kept.
-/
namespace BucketTransfer.Transfer
open ObjectStore (Upload CompletedPart)

structure Sink where
  client : Client
  /-- The client for aborting where the first one may not abort. -/
  abortClient : Option Client := none
  bucket : String
  keyPrefix : String
  chunkSize : Nat
  chunkSize_pos : 0 < chunkSize
  deriving Repr

/-- An object that was uploaded. -/
structure Uploaded where
  key : String
  parts : Nat
  size : Nat
  deriving DecidableEq, Repr

structure Summary where
  /-- The objects, in the order of their parts. -/
  objects : List Uploaded := []
  deriving DecidableEq, Repr

/-- The bytes that were uploaded. -/
def Summary.size (s : Summary) : Nat := s.objects.foldl (fun total o => total + o.size) 0

/-- How far an upload is. -/
structure Progress where
  /-- The parts, the last one first. -/
  completed : List CompletedPart := []
  /-- The bytes in them. -/
  offset : Nat := 0
  deriving DecidableEq, Repr

namespace Progress

/-- The number of the next part, from 1. -/
def number (p : Progress) : Nat := p.completed.length + 1

def record (p : Progress) (part : CompletedPart) (size : Nat) : Progress :=
  ⟨part :: p.completed, p.offset + size⟩

end Progress

/-- What stops an upload, at which part. -/
inductive Stop where
  | read (part : Nat) (message : String)
  | store (part : Nat) (cause : ObjectStore.Error)
  | complete (part : Nat) (cause : ObjectStore.Error)
  deriving DecidableEq, Repr

namespace Stop

def part : Stop → Nat
  | read n _ => n
  | store n _ => n
  | complete n _ => n

def message : Stop → String
  | read _ m => s!"failed to read input: {m}"
  | store _ cause => cause.message
  | complete _ cause => s!"failed to complete upload: {cause.message}"

end Stop

namespace Sink

/-- A sink with chunks of one byte at least. -/
def ofChunks (client : Client) (bucket keyPrefix : String) (chunkSize : Nat) : Sink :=
  { client, bucket, keyPrefix, chunkSize := max chunkSize 1
    chunkSize_pos := Nat.lt_of_lt_of_le Nat.one_pos (Nat.le_max_right ..) }

open Text in
def display (s : Sink) : String :=
  record "ObsDataSink" [("endpoint", quoted s.client.endpoint),
    ("abort_fallback", truth s.abortClient.isSome), ("bucket", quoted s.bucket),
    ("key_prefix", quoted s.keyPrefix), ("chunk_size", toString s.chunkSize)]

variable (s : Sink)

/-- Puts the parts of an upload together. -/
def finish (upload : Upload) (p : Progress) : Dialogue World (Except Stop Progress) := do
  match ← s.client.completeUpload upload p.completed.reverse with
  | .error e => return .error (.complete p.completed.length e)
  | .ok () => return .ok p

/-- The next chunk of a stream that is to be sent. One that is too short is the last one; an empty
one is sent only if it is the first. -/
def nextChunk (p : Progress) (stream : ByteStream) : Except Stop (Option (Bytes × ByteStream)) :=
  match stream.read s.chunkSize with
  | .error m => .error (.read p.number m)
  | .ok (chunk, rest) =>
    if chunk.isEmpty && !p.completed.isEmpty then .ok none else .ok (some (chunk, rest))

def tooManyParts : ObjectStore.Error :=
  .invalidRequest s!"object needs more than {ObjectStore.maxPart} parts, increase the chunk size"

/-- Uploads the rest of a stream, in `left` parts at most. -/
def uploadFrom (upload : Upload) :
    (left : Nat) → Progress → ByteStream → Dialogue World (Except Stop Progress)
  | 0, p, stream =>
    match s.nextChunk p stream with
    | .error stop => pure (.error stop)
    | .ok none => s.finish upload p
    | .ok (some _) => pure (.error (.store p.number tooManyParts))
  | left + 1, p, stream =>
    match s.nextChunk p stream with
    | .error stop => pure (.error stop)
    | .ok none => s.finish upload p
    | .ok (some (chunk, rest)) => do
      match ← s.client.uploadPart
        ⟨upload.bucket, upload.key, upload.id, p.number, p.offset, chunk⟩ with
      | .error e => pure (.error (.store p.number e))
      | .ok part =>
        let p := p.record part chunk.length
        if chunk.length < s.chunkSize then s.finish upload p else uploadFrom upload left p rest

/-- Aborts an upload, through the other client if the first one may not. -/
def abort (upload : Upload) : Dialogue World Unit := do
  match ← s.client.abortUpload upload, s.abortClient with
  | .error e, some other =>
    if e.reason = .accessDenied then do
      let _ ← other.abortUpload upload
      return ()
    else return ()
  | _, _ => return ()

/-- The failure of a part of an object. -/
def failure (name : String) (part : Nat) (cause : String) : Error :=
  .general s!"Error transferring part {part} of {name} to OBS bucket {s.bucket}: {cause}"

/-- Uploads one part as an object. -/
def transferPart (p : Part) : Dialogue World (Except Error Uploaded) := do
  let key := s.keyPrefix ++ p.name
  match ← p.openStream with
  | .error e => return .error (s.failure p.name 1 e.message)
  | .ok stream =>
    match ← s.client.initiateUpload s.bucket key with
    | .error e => return .error (s.failure p.name 1 e.message)
    | .ok started =>
      let upload : Upload := ⟨s.bucket, key, started.id⟩
      match ← s.uploadFrom upload ObjectStore.maxPart {} stream with
      | .ok progress => return .ok ⟨key, progress.completed.length, progress.offset⟩
      | .error stop =>
        s.abort upload
        return .error (s.failure p.name stop.part stop.message)

/-- Uploads parts in order, up to the first one that fails. -/
def transfer : List Part → Dialogue World (Except Error Summary)
  | [] => return .ok {}
  | part :: rest => do
    match ← s.transferPart part with
    | .error e => return .error e
    | .ok object => return (← transfer rest).map fun t => ⟨object :: t.objects⟩

end Sink

end BucketTransfer.Transfer
