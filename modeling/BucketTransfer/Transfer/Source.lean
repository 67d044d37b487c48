import BucketTransfer.ObjectStore.Listing
import BucketTransfer.Transfer.Part

/-!
# Sources

A source names the objects under a prefix, or a single one.
-/
namespace BucketTransfer.Transfer

structure Source where
  client : Client
  bucket : String
  keyPrefix : String
  /-- The only object to be read, if there is one. -/
  objectName : Option String := none
  deriving DecidableEq, Repr

/-- All objects of a bucket under a prefix. -/
def listObjects (pages : Nat) (client : Client) (bucket keyPrefix : String) :
    Dialogue World (Except ObjectStore.Error (List ObjectStore.Summary)) :=
  ObjectStore.listAll pages (client.listObjects bucket keyPrefix) fun marker =>
    .invalidResponse s!"listing of {bucket} did not advance past marker {marker}"

namespace Source

open Text in
def display (s : Source) : String :=
  record "ObsDataSource" [("endpoint", quoted s.client.endpoint), ("bucket", quoted s.bucket),
    ("key_prefix", quoted s.keyPrefix), ("object_name", optional (s.objectName.map quoted))]

/-- What the keys that are asked for begin with. -/
def listed (s : Source) : String := s.objectName.getD s.keyPrefix

/-- The parts of a source, none of them opened; there is one at least. -/
def parts (pages : Nat) (s : Source) : Dialogue World (Except Error (List Part)) := do
  match ← listObjects pages s.client s.bucket s.listed with
  | .error e => return .error (.ofStore s!"failed to list bucket {s.bucket}" e)
  | .ok objects =>
    match objects.filter fun o => s.objectName.all (o.key == ·) with
    | [] =>
      let shown := Text.quoted s.listed
      return .error (.notFound s!"no objects match {shown} in bucket {s.bucket}")
    | found => return .ok (found.map (.ofObject s.client s.bucket))

end Source

open Text in
/-- How an object of a source is shown. -/
def displayObject (bucket : String) (p : Part) : String :=
  record "ObsPart" [("bucket", quoted bucket), ("key", quoted p.name),
    ("size", toString p.size)] true

end BucketTransfer.Transfer
