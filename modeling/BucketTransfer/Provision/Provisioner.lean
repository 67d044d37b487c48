import BucketTransfer.Clients
import BucketTransfer.Identifier
import BucketTransfer.ObjectStore.Listing
import BucketTransfer.Provision.Error
import BucketTransfer.Provision.Retry

/-!
# Providing buckets

A bucket is provided by creating it, having a credential issued that may only put objects into it,
and storing that credential as a secret. It is taken away by deleting its objects, the bucket, and
the secret, in this order.
-/
namespace BucketTransfer.Provision
open ObjectStore (Page DeleteResult)

/-- How buckets are provided. -/
structure Provisioner where
  retry : Retry
  /-- How long credentials live. -/
  tokenSeconds : Nat
  /-- Whether the secret goes with the bucket. -/
  deleteSecret : Bool
  deriving DecidableEq, Repr

/-- What was taken away. -/
structure Removed where
  id : String
  objects : Nat
  secret : Bool
  deriving DecidableEq, Repr

def Removed.toJson (r : Removed) : Json :=
  .object [("provisionedResourceId", .string r.id), ("objectsDeleted", .nat r.objects),
    ("secretDeleted", .bool r.secret)]

namespace Provisioner

def ofSettings (s : Settings) : Provisioner := ⟨.ofSettings s, s.tokenSeconds, s.deleteSecret⟩

variable (p : Provisioner)

/-- Makes a request until it succeeds or is given up. -/
def persist {α : Type} (step : Step) (bucket : String)
    (d : Dialogue World (Except ObjectStore.Error α)) : Dialogue World (Except Error α) := do
  match ← p.retry.run World.pause (·.isRetryable) d with
  | .ok a => return .ok a
  | .error e => return .error (.store step bucket e)

/-- Creates a bucket; one that is there already and belongs to the account will do. -/
def createBucket (client : Client) (bucket : String) : Dialogue World (Except Error Unit) := do
  match ← p.retry.run World.pause (·.isRetryable) (client.createBucket bucket) with
  | .ok () => return .ok ()
  | .error e =>
    if e.code? = some .bucketAlreadyOwnedByYou then return .ok ()
    else return .error (.store .createBucket bucket e)

def issue (bucket : String) : Dialogue World (Except Identity.Error TemporaryCredential) :=
  p.retry.run World.pause (·.isRetryable) (Identity.issue bucket p.tokenSeconds)

/-- The keys of all objects in a bucket. -/
def listKeys (pages : Nat) (client : Client) (bucket : String) :
    Dialogue World (Except Error (List String)) := do
  let fetch (marker : Option String) : Dialogue World (Except Error Page) :=
    p.persist .listObjects bucket (client.listObjects bucket "" marker)
  let stuck (marker : String) : Error :=
    .store .listObjects bucket (.invalidResponse s!"listing did not advance past {marker}")
  return (← ObjectStore.listAll pages fetch stuck).map (·.map (·.key))

/-- Deletes some objects, all of them or it fails. -/
def deleteBatch (client : Client) (bucket : String) (keys : List String) :
    Dialogue World (Except Error Unit) := do
  match ← p.persist .deleteObjects bucket (client.deleteObjects bucket keys) with
  | .error e => return .error e
  | .ok result =>
    match result.errors with
    | [] => return .ok ()
    | first :: _ => return .error (.objectsRemaining bucket result.errors.length first)

/-- Keys in batches as large as one request may delete, the last one perhaps smaller. -/
def batches (keys : List String) : List (List String) :=
  if keys = [] then []
  else keys.take ObjectStore.maxBatch :: batches (keys.drop ObjectStore.maxBatch)
termination_by keys.length
decreasing_by
  have : 0 < keys.length := List.length_pos_iff.2 ‹_›
  simp only [List.length_drop, ObjectStore.maxBatch]
  omega

/-- Deletes batches in order, up to the first one that fails. -/
def deleteBatches (client : Client) (bucket : String) :
    List (List String) → Dialogue World (Except Error Unit)
  | [] => return .ok ()
  | batch :: rest => do
    match ← p.deleteBatch client bucket batch with
    | .error e => return .error e
    | .ok () => deleteBatches client bucket rest

/-- Takes the secret of a bucket away, if it goes with the bucket. -/
def removeSecret (key : String) : Dialogue World (Except Secrets.Error Bool) :=
  if p.deleteSecret then World.deleteSecret key else pure (.ok false)

/-- The client for a resource. -/
def client (endpoint bucket : String) : Task Error Client :=
  (Clients.obtain endpoint).describing (.store .resolveClient bucket)

/-- Provides a bucket and a credential for it. -/
def provision (d : Bucket.Descriptor) : Task Error Bucket.Provisioned := do
  match violations d with
  | [] =>
    let client ← client d.endpoint d.bucketName
    Task.attempt id (p.createBucket client d.bucketName)
    let credential ← Task.attempt Error.identity (p.issue d.bucketName)
    let key := Identifier.secretKey d.id (← Task.ask World.random)
    Task.attempt Error.secret (World.storeSecret key credential.toJson.text)
    return .ofDescriptor d key
  | found => throw (.validation found)

/-- Takes a bucket away with all that is in it. -/
def deprovision (pages : Nat) (r : Bucket.Provisioned) : Task Error Removed := do
  let bucket := r.descriptor.bucketName
  let client ← client r.descriptor.endpoint bucket
  let keys ← Task.attempt id (p.listKeys pages client bucket)
  Task.attempt id (p.deleteBatches client bucket (batches keys))
  Task.attempt id (p.persist .deleteBucket bucket (client.deleteBucket bucket))
  let secret ← Task.attempt Error.secret (p.removeSecret r.secretKey)
  return ⟨r.descriptor.id, keys.length, secret⟩

end Provisioner

end BucketTransfer.Provision
