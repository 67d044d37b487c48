import BucketTransfer.Connector.LocalPath
import BucketTransfer.Provision.Generator
import BucketTransfer.Provision.Provisioner
import BucketTransfer.Settings
import BucketTransfer.Transfer.Access

/-!
# The connector

What a connector does for its user: it provides buckets and takes them away, and moves files into
them and objects out of them.
-/
namespace BucketTransfer

namespace Connector

/-- Where objects lie, as users name it. -/
structure Target where
  bucket : String
  /-- The endpoint, if it is not the one in the settings. -/
  endpoint : Option String := none
  keyPrefix : String := ""
  /-- The stored credential to sign with. -/
  keyName : Option String := none
  deriving DecidableEq, Repr

/-- The address with a property set, if there is a value for it. -/
def withProperty (a : DataAddress) (key : String) (value : Option String) : DataAddress :=
  value.elim a (a.set key)

/-- The address of a target. -/
def Target.address (t : Target) (defaultEndpoint : String) : DataAddress :=
  let a := DataAddress.ofBucket t.bucket (t.endpoint.getD defaultEndpoint)
  let a := if t.keyPrefix.isEmpty then a else a.set DataAddress.keyPrefixKey t.keyPrefix
  withProperty a DataAddress.keyNameKey t.keyName

variable (settings : Settings) (pages : Nat)

/-- Provides a bucket for a transfer. -/
def provision (bucket : String) (endpoint keyPrefix : Option String)
    (transferProcessId : String) : Task Error Bucket.Provisioned := do
  let id := Identifier.hyphenated (← Task.ask World.random)
  let destination :=
    (DataAddress.ofType DataAddress.bucketType).set DataAddress.bucketNameKey bucket
  let destination := withProperty destination DataAddress.endpointKey endpoint
  let destination := withProperty destination DataAddress.keyPrefixKey keyPrefix
  match Provision.generate settings.storeEndpoint id transferProcessId destination with
  | .error violations => throw (.destination (.validation violations))
  | .ok descriptor =>
    ((Provision.Provisioner.ofSettings settings).provision descriptor).describing
      (.provision bucket)

/-- Takes a bucket away that was provided. -/
def deprovision (r : Bucket.Provisioned) : Task Error Provision.Removed :=
  ((Provision.Provisioner.ofSettings settings).deprovision pages r).describing
    (.deprovision r.descriptor.bucketName)

/-- Uploads files; each becomes an object under the name of the file. -/
def upload (target : Target) (paths : List String) : Task Error Transfer.Summary := do
  let sink ← (Transfer.sinkFor settings.chunkBytes
    (target.address settings.storeEndpoint)).describing .transfer
  let parts ← Task.attempt .transfer (World.files (Transfer.Part.ofPaths paths))
  Task.attempt .transfer (sink.transfer parts)

/-- The objects of a target, or the single one that is named. -/
def parts (target : Target) (objectName : Option String) : Task Error (List Transfer.Part) := do
  let source ← (Transfer.sourceFor (withProperty (target.address settings.storeEndpoint)
    DataAddress.objectNameKey objectName)).describing .transfer
  Task.attempt .transfer (source.parts pages)

/-- The names and the sizes of the objects of a target. -/
def list (target : Target) : Task Error (List (String × Nat)) := do
  return (← parts settings pages target none).map fun p => (p.name, p.size)

/-- Writes what a stream hands out to a file; what comes before a failure is kept. -/
def writeStream (key path : String) (stream : ByteStream) : Task Error Unit := do
  Task.attempt (.create path) (World.files (Files.write path stream.pieces.flatten))
  match stream.failure with
  | none => return ()
  | some cause => throw (.download key cause)

/-- Downloads one object below a directory; the value is the path of the file. -/
def downloadPart (output : String) (p : Transfer.Part) : Task Error String := do
  let path := Files.Path.join output (← ExceptT.mk (pure (localPath p.name)))
  match Files.Path.parent path with
  | none => pure ()
  | some directory =>
    Task.attempt (.create directory) (World.files (Files.createDirectories directory))
  let stream ← Task.attempt .transfer p.openStream
  writeStream p.name path stream
  return path

/-- Downloads objects in order, up to the first one that fails. -/
def downloadParts (output : String) : List Transfer.Part → Task Error (List String)
  | [] => return []
  | p :: rest => do
    let path ← downloadPart output p
    return path :: (← downloadParts output rest)

/-- Downloads the objects of a target below a directory. -/
def download (target : Target) (objectName : Option String) (output : String) :
    Task Error (List String) := do
  downloadParts output (← parts settings pages target objectName)

end Connector

end BucketTransfer
