import BucketTransfer.Provision.Error
import BucketTransfer.Text.Quoted
import BucketTransfer.Transfer.Error

/-!
# Errors of the connector

What stops a command at the connector, as a chain from what was to be done to what is wrong.
-/
namespace BucketTransfer

namespace Provision

/-- The messages from an error down to its first cause. -/
def Error.chain (e : Error) : List String :=
  e.message :: match e with
    | .store _ _ cause => [cause.message]
    | .identity cause => [cause.message]
    | .secret cause => cause.chain
    | .validation _ => []
    | .objectsRemaining .. => []

end Provision

namespace Connector

inductive Error where
  | destination (cause : Provision.Error)
  | provision (bucket : String) (cause : Provision.Error)
  | deprovision (bucket : String) (cause : Provision.Error)
  | transfer (cause : Transfer.Error)
  /-- A key that might lead out of the directory that objects are downloaded to. -/
  | unsafeKey (key : String)
  /-- A key that names no file. -/
  | emptyKey (key : String)
  | create (path : String) (fault : Files.Fault)
  | download (key cause : String)
  deriving DecidableEq, Repr

/-- The messages from what was to be done down to the first cause. -/
def Error.chain : Error → List String
  | destination cause => "invalid destination" :: cause.chain
  | provision bucket cause => s!"failed to provision bucket {bucket}" :: cause.chain
  | deprovision bucket cause => s!"failed to deprovision bucket {bucket}" :: cause.chain
  | transfer cause => [cause.message]
  | unsafeKey key => ["object key " ++ Text.quoted key ++ " is not a safe relative path"]
  | emptyKey key => ["object key " ++ Text.quoted key ++ " has no file name"]
  | create path fault => [s!"failed to create {path}", fault.message]
  | download key cause => [s!"failed to download {key}", cause]

end Connector

end BucketTransfer
