import BucketTransfer.Identity.Error
import BucketTransfer.ObjectStore.Types
import BucketTransfer.ObjectStore.Error
import BucketTransfer.Provision.Violation
import BucketTransfer.Secrets.Error

/-!
# Errors of provisioning
-/
namespace BucketTransfer.Provision

/-- What is done at an object store. -/
inductive Step where
  | resolveClient
  | createBucket
  | listObjects
  | deleteObjects
  | deleteBucket
  deriving DecidableEq, Repr

def Step.name : Step → String
  | .resolveClient => "resolve client"
  | .createBucket => "create bucket"
  | .listObjects => "list objects"
  | .deleteObjects => "delete objects"
  | .deleteBucket => "delete bucket"

inductive Error where
  | validation (violations : List Violation)
  | store (step : Step) (bucket : String) (cause : ObjectStore.Error)
  | objectsRemaining (bucket : String) (count : Nat) (first : ObjectStore.DeleteError)
  | identity (cause : Identity.Error)
  | secret (cause : Secrets.Error)
  deriving DecidableEq, Repr

def Error.message : Error → String
  | .validation violations => "invalid resource: " ++ "; ".intercalate (violations.map (·.message))
  | .store step bucket cause => s!"{step.name} failed for bucket {bucket}: {cause.message}"
  | .objectsRemaining bucket count first =>
    s!"{count} objects could not be deleted from bucket {bucket}, first "
      ++ s!"{first.key}: {first.code} {first.message}"
  | .identity cause => s!"failed to issue temporary credential: {cause.message}"
  | .secret cause => s!"secret store error: {cause.message}"

end BucketTransfer.Provision
