import BucketTransfer.Bucket.Name
import BucketTransfer.Bucket.Resource
import BucketTransfer.Text.Blank

/-!
# What keeps a resource from being provided
-/
namespace BucketTransfer.Provision

inductive Violation where
  /-- The destination is not a bucket. -/
  | destinationType (found : Option String)
  /-- The destination names no bucket. -/
  | destinationBucket
  | bucketEmpty
  | bucketInvalid (error : Bucket.NameError)
  | endpointEmpty
  | idEmpty
  deriving DecidableEq, Repr

def Violation.message : Violation → String
  | .destinationType found =>
    let type := found.getD "<none>"
    s!"destination type must be {DataAddress.bucketType}, got {type}"
  | .destinationBucket => s!"destination is missing {DataAddress.bucketNameKey}"
  | .bucketEmpty => "bucketName must not be empty"
  | .bucketInvalid e => e.message
  | .endpointEmpty => "endpoint must not be empty"
  | .idEmpty => "id must not be empty"

/-- Everything that is wrong with a descriptor, in a fixed order. -/
def violations (d : Bucket.Descriptor) : List Violation :=
  (if d.bucketName.isEmpty then [.bucketEmpty]
    else
      match Bucket.checkName d.bucketName with
      | .ok () => []
      | .error e => [.bucketInvalid e])
    ++ (if (Text.trim d.endpoint).isEmpty then [.endpointEmpty] else [])
    ++ (if d.id.isEmpty then [.idEmpty] else [])

end BucketTransfer.Provision
