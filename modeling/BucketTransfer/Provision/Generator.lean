import BucketTransfer.Provision.Violation

/-!
# Resources for destinations

The consumer of a transfer turns the destination it was given into a bucket resource.
-/
namespace BucketTransfer.Provision

/-- Whether a destination is of the type that buckets are made for. -/
def canGenerate (destination : DataAddress) : Bool :=
  destination.type == some DataAddress.bucketType

/-- What a destination lacks. -/
def destinationViolations (destination : DataAddress) : List Violation :=
  (if canGenerate destination then [] else [.destinationType destination.type])
    ++ (if destination.bucketName.isNone then [.destinationBucket] else [])

/-- The resource for a destination, at a default endpoint unless it names one. -/
def generate (defaultEndpoint id transferProcessId : String) (destination : DataAddress) :
    Except (List Violation) Bucket.Descriptor :=
  match destinationViolations destination with
  | [] =>
    .ok
      { id, transferProcessId
        bucketName := destination.bucketName.getD ""
        endpoint := destination.endpoint.getD defaultEndpoint
        keyPrefix := destination.keyPrefix }
  | violations => .error violations

end BucketTransfer.Provision
