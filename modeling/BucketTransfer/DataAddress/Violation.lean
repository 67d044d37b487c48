import BucketTransfer.Bucket.Name
import BucketTransfer.DataAddress

/-!
# What keeps an address from being used

An address of objects in a bucket has the right type, a bucket name that is allowed, and an
endpoint.
-/
namespace BucketTransfer.DataAddress

inductive Violation where
  | type (found : Option String)
  | bucketMissing
  | bucketInvalid (error : Bucket.NameError)
  | endpointMissing
  deriving DecidableEq, Repr

def Violation.message : Violation → String
  | .type none => s!"type must be {bucketType}"
  | .type (some found) => s!"type must be {bucketType}, got {found}"
  | .bucketMissing => s!"{bucketNameKey} is required"
  | .bucketInvalid e => s!"{bucketNameKey} is invalid: {e.message}"
  | .endpointMissing => s!"{endpointKey} is required"

/-- Everything that is wrong with an address, in a fixed order. -/
def violations (a : DataAddress) : List Violation :=
  (if a.type = some bucketType then [] else [.type a.type])
    ++ (match a.bucketName with
      | none => [.bucketMissing]
      | some bucket =>
        match Bucket.checkName bucket with
        | .ok () => []
        | .error e => [.bucketInvalid e])
    ++ (if a.endpoint.isNone then [.endpointMissing] else [])

/-- Violations in one line. -/
def Violation.summary (vs : List Violation) : String := "; ".intercalate (vs.map message)

end BucketTransfer.DataAddress
