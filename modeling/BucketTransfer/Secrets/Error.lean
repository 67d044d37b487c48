import BucketTransfer.Files
import BucketTransfer.Json.Scan

/-!
# Errors of secret stores
-/
namespace BucketTransfer.Secrets

inductive Error where
  | file (path : String) (fault : Files.Fault)
  | corrupt (path : String) (fault : Json.Fault)
  | emptyKey
  deriving DecidableEq, Repr

namespace Error

def message : Error → String
  | file path fault => s!"secret file {path}: {fault.message}"
  | corrupt path fault => s!"secret file {path} is corrupt: {fault.category}"
  | emptyKey => "secret key must not be empty"

/-- The message of an error and that of its cause. -/
def chain (e : Error) : List String :=
  e.message :: match e with
    | file _ fault => [fault.message]
    | corrupt _ fault => [fault.category]
    | emptyKey => []

end Error

end BucketTransfer.Secrets
