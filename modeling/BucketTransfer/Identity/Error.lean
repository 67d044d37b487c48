/-!
# Errors of identity services
-/
namespace BucketTransfer.Identity

/-- The lifetimes of credentials that a service issues, in seconds. -/
def shortest : Nat := 900
def longest : Nat := 86400

inductive Error where
  | service (status : Nat) (code : Option String) (message : String)
  | transport (message : String)
  | invalidResponse (message : String)
  | invalidDuration (seconds : Nat)
  deriving DecidableEq, Repr

namespace Error

def message : Error → String
  | service status _ m => s!"IAM request failed with status {status}: {m}"
  | transport m => s!"IAM transport error: {m}"
  | invalidResponse m => s!"invalid IAM response: {m}"
  | invalidDuration seconds => s!"token duration {seconds}s is outside {shortest}..={longest}s"

/-- Whether the same request may succeed later. -/
def isRetryable : Error → Bool
  | transport _ => true
  | service status _ _ => 500 ≤ status || status == 429
  | invalidResponse _ => false
  | invalidDuration _ => false

end Error

end BucketTransfer.Identity
