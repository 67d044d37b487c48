import BucketTransfer.ObjectStore.Error

/-!
# Errors of transfers
-/
namespace BucketTransfer.Transfer

inductive Error where
  | notFound (what : String)
  | notAuthorized (what : String)
  | general (what : String)
  deriving DecidableEq, Repr

namespace Error

def message : Error → String
  | notFound what => s!"not found: {what}"
  | notAuthorized what => s!"not authorized: {what}"
  | general what => what

/-- A failure of an object store in what a context names. -/
def ofStore (context : String) (e : ObjectStore.Error) : Error :=
  let what := s!"{context}: {e.message}"
  match e.reason with
  | .notFound => notFound what
  | .accessDenied => notAuthorized what
  | .alreadyExists => general what
  | .other => general what

end Error

end BucketTransfer.Transfer
