import BucketTransfer.Connector.Error
import BucketTransfer.Files.Path

/-!
# Local paths

Where an object is put when it is downloaded: the names in its key, one below the other. A key that
could lead out of the directory has no local path.
-/
namespace BucketTransfer.Connector
open Files.Path (Component components)

/-- The names along a way that only leads down. -/
def descend : List Component → Option (List String)
  | [] => some []
  | .name name :: rest => (descend rest).map (name :: ·)
  | .current :: rest => descend rest
  | .root :: _ | .up :: _ => none

/-- The path of an object below the directory that it is downloaded to. -/
def localPath (key : String) : Except Error String :=
  match descend (components key) with
  | none => .error (.unsafeKey key)
  | some [] => .error (.emptyKey key)
  | some names => .ok ("/".intercalate names)

end BucketTransfer.Connector
