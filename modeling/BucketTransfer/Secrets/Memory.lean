import BucketTransfer.KeyMap
import BucketTransfer.Secrets.Error

/-!
# Secrets in memory

Secrets are kept under keys that are not empty.
-/
namespace BucketTransfer

abbrev Secrets := KeyMap String

namespace Secrets

def store (secrets : Secrets) (key value : String) : Except Error Unit × Secrets :=
  if key.isEmpty then (.error .emptyKey, secrets) else (.ok (), secrets.insert key value)

/-- Takes a secret away; the answer says whether there was one. -/
def delete (secrets : Secrets) (key : String) : Except Error Bool × Secrets :=
  (.ok (secrets.contains key), secrets.erase key)

end Secrets

end BucketTransfer
