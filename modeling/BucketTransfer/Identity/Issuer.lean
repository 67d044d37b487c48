import BucketTransfer.Credential
import BucketTransfer.Identity.Error
import BucketTransfer.Identity.Policy

/-!
# Identity services in memory

A service that issues the same credential each time, keeps all requests, and fails as often as it is
told to.
-/
namespace BucketTransfer.Identity

structure Issuer where
  /-- A credential that expires in 2100, unless another one is given. -/
  credential : TemporaryCredential :=
    ⟨"accessKeyId", "secretAccessKey", "sessionToken", 4102444800000⟩
  /-- The failures to come. -/
  failures : List Error := []
  /-- All requests, the last one first. -/
  requests : List TokenRequest := []
  deriving DecidableEq, Repr

namespace Issuer

def answer (i : Issuer) (r : TokenRequest) : Except Error TemporaryCredential × Issuer :=
  let i := { i with requests := r :: i.requests }
  match i.failures with
  | [] => (.ok i.credential, i)
  | e :: rest => (.error e, { i with failures := rest })

/-- The service with failures behind those that are to come. -/
def withFailures (i : Issuer) (e : Error) (times : Nat) : Issuer :=
  { i with failures := i.failures ++ List.replicate times e }

end Issuer

end BucketTransfer.Identity
