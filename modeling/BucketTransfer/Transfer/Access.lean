import BucketTransfer.Clients
import BucketTransfer.DataAddress.Violation
import BucketTransfer.Transfer.Sink
import BucketTransfer.Transfer.Source

/-!
# Access to data addresses

A sink or a source for an address. If the address names a stored credential, requests are signed
with that and with no other; a sink then aborts its uploads with the connector's client where the
credential does not let it.
-/
namespace BucketTransfer.Transfer

/-- The bucket and the endpoint of an address that can be used. -/
def located (a : DataAddress) : Except Error (String × String) :=
  match a.violations, a.bucketName, a.endpoint with
  | [], some bucket, some endpoint => .ok (bucket, endpoint)
  | [], _, _ => .error (.general "invalid OBS data address")
  | violations, _, _ =>
    let summary := DataAddress.Violation.summary violations
    .error (.general s!"invalid OBS data address: {summary}")

/-- The text of the credential that an address names, if one is stored. -/
def storedCredential (a : DataAddress) : Task Error (Option String) :=
  match a.keyName with
  | none => return none
  | some key =>
    Task.attempt (fun e => .general s!"failed to resolve {key}: {e.message}")
      (World.resolveSecret key)

def unreachable (e : ObjectStore.Error) : Error :=
  .general s!"failed to create OBS client: {e.message}"

/-- The client for an address, and whether it signs with a stored credential. -/
def clientFor (a : DataAddress) (endpoint : String) : Task Error (Client × Bool) := do
  match ← storedCredential a with
  | none => return (← (Clients.obtain endpoint).describing unreachable, false)
  | some text =>
    match TemporaryCredential.ofText text with
    | .error fault => throw (.general s!"stored credential is unreadable: {fault.category}")
    | .ok credential =>
      if credential.isExpiredAt (← Task.ask World.now) then
        throw (.notAuthorized s!"temporary credential for {endpoint} has expired")
      else
        let client ← Task.attempt unreachable
          (Clients.withCredentials endpoint credential.toCredentials)
        return (client, true)

/-- The connector's client, if it can be made. -/
def connectorClient (endpoint : String) : Task Error (Option Client) :=
  ExceptT.mk fun clients => do
    match ← (Clients.obtain endpoint).run clients with
    | (.ok client, clients) => return (.ok (some client), clients)
    | (.error _, clients) => return (.ok none, clients)

/-- The sink for an address. -/
def sinkFor (chunkSize : Nat) (a : DataAddress) : Task Error Sink := do
  let (bucket, endpoint) ← ExceptT.mk (pure (located a))
  let (client, temporary) ← clientFor a endpoint
  let sink := Sink.ofChunks client bucket a.keyPrefix chunkSize
  if temporary then return { sink with abortClient := ← connectorClient endpoint }
  else return sink

/-- The source for an address. -/
def sourceFor (a : DataAddress) : Task Error Source := do
  let (bucket, endpoint) ← ExceptT.mk (pure (located a))
  let (client, _) ← clientFor a endpoint
  return ⟨client, bucket, a.keyPrefix, a.objectName⟩

end BucketTransfer.Transfer
