import BucketTransfer.KeyMap
import BucketTransfer.World

/-!
# Clients by endpoint

Clients with the connector's own credentials are made once for each endpoint and kept; those with
other credentials are made anew each time and not kept.
-/
namespace BucketTransfer

/-- The clients that are kept, by endpoint. -/
abbrev Clients := KeyMap Client

/-- What asks the world, keeps clients, and may fail. -/
abbrev Task (ε α : Type) : Type := ExceptT ε (StateT Clients (Dialogue World)) α

namespace Task
variable {ε δ α : Type}

/-- What a dialogue comes to, with its failure in other words. -/
def attempt (describe : δ → ε) (d : Dialogue World (Except δ α)) : Task ε α :=
  ExceptT.mk fun clients => do
    match ← d with
    | .ok a => return (.ok a, clients)
    | .error e => return (.error (describe e), clients)

/-- A question that cannot fail. -/
def ask (d : Dialogue World α) : Task ε α :=
  ExceptT.mk fun clients => do return (.ok (← d), clients)

/-- The same with its failure in other words. -/
def describing (describe : δ → ε) (t : Task δ α) : Task ε α :=
  ExceptT.mk fun clients => do
    match ← t.run clients with
    | (.ok a, clients) => return (.ok a, clients)
    | (.error e, clients) => return (.error (describe e), clients)

end Task

namespace Clients

/-- The client that is kept for an endpoint, or a new one, which is kept if it can be made. -/
def obtain (endpoint : String) : Task ObjectStore.Error Client :=
  ExceptT.mk fun clients =>
    match clients.get? endpoint with
    | some client => return (.ok client, clients)
    | none => do
      match ← World.connect endpoint none with
      | .error e => return (.error e, clients)
      | .ok client => return (.ok client, clients.insert endpoint client)

/-- A new client with credentials of its own. -/
def withCredentials (endpoint : String) (credentials : Credentials) :
    Dialogue World (Except ObjectStore.Error Client) := World.connect endpoint (some credentials)

/-- Closes clients, whether or not each of them can be closed. -/
def closeAll : List Client → Dialogue World Unit
  | [] => return ()
  | client :: rest => do
    let _ ← client.close
    closeAll rest

/-- Closes all clients and keeps none. -/
def shutDown (clients : Clients) : Dialogue World (Unit × Clients) := do
  closeAll (clients.entries.map (·.2))
  return ((), ∅)

def display (clients : Clients) : String :=
  Text.record "ObsClientCache" [("endpoints", toString clients.size)] true

end Clients

end BucketTransfer
