import BucketTransfer.Identity.Remote
import BucketTransfer.ObjectStore.Remote
import BucketTransfer.Secrets.File
import BucketTransfer.Settings
import BucketTransfer.World

/-!
# Services on the web

Object stores and an identity service that are reached through the network, and secrets in a file.
-/
namespace BucketTransfer.Services

structure Connected where
  region : String := ""
  /-- The connector's own credentials. -/
  credentials : Credentials := ⟨"", "", none⟩
  /-- The clients that were made, by number. -/
  stores : List ObjectStore.Remote := []
  identity : Identity.Remote := ⟨"", "", credentials⟩
  secrets : Secrets.File := ⟨"", ∅⟩

namespace Connected

/-- A client for an endpoint, with the connector's credentials unless others are given. -/
def connect (s : Connected) (endpoint : String) (credentials : Option Credentials) :
    Except ObjectStore.Error Client × Connected :=
  match ObjectStore.Remote.connect endpoint s.region (credentials.getD s.credentials) with
  | .error e => (.error e, s)
  | .ok store =>
    (.ok ⟨s.stores.length, store.endpoint⟩, { s with stores := s.stores ++ [store] })

/-- Makes a request through a client that was made. -/
def request (s : Connected) (client : Client) (r : ObjectStore.Request) :
    Dialogue Machine (Except ObjectStore.Error r.Reply) :=
  match s.stores[client.number]? with
  | none => pure (.error (.invalidRequest s!"there is no client {client.number}"))
  | some store => store.answer r

def answer : (q : World.Question) → StateT Connected (Dialogue Machine) q.Answer
  | .request client r => fun s => do return (← s.request client r, s)
  | .connect endpoint credentials => fun s => pure (s.connect endpoint credentials)
  | .issueToken r => fun s => do return (← s.identity.issue r, s)
  | .resolveSecret key => fun s => pure (.ok (s.secrets.secrets.get? key), s)
  | .storeSecret key value => fun s => do
    let (reply, secrets) ← Machine.files (s.secrets.store key value)
    return (reply, { s with secrets })
  | .deleteSecret key => fun s => do
    let (reply, secrets) ← Machine.files (s.secrets.delete key)
    return (reply, { s with secrets })
  | .file q => fun s => do return (← Dialogue.question (I := Machine) (.file q), s)
  | .pause time => fun s => do return (← Machine.pause time, s)
  | .now => fun s => do return (← Machine.now, s)
  | .random => fun s => do return (← Machine.random, s)

instance : Served Connected := ⟨answer⟩

end Connected

end BucketTransfer.Services
