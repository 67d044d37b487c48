import BucketTransfer.Identity.Issuer
import BucketTransfer.Machine
import BucketTransfer.ObjectStore.Memory
import BucketTransfer.Secrets.Memory
import BucketTransfer.World

/-!
# Services for rehearsals

Several clients of stores in memory: one for each store, one for the first store that may do only
some things, and one for the first store some of whose answers are scripted. Endpoints can be
broken, and all clients that are made are noted.
-/
namespace BucketTransfer.Services

/-- What a client talks to. -/
inductive Route where
  | store (number : Nat)
  /-- The first store, with scripted answers first. -/
  | scripted
  /-- The first store, as far as allowed. -/
  | restricted
  deriving DecidableEq, Repr

namespace Route

def number : Route → Nat
  | scripted => 0
  | restricted => 1
  | store n => n + 2

def ofNumber : Nat → Route
  | 0 => scripted
  | 1 => restricted
  | n + 2 => store n

theorem ofNumber_number (r : Route) : ofNumber r.number = r := by cases r <;> rfl

end Route

structure Scripted where
  /-- The stores: the first one, another one, and those made since. -/
  stores : List ObjectStore.Memory
  restricted : ObjectStore.Restricted := {}
  /-- The pages that are given out first. -/
  pages : List (Except ObjectStore.Error ObjectStore.Page) := []
  /-- The outcomes of batches that are given out first. -/
  deletions : List (Except ObjectStore.Error ObjectStore.DeleteResult) := []
  /-- The markers that scripted pages were asked for with, the last one first. -/
  markers : List (Option String) := []
  /-- Endpoints for which no client can be made. -/
  broken : List String := []
  /-- Whether each new client gets a store of its own. -/
  storePerClient : Bool := false
  /-- The clients that were made, by endpoint and credentials, the last one first. -/
  made : List (String × Option Credentials) := []
  issuer : Identity.Issuer := {}
  secrets : Secrets := ∅

namespace Scripted
variable (s : Scripted)

def storeAt (n : Nat) : ObjectStore.Memory := s.stores[n]?.getD {}

def withStore (n : Nat) (store : ObjectStore.Memory) : Scripted :=
  { s with stores := s.stores.set n store }

/-- The client on a route. -/
def clientOn (r : Route) : Client :=
  match r with
  | .store n => ⟨r.number, (s.storeAt n).endpoint⟩
  | .scripted | .restricted => ⟨r.number, (s.storeAt 0).endpoint⟩

/-- Answers a request that goes to a store. -/
def atStore (n : Nat) (r : ObjectStore.Request) : Except ObjectStore.Error r.Reply × Scripted :=
  let (reply, store) := (s.storeAt n).answer r
  (reply, s.withStore n store)

/-- Answers a request from the script as long as it has an answer. -/
def atScript : (r : ObjectStore.Request) → Except ObjectStore.Error r.Reply × Scripted
  | .listObjects bucket keyPrefix marker =>
    match s.pages with
    | [] => s.atStore 0 (.listObjects bucket keyPrefix marker)
    | page :: rest => (page, { s with pages := rest, markers := marker :: s.markers })
  | .deleteObjects bucket keys =>
    match s.deletions with
    | [] => s.atStore 0 (.deleteObjects bucket keys)
    | result :: rest => (result, { s with deletions := rest })
  | r => s.atStore 0 r

def request (client : Client) (r : ObjectStore.Request) :
    Except ObjectStore.Error r.Reply × Scripted :=
  match Route.ofNumber client.number with
  | .store n => s.atStore n r
  | .scripted => s.atScript r
  | .restricted =>
    let (reply, restricted, store) := s.restricted.answer (s.storeAt 0) r
    (reply, { s.withStore 0 store with restricted })

def connect (endpoint : String) (credentials : Option Credentials) :
    Except ObjectStore.Error Client × Scripted :=
  if endpoint ∈ s.broken then (.error (.invalidRequest s!"bad endpoint {endpoint}"), s)
  else
    let s := { s with made := (endpoint, credentials) :: s.made }
    if s.storePerClient then
      let s := { s with stores := s.stores ++ [{ endpoint := endpoint }] }
      (.ok (s.clientOn (.store (s.stores.length - 1))), s)
    else (.ok (s.clientOn (if credentials.isSome then .restricted else .scripted)), s)

def answer : (q : World.Question) → StateT Scripted (Dialogue Machine) q.Answer
  | .request client r => fun s => pure (s.request client r)
  | .connect endpoint credentials => fun s => pure (s.connect endpoint credentials)
  | .issueToken r => fun s =>
    let (reply, issuer) := s.issuer.answer r
    pure (reply, { s with issuer })
  | .resolveSecret key => fun s => pure (.ok (s.secrets.get? key), s)
  | .storeSecret key value => fun s =>
    let (reply, secrets) := Secrets.store s.secrets key value
    pure (reply, { s with secrets })
  | .deleteSecret key => fun s =>
    let (reply, secrets) := Secrets.delete s.secrets key
    pure (reply, { s with secrets })
  | .file q => fun s => do return (← Dialogue.question (I := Machine) (.file q), s)
  | .pause time => fun s => do return (← Machine.pause time, s)
  | .now => fun s => do return (← Machine.now, s)
  | .random => fun s => do return (← Machine.random, s)

instance : Served Scripted := ⟨answer⟩

end Scripted

end BucketTransfer.Services
