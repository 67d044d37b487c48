import BucketTransfer.Identity.Issuer
import BucketTransfer.Machine
import BucketTransfer.ObjectStore.Memory
import BucketTransfer.Secrets.Memory
import BucketTransfer.World

/-!
# Services in memory

One object store, which every client talks to, an identity service and secrets, all in memory.
-/
namespace BucketTransfer.Services

structure InMemory where
  store : ObjectStore.Memory
  issuer : Identity.Issuer
  secrets : Secrets := ∅

namespace InMemory

/-- How long the credential lives that is issued here, in milliseconds. -/
def lifetime : Int := 3600000

/-- Services around a store at some time. -/
def ofStore (store : ObjectStore.Memory) (time : Int) : InMemory where
  store := store
  issuer := { credential := ⟨"memory-ak", "memory-sk", "memory-token", time + lifetime⟩ }

def answer : (q : World.Question) → StateT InMemory (Dialogue Machine) q.Answer
  | .request _ r => fun s =>
    let (reply, store) := s.store.answer r
    pure (reply, { s with store })
  | .connect .. => fun s => pure (.ok ⟨0, s.store.endpoint⟩, s)
  | .issueToken r => fun s =>
    let (reply, issuer) := s.issuer.answer r
    pure (reply, { s with issuer })
  | .resolveSecret key => fun s => pure (.ok (s.secrets.get? key), s)
  | .storeSecret key value => fun s =>
    let (reply, secrets) := Secrets.store s.secrets key value
    pure (reply, { s with secrets })
  | .deleteSecret key => fun s =>
    let (reply, secrets) := Secrets.delete s.secrets key
    pure (reply, { s with secrets })
  | .file q => fun s => do return (← Dialogue.question (I := Machine) (.file q), s)
  | .pause time => fun s => do return (← Machine.pause time, s)
  | .now => fun s => do return (← Machine.now, s)
  | .random => fun s => do return (← Machine.random, s)

instance : Served InMemory := ⟨answer⟩

end InMemory

end BucketTransfer.Services
