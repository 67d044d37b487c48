import BucketTransfer.Digest.Sha256
import BucketTransfer.Files.Disk
import BucketTransfer.Machine
import BucketTransfer.Url

/-!
# Machines in memory

A machine whose files are in memory, whose time stands still, whose waits take no time, and whose
random bytes are digests of a count. What the network answers is a function of the request.
-/
namespace BucketTransfer.Machine

/-- A network that reaches nobody. -/
def unreachable (r : Http.Request) : Except String Http.Response :=
  let shown := match Url.parse r.url with
    | .ok url => url.text
    | .error _ => r.url
  .error s!"error sending request for url ({shown})"

structure Simulated where
  disk : Files.Disk := {}
  /-- The time, in milliseconds since 1970; the start of 2026 unless it is given. -/
  time : Int := 1767225600000
  /-- How often random bytes were asked for. -/
  drawn : Nat := 0
  network : Http.Request → Except String Http.Response := unreachable

namespace Simulated

/-- The random bytes that are given out after `n` others. -/
def randomBytes (n : Nat) : Bytes := (Digest.Sha256.digest (utf8 (toString n))).take 16

def answer : (q : Question) → StateM Simulated q.Answer
  | .file q => fun m =>
    let (reply, disk) := m.disk.answer q
    (reply, { m with disk })
  | .send r => fun m => (m.network r, m)
  | .pause _ => fun m => ((), m)
  | .now => fun m => (m.time, m)
  | .random => fun m => (randomBytes m.drawn, { m with drawn := m.drawn + 1 })

end Simulated

end BucketTransfer.Machine
