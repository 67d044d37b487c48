import BucketTransfer.Bucket.Resource
import BucketTransfer.Clients
import BucketTransfer.Machine.Simulated
import BucketTransfer.Provision.Retry

/-!
# Rehearsals

Dialogues with the world that are carried out on some services and a simulated machine, and steps
with given outcomes that are tried again.
-/
namespace BucketTransfer

/-- Where a rehearsal stands: the services, the clients that are kept, the machine, and the
resources that were provided, the last one first. -/
structure Rehearsal (σ : Type) where
  services : σ
  clients : Clients := ∅
  machine : Machine.Simulated := {}
  provided : List Bucket.Provisioned := []

namespace Rehearsal
variable {σ ε α : Type}

/-- Puts other services in place of those that are there. -/
def withServices (f : σ → σ) (r : Rehearsal σ) : Rehearsal σ := { r with services := f r.services }

/-- Puts another disk into the machine. -/
def withDisk (f : Files.Disk → Files.Disk) (r : Rehearsal σ) : Rehearsal σ :=
  { r with machine := { r.machine with disk := f r.machine.disk } }

/-- Carries out a dialogue; one that is cut off has no value and leaves the services as they were.
-/
def play [Served σ] (d : Dialogue World α) : StateM (Rehearsal σ) (Option α) := fun r =>
  let led : Dialogue Machine (Option α × σ) := (d.run Served.answer).run r.services
  match (led.run Machine.Simulated.answer).run r.machine with
  | (some (value, services), machine) => (value, { r with services, machine })
  | (none, machine) => (none, { r with machine })

/-- Carries out a task with the clients that are kept. -/
def attempt [Served σ] (t : Task ε α) : StateM (Rehearsal σ) (Option (Except ε α)) := do
  match ← play (t.run (← get).clients) with
  | some (outcome, clients) =>
    modify fun r => { r with clients }
    return some outcome
  | none => return none

end Rehearsal

namespace Provision.Retry
variable {ε α : Type}

/-- The calls of a step whose outcomes are given, and the waits, the last one first. -/
structure Script where
  calls : Nat := 0
  delays : List Nat := []
  deriving DecidableEq, Repr

namespace Script

/-- A wait that is noted down. -/
def pause (delay : Nat) : StateM Script Unit :=
  modify fun s => { s with delays := delay :: s.delays }

/-- A step with the given outcomes, by the number of the call from 0. -/
def step (outcome : Nat → Except ε α) : StateM Script (Except ε α) := fun s =>
  (outcome s.calls, { s with calls := s.calls + 1 })

end Script

/-- A run over given outcomes. -/
def rehearse (r : Retry) (retryable : ε → Bool) (outcome : Nat → Except ε α) :
    Except ε α × Script :=
  (r.run Script.pause retryable (Script.step outcome)).run {}

end Provision.Retry

end BucketTransfer
