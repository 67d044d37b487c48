import BucketTransfer.Settings

/-!
# Trying again

A step that fails in a way that may pass is tried again after a wait, up to a number of attempts.
The first attempt is always made.
-/
namespace BucketTransfer.Provision

/-- How the waits between attempts grow. -/
inductive Backoff where
  | fixed
  | exponential
  deriving DecidableEq, Repr

/-- How often a step is tried, and how long the waits are, in milliseconds. -/
structure Retry where
  backoff : Backoff
  attempts : Nat
  minDelay : Nat
  maxDelay : Nat
  deriving DecidableEq, Repr

namespace Retry

def ofSettings (s : Settings) : Retry where
  backoff := if s.retryFixedDelay then .fixed else .exponential
  attempts := s.retryAttempts
  minDelay := s.retryMinDelay
  maxDelay := s.retryMaxDelay

/-- One attempt and no more. -/
def never : Retry := ⟨.fixed, 1, 0, 0⟩

/-- Attempts with the same wait between them. -/
def every (attempts delay : Nat) : Retry := ⟨.fixed, attempts, delay, delay⟩

/-- The wait after the attempt numbered `n` from 0: always the same, or doubled each time up to a
limit, to which a random part may be added. -/
def delay (r : Retry) (n : Nat) : Nat :=
  match r.backoff with
  | .fixed => r.minDelay
  | .exponential => min (r.minDelay <<< n) (max r.minDelay r.maxDelay)

variable {m : Type → Type} [Monad m] {ε α : Type}

/-- Tries a step again while it fails in a way that may pass and attempts are left; `n` were made.
-/
def retryFrom (r : Retry) (pause : Nat → m Unit) (retryable : ε → Bool)
    (step : m (Except ε α)) : (left n : Nat) → m (Except ε α)
  | 0, _ => step
  | left + 1, n => do
    match ← step with
    | .ok a => pure (.ok a)
    | .error e =>
      if retryable e then do
        pause (r.delay n)
        retryFrom r pause retryable step left (n + 1)
      else pure (.error e)

/-- The outcome of the last attempt at a step. -/
def run (r : Retry) (pause : Nat → m Unit) (retryable : ε → Bool) (step : m (Except ε α)) :
    m (Except ε α) :=
  r.retryFrom pause retryable step (r.attempts - 1) 0

end Retry

end BucketTransfer.Provision
