import BucketTransfer.Files
import BucketTransfer.Http

/-!
# The machine

What lies below object stores and identity services: files, the network, time and random bytes.
-/
namespace BucketTransfer

namespace Machine

inductive Question where
  | file (question : Files.Question)
  | send (request : Http.Request)
  /-- A wait, in milliseconds. -/
  | pause (time : Nat)
  /-- The time, in milliseconds since 1970. -/
  | now
  /-- Sixteen random bytes. -/
  | random
  deriving DecidableEq, Repr

/-- A request that is not answered fails with a message. -/
abbrev Question.Answer : Question → Type
  | .file q => q.Answer
  | .send _ => Except String Http.Response
  | .pause _ => Unit
  | .now => Int
  | .random => Bytes

end Machine

def Machine : Interface := ⟨Machine.Question, Machine.Question.Answer⟩

namespace Machine

private def question (q : Question) : Dialogue Machine q.Answer := .question (I := Machine) q

def files {α : Type} (d : Dialogue Files α) : Dialogue Machine α :=
  d.relay fun q => question (.file q)

def send (request : Http.Request) : Dialogue Machine (Except String Http.Response) :=
  question (.send request)

def pause (time : Nat) : Dialogue Machine Unit := question (.pause time)

def now : Dialogue Machine Int := question .now

def random : Dialogue Machine Bytes := question .random

end Machine

end BucketTransfer
