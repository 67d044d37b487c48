import BucketTransfer.Credential
import BucketTransfer.Files
import BucketTransfer.Identity.Error
import BucketTransfer.Identity.Policy
import BucketTransfer.Machine
import BucketTransfer.ObjectStore.Request
import BucketTransfer.Secrets.Error

/-!
# The world of a transfer

All that transfers ask for: object stores through clients, new clients, credentials, secrets, files,
the time, waits and random bytes.
-/
namespace BucketTransfer

/-- A client of an object store: its number, and the endpoint it talks to. -/
structure Client where
  number : Nat
  endpoint : String
  deriving DecidableEq, Repr

namespace World

inductive Question where
  | request (client : Client) (request : ObjectStore.Request)
  /-- A new client for an endpoint, with the credentials of the connector unless some are given. -/
  | connect (endpoint : String) (credentials : Option Credentials)
  | issueToken (request : Identity.TokenRequest)
  | resolveSecret (key : String)
  | storeSecret (key value : String)
  | deleteSecret (key : String)
  | file (question : Files.Question)
  /-- A wait, in milliseconds. -/
  | pause (time : Nat)
  /-- The time, in milliseconds since 1970. -/
  | now
  /-- Sixteen random bytes. -/
  | random
  deriving DecidableEq, Repr

abbrev Question.Answer : Question → Type
  | .request _ r => Except ObjectStore.Error r.Reply
  | .connect .. => Except ObjectStore.Error Client
  | .issueToken _ => Except Identity.Error TemporaryCredential
  | .resolveSecret _ => Except Secrets.Error (Option String)
  | .storeSecret .. => Except Secrets.Error Unit
  | .deleteSecret _ => Except Secrets.Error Bool
  | .file q => q.Answer
  | .pause _ => Unit
  | .now => Int
  | .random => Bytes

end World

def World : Interface := ⟨World.Question, World.Question.Answer⟩

namespace World

private def question (q : Question) : Dialogue World q.Answer := .question (I := World) q

def connect (endpoint : String) (credentials : Option Credentials) :
    Dialogue World (Except ObjectStore.Error Client) := question (.connect endpoint credentials)

def issueToken (request : Identity.TokenRequest) :
    Dialogue World (Except Identity.Error TemporaryCredential) := question (.issueToken request)

def resolveSecret (key : String) : Dialogue World (Except Secrets.Error (Option String)) :=
  question (.resolveSecret key)

def storeSecret (key value : String) : Dialogue World (Except Secrets.Error Unit) :=
  question (.storeSecret key value)

/-- Takes a secret away; the answer says whether there was one. -/
def deleteSecret (key : String) : Dialogue World (Except Secrets.Error Bool) :=
  question (.deleteSecret key)

/-- A dialogue with the file system. -/
def files {α : Type} (d : Dialogue Files α) : Dialogue World α :=
  d.relay fun q => question (.file q)

def pause (time : Nat) : Dialogue World Unit := question (.pause time)

def now : Dialogue World Int := question .now

def random : Dialogue World Bytes := question .random

end World

/-- Services that answer what the world is asked, with the help of a machine. -/
class Served (σ : Type) where
  answer : (q : World.Question) → StateT σ (Dialogue Machine) q.Answer

namespace Client
open ObjectStore

/-- Sends a request. -/
def send (c : Client) (r : Request) : Dialogue World (Except Error r.Reply) :=
  .question (I := World) (.request c r)

variable (c : Client) (bucket key : String)

def createBucket : Dialogue World (Except Error Unit) := c.send (.createBucket bucket)

def deleteBucket : Dialogue World (Except Error Unit) := c.send (.deleteBucket bucket)

/-- The page of a listing after a marker. -/
def listObjects (keyPrefix : String) (marker : Option String) :
    Dialogue World (Except Error Page) := c.send (.listObjects bucket keyPrefix marker)

/-- Puts an object into a bucket in one piece; the value is its tag. -/
def putObject (body : Bytes) : Dialogue World (Except Error String) :=
  c.send (.putObject bucket key body)

def deleteObject : Dialogue World (Except Error Unit) := c.send (.deleteObject bucket key)

def getObject : Dialogue World (Except Error Body) := c.send (.getObject bucket key)

def deleteObjects (keys : List String) : Dialogue World (Except Error DeleteResult) :=
  c.send (.deleteObjects bucket keys)

def initiateUpload : Dialogue World (Except Error Upload) := c.send (.initiateUpload bucket key)

def uploadPart (part : PartUpload) : Dialogue World (Except Error CompletedPart) :=
  c.send (.uploadPart part)

def completeUpload (upload : Upload) (parts : List CompletedPart) :
    Dialogue World (Except Error Unit) := c.send (.completeUpload upload parts)

def abortUpload (upload : Upload) : Dialogue World (Except Error Unit) :=
  c.send (.abortUpload upload)

def close : Dialogue World (Except Error Unit) := c.send .close

end Client

/-- A credential that may only put objects into a bucket. It is asked for only if the identity
service issues ones that live as long. -/
def Identity.issue (bucket : String) (seconds : Nat) :
    Dialogue World (Except Error TemporaryCredential) :=
  if shortest ≤ seconds ∧ seconds ≤ longest then
    World.issueToken ⟨seconds, .putOnly bucket⟩
  else pure (.error (.invalidDuration seconds))

end BucketTransfer
