import BucketTransfer.Files.Path
import BucketTransfer.Json.Printer
import BucketTransfer.Json.Reader
import BucketTransfer.Secrets.Memory

/-!
# Secrets in a file

Secrets are kept in memory and in a file with one JSON object. A change writes the whole file anew
under another name beside it, which is then renamed, so that no reader finds half a document. Memory
is changed first, and if the file cannot be written, the change is undone there.
-/
namespace BucketTransfer.Secrets

/-- The content of a file with secrets. -/
def document (secrets : Secrets) : Bytes :=
  utf8 (Json.object (secrets.entries.map fun e => (e.1, .string e.2))).pretty

/-- The secrets in the content of a file; an empty file holds none. -/
def ofDocument (content : Bytes) : Except Json.Fault Secrets :=
  if content.isEmpty then .ok ∅ else (Json.Reader.string.map).complete content

/-- A file with secrets and what it is taken to hold. -/
structure File where
  path : String
  secrets : Secrets

namespace File

/-- The name under which a file is written before it is renamed. -/
def sibling (path : String) : String := path ++ ".tmp"

/-- Opens a file; one that is not there holds no secrets. -/
def load (path : String) : Dialogue Files (Except Error File) := do
  match ← Files.read path with
  | .error .absent => return .ok ⟨path, ∅⟩
  | .error fault => return .error (.file path fault)
  | .ok stream =>
    match stream.content with
    | .error m => return .error (.file path (.other m))
    | .ok content =>
      match ofDocument content with
      | .error fault => return .error (.corrupt path fault)
      | .ok secrets => return .ok ⟨path, secrets⟩

/-- Writes secrets to a file. -/
def persist (path : String) (secrets : Secrets) : Dialogue Files (Except Error Unit) := do
  let directory := ((Files.Path.parent path).filter fun p => !p.isEmpty)
  match ← directory.elim (pure (.ok ())) Files.createDirectories with
  | .error fault => return .error (.file path fault)
  | .ok () =>
    match ← Files.write (sibling path) (document secrets) with
    | .error fault => return .error (.file path fault)
    | .ok () =>
      match ← Files.rename (sibling path) path with
      | .error fault => return .error (.file path fault)
      | .ok () => return .ok ()

/-- Takes secrets that differ at one key for the file's and writes them. If that fails, what was
kept under the key is put back. -/
def change (f : File) (key : String) (secrets : Secrets) :
    Dialogue Files (Except Error Unit × File) := do
  let previous := f.secrets.get? key
  match ← persist f.path secrets with
  | .error e => return (.error e, { f with secrets := secrets.restore key previous })
  | .ok () => return (.ok (), { f with secrets })

def store (f : File) (key value : String) : Dialogue Files (Except Error Unit × File) :=
  if key.isEmpty then pure (.error .emptyKey, f) else f.change key (f.secrets.insert key value)

/-- Takes a secret away; if there is none, the file is left alone. -/
def delete (f : File) (key : String) : Dialogue Files (Except Error Bool × File) := do
  if f.secrets.contains key then
    let (outcome, f) ← f.change key (f.secrets.erase key)
    return (outcome.map fun _ => true, f)
  else return (.ok false, f)

end File

end BucketTransfer.Secrets
