import BucketTransfer.Files.Path
import BucketTransfer.Transfer.Error
import BucketTransfer.World

/-!
# Parts

What a transfer moves: named content, at hand, in an object store, or in a file. Nothing is fetched
before the part is opened.
-/
namespace BucketTransfer.Transfer

inductive Content where
  /-- What opening comes to is known already. -/
  | given (opened : Except Error ByteStream)
  | object (client : Client) (bucket key : String)
  | file (path : String)

structure Part where
  name : String
  /-- The size in bytes, 0 if it is not known. -/
  size : Nat
  content : Content

namespace Part

/-- A part with content at hand. -/
def ofBytes (name : String) (content : Bytes) : Part :=
  ⟨name, content.length, .given (.ok (.ofBytes content))⟩

/-- A part that is an object in a listing. -/
def ofObject (client : Client) (bucket : String) (s : ObjectStore.Summary) : Part :=
  ⟨s.key, s.size, .object client bucket s.key⟩

def fileError (path : String) (fault : Files.Fault) : Error :=
  let what := s!"{path}: {fault.message}"
  if fault = .absent then .notFound what else .general what

/-- A part that is a file, under a name of its own. -/
def ofFile (name path : String) : Dialogue Files (Except Error Part) := do
  match ← Files.inspect path with
  | .error fault => return .error (fileError path fault)
  | .ok .special => return .error (.general s!"{path} is not a regular file")
  | .ok (.regular size) => return .ok ⟨name, size, .file path⟩

/-- A part that is a file, under its name. -/
def ofPath (path : String) : Dialogue Files (Except Error Part) :=
  match Files.Path.fileName path with
  | none => pure (.error (.general s!"{path} has no usable file name"))
  | some name => ofFile name path

/-- Parts that are files, under their names; none if one of them cannot be one. -/
def ofPaths : List String → Dialogue Files (Except Error (List Part))
  | [] => return .ok []
  | path :: rest => do
    match ← ofPath path with
    | .error e => return .error e
    | .ok part => return (← ofPaths rest).map (part :: ·)

/-- Opens a part for reading. -/
def openStream (p : Part) : Dialogue World (Except Error ByteStream) :=
  match p.content with
  | .given opened => pure opened
  | .object client bucket key => do
    match ← client.getObject bucket key with
    | .error e => return .error (.ofStore s!"failed to read {key} from bucket {bucket}" e)
    | .ok body => return .ok body.stream
  | .file path => do
    match ← World.files (Files.read path) with
    | .error fault => return .error (fileError path fault)
    | .ok stream => return .ok stream

end Part

end BucketTransfer.Transfer
