import BucketTransfer.Files
import BucketTransfer.Files.Path
import BucketTransfer.KeyMap

/-!
# A disk in memory

Files and directories by place. A place is the list of names that lead to it from the working
directory, or, with an empty name in front, from the root; both are always there.
-/
namespace BucketTransfer.Files

inductive Entry where
  | file (content : Bytes)
  | directory
  deriving DecidableEq, Repr

structure Disk where
  entries : KeyMap Entry := ∅

namespace Disk

/-- The longest name of a file, in bytes. -/
def maxName : Nat := 255

def keyOf (place : List String) : String := "/".intercalate place

/-- What stands at a place. -/
def entryAt (d : Disk) (place : List String) : Option Entry :=
  if place = [] ∨ place = [""] then some .directory else d.entries.get? (keyOf place)

/-- Puts an entry at a place. -/
def put (d : Disk) (place : List String) (entry : Entry) : Disk :=
  ⟨d.entries.insert (keyOf place) entry⟩

/-- The place one step from another one. -/
def enter (place : List String) : Path.Component → List String
  | .root => [""]
  | .current => place
  | .up => if place = [""] then [""] else if place.isEmpty then [".."] else place.dropLast
  | .name name => place ++ [name]

/-- One step: only directories can be entered. -/
def step (d : Disk) (place : List String) (c : Path.Component) : Except Fault (List String) :=
  match d.entryAt place with
  | none => .error .absent
  | some (.file _) => .error .notDirectory
  | some .directory =>
    match c with
    | .name name => if maxName < name.utf8ByteSize then .error .nameTooLong else .ok (enter place c)
    | c => .ok (enter place c)

/-- Whether a path can only mean a directory. -/
def meansDirectory (path : String) : Bool :=
  match (Path.segments path).getLast? with
  | some s => s == "" || s == "." || s == ".."
  | none => false

def holdsNul (path : String) : Bool := path.toList.any fun c => c.toNat = 0

/-- The place that a path leads to; only what is on the way to it must be there. -/
def locate (d : Disk) (path : String) : Except Fault (List String) :=
  if holdsNul path then .error (.other "file name contained an unexpected NUL byte")
  else if path = "" then .error .absent
  else (Path.components path).foldlM d.step []

/-- What a path leads to. -/
def find (d : Disk) (path : String) : Except Fault Entry := do
  match d.entryAt (← d.locate path) with
  | none => .error .absent
  | some (.file content) =>
    if meansDirectory path then .error .notDirectory else .ok (.file content)
  | some .directory => .ok .directory

/-- Makes the directories at the end of a way that are missing. -/
def makeAlong (d : Disk) (place : List String) :
    List Path.Component → Except Fault Unit × Disk
  | [] => (.ok (), d)
  | c :: rest =>
    match d.step place c with
    | .error fault => (.error fault, d)
    | .ok place =>
      match d.entryAt place with
      | none => (d.put place .directory).makeAlong place rest
      | some .directory => d.makeAlong place rest
      | some (.file _) => (.error (if rest.isEmpty then .exists else .notDirectory), d)

def write (d : Disk) (path : String) (content : Bytes) : Except Fault Unit × Disk :=
  match d.locate path with
  | .error fault => (.error fault, d)
  | .ok place =>
    if d.entryAt place = some .directory || meansDirectory path then (.error .isDirectory, d)
    else (.ok (), d.put place (.file content))

def remove (d : Disk) (path : String) : Disk :=
  match d.locate path with
  | .error _ => d
  | .ok place => ⟨d.entries.erase (keyOf place)⟩

/-- Renames a file. -/
def rename (d : Disk) (source target : String) : Except Fault Unit × Disk :=
  match d.find source with
  | .error fault => (.error fault, d)
  | .ok .directory => (.error .isDirectory, d)
  | .ok (.file content) =>
    match (d.remove source).write target content with
    | (.error fault, _) => (.error fault, d)
    | (.ok (), d) => (.ok (), d)

def answer (d : Disk) : (q : Question) → q.Answer × Disk
  | .inspect path =>
    ((d.find path).map fun
      | .file content => .regular content.length
      | .directory => .special, d)
  | .read path =>
    ((d.find path).map fun
      | .file content => .ofBytes content
      | .directory => ⟨[], some Fault.isDirectory.message⟩, d)
  | .write path content => d.write path content
  | .createDirectories path =>
    if path = "" then (.ok (), d)
    else if holdsNul path then (.error (.other "file name contained an unexpected NUL byte"), d)
    else d.makeAlong [] (Path.components path)
  | .rename source target => d.rename source target

/-- A disk with files below a directory; a path that ends with a slash is a directory. -/
def ofFiles (root : String) (files : List (String × Bytes)) : Disk :=
  let create (d : Disk) (path : String) : Disk := (d.answer (.createDirectories path)).2
  files.foldl (fun d (path, content) =>
    let full := Path.join root path
    if path.endsWith "/" then create d full
    else (((Path.parent full).elim d (create d)).write full content).2) (create {} root)

/-- The files below a directory, by their paths from there. -/
def filesBelow (d : Disk) (root : String) : List (String × Bytes) :=
  let start := if root = "" then "" else root ++ "/"
  d.entries.entries.filterMap fun
    | (key, .file content) =>
      if start.toList.isPrefixOf key.toList then
        some (String.ofList (key.toList.drop start.length), content)
      else none
    | (_, .directory) => none

end Disk

end BucketTransfer.Files
