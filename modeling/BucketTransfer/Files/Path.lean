import BucketTransfer.Text.Split

/-!
# Paths

A path is a text whose segments stand between slashes. Empty segments and those that are a single
dot name nothing, but for a dot in front and for the slash in front, which stands for the root.
-/
namespace BucketTransfer.Files.Path

/-- What stands between slashes; there is one segment more than there are slashes. -/
def segments (path : String) : List String := (Text.split '/' path.toList).map String.ofList

inductive Component where
  | root
  | current
  | up
  | name (name : String)
  deriving DecidableEq, Repr

/-- What a segment behind the first one stands for. -/
def Component.ofSegment (segment : String) : Option Component :=
  if segment = "" ∨ segment = "." then none
  else if segment = ".." then some .up
  else some (.name segment)

/-- What the segments of a path stand for. -/
def components (path : String) : List Component :=
  match segments path with
  | "" :: rest => (if path = "" then [] else [.root]) ++ rest.filterMap Component.ofSegment
  | "." :: rest => .current :: rest.filterMap Component.ofSegment
  | all => all.filterMap Component.ofSegment

/-- The name at the end of a path, unless it leads up or names nothing. -/
def fileName (path : String) : Option String :=
  match (components path).getLast? with
  | some (.name name) => some name
  | _ => none

/-- Drops the segments at the end that name nothing, but not the first one. -/
def trimEnd : List String → List String
  | [] => []
  | first :: rest =>
    first :: (rest.reverse.dropWhile fun s => s = "" ∨ s = ".").reverse

/-- The path without its last component; there is none for the root and for the empty path. -/
def parent (path : String) : Option String :=
  match trimEnd (segments path) with
  | [] | [""] => none
  | all =>
    match trimEnd all.dropLast with
    | [""] => some "/"
    | rest => some ("/".intercalate rest)

/-- A path below another one; one that starts at the root stays as it is. -/
def join (base path : String) : String :=
  if path.startsWith "/" ∨ base = "" then path
  else if base.endsWith "/" then base ++ path
  else base ++ "/" ++ path

end BucketTransfer.Files.Path
