import BucketTransfer.ByteStream
import BucketTransfer.Dialogue

/-!
# Files

What can be asked of a file system, and how it fails.
-/
namespace BucketTransfer.Files

/-- Why a file system refuses something. -/
inductive Fault where
  | absent
  | exists
  | notDirectory
  | isDirectory
  | nameTooLong
  | other (message : String)
  deriving DecidableEq, Repr

def Fault.message : Fault → String
  | .absent => "No such file or directory (os error 2)"
  | .exists => "File exists (os error 17)"
  | .notDirectory => "Not a directory (os error 20)"
  | .isDirectory => "Is a directory (os error 21)"
  | .nameTooLong => "File name too long (os error 36)"
  | .other m => m

/-- What stands under a path. -/
inductive Kind where
  | regular (size : Nat)
  | special
  deriving DecidableEq, Repr

inductive Question where
  | inspect (path : String)
  | read (path : String)
  | write (path : String) (content : Bytes)
  | createDirectories (path : String)
  | rename (source target : String)
  deriving DecidableEq, Repr

/-- A file that is opened may still fail to be read. -/
abbrev Question.Answer : Question → Type
  | inspect _ => Except Fault Kind
  | read _ => Except Fault ByteStream
  | write .. | createDirectories _ | rename .. => Except Fault Unit

end Files

/-- File systems. -/
def Files : Interface := ⟨Files.Question, Files.Question.Answer⟩

namespace Files

def inspect (path : String) : Dialogue Files (Except Fault Kind) :=
  .question (I := Files) (.inspect path)

def read (path : String) : Dialogue Files (Except Fault ByteStream) :=
  .question (I := Files) (.read path)

/-- Makes a file with some content, over one that is there. -/
def write (path : String) (content : Bytes) : Dialogue Files (Except Fault Unit) :=
  .question (I := Files) (.write path content)

/-- Makes a directory and those above it, as far as they are missing. -/
def createDirectories (path : String) : Dialogue Files (Except Fault Unit) :=
  .question (I := Files) (.createDirectories path)

/-- Renames a file, over one that is there. -/
def rename (source target : String) : Dialogue Files (Except Fault Unit) :=
  .question (I := Files) (.rename source target)

end Files

end BucketTransfer
