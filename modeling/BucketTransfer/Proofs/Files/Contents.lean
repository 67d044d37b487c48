import BucketTransfer.Files
import BucketTransfer.Proofs.Dialogue.Leads
import Mathlib.Logic.Function.Basic

/-!
# What files hold

Files whose contents nobody else changes. A file that could not be written as a whole may hold
anything afterwards; a file is renamed at one stroke or not at all.
-/
namespace BucketTransfer.Files
open Function (update)

/-- What files hold, by their paths. -/
abbrev Contents : Type := String → Option Bytes

namespace Contents

/-- What is read of a file. -/
def Reads (files : Contents) (path : String) (answer : Except Fault ByteStream) : Prop :=
  match files path with
  | none => answer = .error .absent
  | some content => ∃ stream, answer = .ok stream ∧ stream.content = .ok content

section Reads
variable {files : Contents} {path : String} {content : Bytes} {answer : Except Fault ByteStream}

theorem reads_of_none (h : files path = none) :
    files.Reads path answer ↔ answer = .error .absent := by
  rw [Reads, h]

theorem reads_of_some (h : files path = some content) :
    files.Reads path answer ↔ ∃ stream, answer = .ok stream ∧ stream.content = .ok content := by
  rw [Reads, h]

end Reads

/-- What becomes of the files when one is written. -/
def Writes (files : Contents) (path : String) (content : Bytes) :
    Except Fault Unit → Contents → Prop
  | .ok (), after => after = update files path (some content)
  | .error _, after => ∀ p, p ≠ path → after p = files p

/-- What becomes of the files when one is renamed. -/
def Renames (files : Contents) (source target : String) : Except Fault Unit → Contents → Prop
  | .ok (), after => ∃ content, files source = some content ∧
      after = update (update files source none) target (some content)
  | .error _, after => after = files

/-- What an exchange does to files. -/
def Step (files : Contents) (e : Exchange Files) (after : Contents) : Prop :=
  match e with
  | ⟨.inspect _, _⟩ => after = files
  | ⟨.read path, answer⟩ => files.Reads path answer ∧ after = files
  | ⟨.write path content, answer⟩ => files.Writes path content answer after
  | ⟨.createDirectories _, _⟩ => after = files
  | ⟨.rename source target, answer⟩ => files.Renames source target answer after

end Contents

end BucketTransfer.Files
