import BucketTransfer.CommandLine.Program
import BucketTransfer.Machine.Simulated
import Std.Time.DateTime.Timestamp

/-!
# The executable

The machine that the program runs on: files, time and random bytes of the operating system. There is
no network, so that every request fails as one that reaches nobody.
-/
namespace BucketTransfer

namespace Files

/-- What the operating system says, by its number for it. -/
def Fault.ofError : IO.Error → Fault
  | .noFileOrDirectory .. => .absent
  | .alreadyExists .. => .exists
  | .inappropriateType _ 20 _ => .notDirectory
  | .inappropriateType _ 21 _ => .isDirectory
  | e => .other (toString e)

/-- Carries out an action whose failure is a fault. -/
def attempt {α : Type} (action : IO α) : IO (Except Fault α) := do
  match ← action.toBaseIO with
  | .ok a => return .ok a
  | .error e => return .error (.ofError e)

def perform : (q : Question) → IO q.Answer
  | .inspect path => attempt do return .regular (← IO.FS.readBinFile path).size
  | .read path => attempt do return .ofBytes (← IO.FS.readBinFile path).toList
  | .write path content => attempt (IO.FS.writeBinFile path ⟨content.toArray⟩)
  | .createDirectories path =>
    if path.isEmpty then return .ok () else attempt (IO.FS.createDirAll path)
  | .rename source target => attempt (IO.FS.rename source target)

end Files

namespace Machine

def perform : (q : Question) → IO q.Answer
  | .file q => Files.perform q
  | .send r => return unreachable r
  | .pause time => IO.sleep time.toUInt32
  | .now => return (← Std.Time.Timestamp.now).toMillisecondsSinceUnixEpoch.val
  | .random => return (← IO.getRandomBytes 16).toList

end Machine

end BucketTransfer

open BucketTransfer in
def main (arguments : List String) : IO UInt32 := do
  let names :=
    Settings.variableNames ++ [CommandLine.Arguments.secretsVariable, CommandLine.logVariable]
  let values ← names.filterMapM fun name => do return (← IO.getEnv name).map (name, ·)
  let session := CommandLine.run CommandLine.pageLimit (values.lookup ·) arguments
  match ← session.run Machine.perform with
  | none => return 1
  | some outcome =>
    IO.print outcome.output
    IO.eprint outcome.report
    return outcome.code.toUInt32
