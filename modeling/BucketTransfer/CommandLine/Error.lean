import BucketTransfer.Connector.Error
import BucketTransfer.Query.Error

/-!
# Errors of the program
-/
namespace BucketTransfer.CommandLine

inductive Error where
  | logFilter (filter : String)
  | queryText (fault : Json.Fault)
  | query (cause : Query.Error)
  | identityService (cause : Identity.Error)
  | secretsFile (path : String) (cause : Secrets.Error)
  | readFile (path cause : String)
  | writeFile (path : String) (fault : Files.Fault)
  /-- A file that holds no resource that was provided. -/
  | resourceFile (path : String) (fault : Json.Fault)
  | connector (cause : Connector.Error)
  deriving DecidableEq, Repr

namespace Error

/-- The messages from what was to be done down to the first cause. -/
def chain : Error → List String
  | logFilter filter => [s!"invalid log level filter: {filter}"]
  | queryText fault => ["query is not valid JSON", fault.category]
  | query cause => [cause.message]
  | identityService cause => ["failed to create IAM client", cause.message]
  | secretsFile path cause => s!"failed to open {path}" :: cause.chain
  | readFile path cause => [s!"failed to read {path}", cause]
  | writeFile path fault => [s!"failed to write {path}", fault.message]
  | resourceFile path fault => [s!"{path} is not a provisioned resource", fault.category]
  | connector cause => cause.chain

/-- A cause below the first message, with its number if there are several. -/
def causeText (number : Option Nat) (message : String) : String :=
  let (first, margin) := match number with
    | some n =>
      let digits := toString n
      (String.ofList (List.replicate (5 - digits.length) ' ') ++ digits ++ ": ", "       ")
    | none => ("    ", "    ")
  first ++ ("\n" ++ margin).intercalate (message.splitOn "\n")

/-- The report on an error: what was to be done, and below it the causes. -/
def report (e : Error) : String :=
  match e.chain with
  | [] => "Error: "
  | [message] => "Error: " ++ message
  | [message, cause] => "Error: " ++ message ++ "\n\nCaused by:\n" ++ causeText none cause
  | message :: causes =>
    "Error: " ++ message ++ "\n\nCaused by:\n"
      ++ "\n".intercalate (causes.mapIdx fun n cause => causeText (some n) cause)

end Error

end BucketTransfer.CommandLine
