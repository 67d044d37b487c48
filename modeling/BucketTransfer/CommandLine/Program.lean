import BucketTransfer.CommandLine.Error
import BucketTransfer.CommandLine.Help
import BucketTransfer.CommandLine.LogFilter
import BucketTransfer.Query.Translate
import BucketTransfer.Services.Connected
import BucketTransfer.Services.InMemory

/-!
# The program

What the program does with its arguments and its environment, as a dialogue with the machine that
ends with what is printed and the exit code.
-/
namespace BucketTransfer.CommandLine

/-- How a run of the program ends. -/
structure Outcome where
  code : Nat := 0
  /-- What is printed. -/
  output : String := ""
  /-- What is printed on errors. -/
  report : String := ""
  deriving DecidableEq, Repr

def line (text : String) : String := text ++ "\n"

def jsonLines (j : Json) : String := line j.pretty

/-- Arguments that make no command; those that are wrong end with code 2. -/
def Outcome.ofUsage (u : Usage) : Outcome :=
  match u with
  | .displayHelp topic => { output := line (helpText topic) }
  | .displayVersion => { output := line versionText }
  | .displayHelpOnMissingArgumentOrSubcommand => { code := 2, report := line (helpText none) }
  | wrong =>
    { code := 2
      report := line s!"error: {wrong.message}\n\nFor more information, try '--help'." }

def Outcome.ofExcept : Except Error String → Outcome
  | .ok output => { output }
  | .error e => { code := 1, report := line e.report }

/-- The statement of a query in JSON, and below it the parameters. -/
def statementLines (store : Query.Store) (query : String) : Except Error String := do
  let q ← (Query.Spec.reader.complete (utf8 query)).mapError .queryText
  let s ← (store.statement q).mapError .query
  return line s.sql ++ jsonLines (.array s.parameters)

/-- The content of a file. -/
def readFile (path : String) : Dialogue World (Except Error Bytes) := do
  match ← World.files (Files.read path) with
  | .error fault => return .error (.readFile path fault.message)
  | .ok stream => return stream.content.mapError (.readFile path)

/-- Carries out a command; the value is what it prints. -/
def Command.perform (settings : Settings) (pages : Nat) : Command → Task Error String
  | .provision bucket endpoint keyPrefix transferProcessId output => do
    let p ← (Connector.provision settings bucket endpoint keyPrefix transferProcessId).describing
      .connector
    match output with
    | none => return jsonLines p.toJson
    | some path =>
      Task.attempt (.writeFile path) (World.files (Files.write path (utf8 p.toJson.pretty)))
      return ""
  | .deprovision path => do
    let content ← Task.attempt id (readFile path)
    match Bucket.Provisioned.reader.complete content with
    | .error fault => throw (.resourceFile path fault)
    | .ok resource =>
      let removed ← (Connector.deprovision settings pages resource).describing .connector
      return jsonLines removed.toJson
  | .upload target files => do
    let summary ← (Connector.upload settings target files).describing .connector
    return String.join (summary.objects.map fun o => line s!"{o.key}\t{o.parts}\t{o.size}")
  | .list target => do
    let listed ← (Connector.list settings pages target).describing .connector
    return String.join (listed.map fun (name, size) => line s!"{name}\t{size}")
  | .download target objectName output => do
    let paths ←
      (Connector.download settings pages target objectName output).describing .connector
    return String.join (paths.map line)
  | .sql store query => ExceptT.mk (pure (statementLines store query))

/-- Carries out a task with no clients at first, and closes those that it leaves. -/
def closing {ε α : Type} (t : Task ε α) : Dialogue World (Except ε α) := do
  let (outcome, clients) ← t.run ∅
  let _ ← Clients.shutDown clients
  return outcome

/-- Carries out a dialogue with the world on services that start in a given state. -/
def serve {σ α : Type} [Served σ] (services : σ) (d : Dialogue World α) : Dialogue Machine α := do
  match ← (d.run Served.answer).run services with
  | (some a, _) => return a
  | (none, _) => .unfinished

/-- The services that the settings name. -/
def connectServices (settings : Settings) (secretsFile : String) :
    Dialogue Machine (Except Error Services.Connected) := do
  match Identity.Remote.connect settings.iamEndpoint settings.credentials with
  | .error e => return .error (.identityService e)
  | .ok identity =>
    match ← Machine.files (Secrets.File.load secretsFile) with
    | .error e => return .error (.secretsFile secretsFile e)
    | .ok secrets =>
      return .ok { region := settings.region, credentials := settings.credentials
                   identity, secrets }

/-- Carries out a command on the services that the arguments ask for. -/
def Arguments.perform (a : Arguments) (settings : Settings) (pages : Nat) :
    Dialogue Machine (Except Error String) := do
  let d := closing (a.command.perform settings pages)
  if a.memory then
    serve (Services.InMemory.ofStore {} (← Machine.now)) d
  else
    match ← connectServices settings a.secretsFile with
    | .error e => return .error e
    | .ok services => serve services d

/-- What keeps a command from being carried out: a log filter that cannot be read, unless another
one overrides it. -/
def checkLogFilter (settings : Settings) (override? : Option String) : Except Error Unit :=
  if override?.isNone && !LogFilter.accepts settings.logLevel then
    .error (.logFilter settings.logLevel)
  else .ok ()

/-- More pages than a listing is followed for. -/
def pageLimit : Nat := 1000000

/-- The variable that overrides the log filter of the settings. -/
def logVariable : String := "RUST_LOG"

/-- Runs the program with the arguments behind its name. A query is translated without any service.
-/
def run (pages : Nat) (environment : String → Option String) (arguments : List String) :
    Dialogue Machine Outcome :=
  match Arguments.read arguments (environment Arguments.secretsVariable) with
  | .error u => pure (.ofUsage u)
  | .ok a =>
    let settings := Settings.ofEnvironment environment
    match checkLogFilter settings (environment logVariable), a.command with
    | .error e, _ => pure (.ofExcept (.error e))
    | .ok (), .sql store query => pure (.ofExcept (statementLines store query))
    | .ok (), _ => do return .ofExcept (← a.perform settings pages)

end BucketTransfer.CommandLine
