import BucketTransfer.CommandLine.Grammar
import BucketTransfer.Connector
import BucketTransfer.Query.Store

/-!
# The arguments of the program

The subcommands with their arguments, and two options that may stand before a subcommand or among
its arguments; where they stand twice, those of the subcommand count.
-/
namespace BucketTransfer.CommandLine
open Connector (Target)

inductive Command where
  | provision (bucket : String) (endpoint keyPrefix : Option String) (transferProcessId : String)
      (output : Option String)
  | deprovision (resource : String)
  | upload (target : Target) (files : List String)
  | list (target : Target)
  | download (target : Target) (objectName : Option String) (output : String)
  | sql (store : Query.Store) (query : String)
  deriving DecidableEq, Repr

structure Arguments where
  /-- The file with the credentials that were issued. -/
  secretsFile : String
  /-- Whether the services are in memory. -/
  memory : Bool
  command : Command
  deriving DecidableEq, Repr

inductive Subcommand where
  | provision
  | deprovision
  | upload
  | list
  | download
  | sql
  deriving DecidableEq, Repr

namespace Subcommand

def all : List Subcommand := [provision, deprovision, upload, list, download, sql]

def name : Subcommand → String
  | provision => "provision"
  | deprovision => "deprovision"
  | upload => "upload"
  | list => "list"
  | download => "download"
  | sql => "sql"

def about : Subcommand → String
  | provision => "Create a bucket and issue a temporary PutObject credential for it"
  | deprovision => "Empty and delete a bucket created by \x60provision\x60"
  | upload => "Upload local files with multipart uploads"
  | list => "List objects under a prefix"
  | download => "Download objects under a prefix into a directory"
  | sql => "Print the GaussDB statement for a store query"

def ofName? (name : String) : Option Subcommand := all.find? fun c => c.name == name

end Subcommand

namespace Arguments

def secretsFileName : String := "secrets-file"
def memoryName : String := "memory"

/-- The variable with the file of secrets, where no option names one. -/
def secretsVariable : String := "EDC_HW_SECRETS_FILE"

def defaultSecretsFile : String := ".edc-hw/secrets.json"

/-- The options of all commands. -/
def sharedOptions : List Named :=
  [⟨secretsFileName, none, .takes .path,
      "JSON file holding issued temporary credentials [env: " ++ secretsVariable ++ "=] [default: "
        ++ defaultSecretsFile ++ "]"⟩,
    ⟨memoryName, none, .switch, "Run against in-process fakes instead of Huawei Cloud"⟩,
    ⟨"help", some 'h', .help, "Print help"⟩]

def topGrammar : Grammar where
  options := sharedOptions ++ [⟨"version", some 'V', .version, "Print version"⟩]
  subcommands := Subcommand.all.map (·.name) ++ ["help"]

def endpointOption : Named :=
  ⟨"endpoint", none, .takes .text, "OBS endpoint; defaults to \x60HUAWEICLOUD_OBS_ENDPOINT\x60"⟩

def targetOptions : List Named :=
  [endpointOption, ⟨"key-prefix", none, .takes .text, "Key prefix [default: ]"⟩,
    ⟨"key-name", none, .takes .text, "Secret holding a temporary credential to sign with"⟩]

def bucketPosition (about : String) : Positional := ⟨⟨"bucket", .text, false⟩, true, about⟩

end Arguments

open Arguments in
/-- The grammar of a subcommand. -/
def Subcommand.grammar (c : Subcommand) : Grammar :=
  let (positionals, options) : List Positional × List Named := match c with
    | provision =>
      ([bucketPosition "Bucket to create"],
        [endpointOption,
          ⟨"key-prefix", none, .takes .text, "Key prefix recorded in the resulting data address"⟩,
          ⟨"transfer-process-id", none, .takes .text,
            "Transfer process the bucket belongs to [default: cli]"⟩,
          ⟨"output", some 'o', .takes .path,
            "Write the provisioned resource here instead of stdout"⟩])
    | deprovision =>
      ([⟨⟨"resource", .path, false⟩, true,
        "Provisioned resource JSON written by \x60provision\x60"⟩], [])
    | upload =>
      ([bucketPosition "Bucket name", ⟨⟨"files", .path, true⟩, true,
        "Files to upload; each becomes one object named after the file"⟩], targetOptions)
    | list => ([bucketPosition "Bucket name"], targetOptions)
    | download =>
      ([bucketPosition "Bucket name"],
        targetOptions ++ [⟨"object-name", none, .takes .text, "Single object to fetch"⟩,
          ⟨"output", some 'o', .takes .path, "Destination directory [default: .]"⟩])
    | sql =>
      let names := Query.Store.all.map (·.name)
      ([⟨⟨"store", .choice names, false⟩, true,
          "Store to query [possible values: " ++ ", ".intercalate names ++ "]"⟩,
        ⟨⟨"query", .text, false⟩, false,
          "Query as JSON: \x60\x7b\"filter\":[...],\"sortField\":..,\"limit\":..\x7d\x60 "
            ++ "[default: \x7b\x7d]"⟩], [])
  ⟨options ++ sharedOptions, positionals, []⟩

/-- The target among the arguments of a subcommand. -/
def Scan.target (s : Scan) : Target where
  bucket := (s.value? "bucket").getD ""
  endpoint := s.value? "endpoint"
  keyPrefix := (s.value? "key-prefix").getD ""
  keyName := s.value? "key-name"

/-- The command that arguments of a subcommand make, once none is missing. -/
def Subcommand.command (c : Subcommand) (s : Scan) : Command :=
  match c with
  | provision =>
    .provision ((s.value? "bucket").getD "") (s.value? "endpoint") (s.value? "key-prefix")
      ((s.value? "transfer-process-id").getD "cli") (s.value? "output")
  | deprovision => .deprovision ((s.value? "resource").getD "")
  | upload => .upload s.target (s.values "files")
  | list => .list s.target
  | download => .download s.target (s.value? "object-name") ((s.value? "output").getD ".")
  | sql =>
    .sql (((s.value? "store").bind Query.Store.ofName?).getD .assets)
      ((s.value? "query").getD "\x7b\x7d")

namespace Arguments

/-- The variable counts where the option is not given; it may not be empty. -/
def checkVariable (s : Scan) (secretsPath? : Option String) : Except Usage Unit :=
  if !s.has secretsFileName && secretsPath? == some "" then
    .error (.invalidValue secretsFileName "")
  else .ok ()

/-- What help on a subcommand comes to. -/
def helpOn : List String → Usage
  | [] => .displayHelp none
  | ["help"] => .displayHelp none
  | [name] =>
    if (Subcommand.ofName? name).isSome then .displayHelp (some name) else .invalidSubcommand name
  | name :: next :: _ =>
    if topGrammar.subcommands.contains name then .invalidSubcommand next
    else .invalidSubcommand name

/-- Reads the arguments of a subcommand. -/
def readSubcommand (c : Subcommand) (arguments : List String) (secretsPath? : Option String) :
    Except Usage Scan := do
  let (s, _) ← (c.grammar.scan {} arguments).mapError fun
    | .displayHelp _ => .displayHelp (some c.name)
    | other => other
  let s ← s.settle
  checkVariable s secretsPath?
  match c.grammar.missing s with
  | [] => return s
  | names => throw (.missingRequiredArgument names)

/-- Reads the arguments behind the name of the program; `secretsPath?` is the value of the variable.
-/
def read (arguments : List String) (secretsPath? : Option String) : Except Usage Arguments := do
  match ← topGrammar.scan {} arguments with
  | (s, none) =>
    let s ← s.settle
    checkVariable s secretsPath?
    throw (if s.given.isEmpty && secretsPath?.isNone then .displayHelpOnMissingArgumentOrSubcommand
      else .missingSubcommand)
  | (s, some (name, rest)) =>
    match Subcommand.ofName? name with
    | none => throw (helpOn rest)
    | some c =>
      let inner ← readSubcommand c rest secretsPath?
      let outer ← s.settle
      checkVariable outer secretsPath?
      return {
        secretsFile := (inner.value? secretsFileName <|> outer.value? secretsFileName
          <|> secretsPath?).getD defaultSecretsFile
        memory := inner.has memoryName || outer.has memoryName
        command := c.command inner }

end Arguments

end BucketTransfer.CommandLine
