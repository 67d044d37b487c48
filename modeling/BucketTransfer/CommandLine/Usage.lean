/-!
# Why arguments are not carried out
-/
namespace BucketTransfer.CommandLine

/-- What arguments lead to in place of a command. -/
inductive Usage where
  /-- Help was asked for, in general or on a subcommand. -/
  | displayHelp (topic : Option String)
  | displayVersion
  | displayHelpOnMissingArgumentOrSubcommand
  | missingSubcommand
  | invalidSubcommand (argument : String)
  | unknownArgument (argument : String)
  | invalidValue (name value : String)
  | tooManyValues (name value : String)
  | missingRequiredArgument (names : List String)
  | argumentConflict (name : String)
  deriving DecidableEq, Repr

namespace Usage

/-- What is wrong with the arguments; nothing is where a help text says it all. -/
def message : Usage → String
  | displayHelp _ => ""
  | displayVersion => ""
  | displayHelpOnMissingArgumentOrSubcommand => ""
  | missingSubcommand => "a subcommand is required but one was not provided"
  | invalidSubcommand argument => s!"unrecognized subcommand '{argument}'"
  | unknownArgument argument => s!"unexpected argument '{argument}' found"
  | invalidValue name value =>
    if value.isEmpty then s!"a value is required for '{name}' but none was supplied"
    else s!"invalid value '{value}' for '{name}'"
  | tooManyValues name value =>
    s!"unexpected value '{value}' for '{name}' found; no more were expected"
  | missingRequiredArgument names =>
    "the following required arguments were not provided: " ++ ", ".intercalate names
  | argumentConflict name => s!"the argument '{name}' cannot be used multiple times"

end Usage

end BucketTransfer.CommandLine
