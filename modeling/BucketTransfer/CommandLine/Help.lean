import BucketTransfer.CommandLine.Arguments

/-!
# Help texts
-/
namespace BucketTransfer.CommandLine

def programName : String := "edc-hw"

def versionText : String := programName ++ " 0.1.0"

def programAbout : String :=
  "Command-line composition root for the Huawei Cloud dataspace extensions"

/-- The name of a value, in capital letters. -/
def placeholder (name : String) : String := name.map fun c => if c = '-' then '_' else c.toUpper

/-- How an option is written. -/
def Named.usage (o : Named) : String :=
  let letter := o.short.elim "    " fun c => String.ofList ['-', c, ',', ' ']
  let value := match o.effect with
    | .takes _ => " <" ++ placeholder o.name ++ ">"
    | _ => ""
  letter ++ "--" ++ o.name ++ value

/-- How a position is written. -/
def Positional.usage (p : Positional) : String :=
  let name := placeholder p.name
  (if p.isRequired then "<" ++ name ++ ">" else "[" ++ name ++ "]")
    ++ if p.isRepeated then "..." else ""

/-- A heading over two columns; there is none over nothing. -/
def listing (heading : String) (rows : List (String × String)) : List String :=
  let width := (rows.map fun r => r.1.length).foldl max 0
  let row (r : String × String) : String :=
    "  " ++ r.1 ++ String.ofList (List.replicate (width - r.1.length) ' ') ++ "  " ++ r.2
  if rows.isEmpty then [] else ["", heading ++ ":"] ++ rows.map row

def helpLines (about usage : String) (commands : List (String × String)) (g : Grammar) :
    List String :=
  [about, "", "Usage: " ++ usage]
    ++ listing "Commands" commands
    ++ listing "Arguments" (g.positionals.map fun p => (p.usage, p.about))
    ++ listing "Options" (g.options.map fun o => (o.usage, o.about))

/-- The help on a subcommand, or on the program. -/
def helpText (topic : Option String) : String :=
  "\n".intercalate (match topic.bind Subcommand.ofName? with
    | none =>
      helpLines programAbout (programName ++ " [OPTIONS] <COMMAND>")
        (Subcommand.all.map (fun c => (c.name, c.about))
          ++ [("help", "Print this message or the help of the given subcommand(s)")])
        Arguments.topGrammar
    | some c =>
      let words := [programName, c.name, "[OPTIONS]"] ++ c.grammar.positionals.map (·.usage)
      helpLines c.about (" ".intercalate words) [] c.grammar)

end BucketTransfer.CommandLine
