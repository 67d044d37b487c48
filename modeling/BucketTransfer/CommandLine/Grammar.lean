import BucketTransfer.CommandLine.Usage

/-!
# The grammar of arguments

Options stand anywhere, before `--`, with their value behind an equals sign or as the next argument;
what is no option fills the positions in order. The values of an argument are only looked at when
the next one begins, so an argument that is not known comes before a wrong value in front of it.
-/
namespace BucketTransfer.CommandLine

/-- What values an argument may have. -/
inductive Form where
  | text
  /-- A path, which may not be empty. -/
  | path
  | choice (values : List String)
  deriving DecidableEq, Repr

def Form.admits : Form → String → Bool
  | text, _ => true
  | path, v => !v.isEmpty
  | choice values, v => values.contains v

/-- A named place for values. -/
structure Slot where
  name : String
  form : Form := .text
  /-- Whether it takes more than one value. -/
  isRepeated : Bool := false
  deriving DecidableEq, Repr

/-- What an option is for. -/
inductive Effect where
  | takes (form : Form)
  | switch
  | help
  | version
  deriving DecidableEq, Repr

structure Named where
  name : String
  short : Option Char := none
  effect : Effect
  about : String
  deriving DecidableEq, Repr

structure Positional extends Slot where
  isRequired : Bool := true
  about : String
  deriving DecidableEq, Repr

/-- What arguments a command has. -/
structure Grammar where
  options : List Named
  positionals : List Positional := []
  subcommands : List String := []
  deriving DecidableEq, Repr

/-- How far arguments were read. -/
structure Scan where
  /-- The values that were given, by the name of the argument. -/
  given : List (String × List String) := []
  /-- The argument that was begun last, with its values so far. -/
  begun : Option (Slot × List String) := none
  /-- How many positions are filled. -/
  filled : Nat := 0
  /-- Whether `--` has been read. -/
  onlyPositions : Bool := false
  deriving DecidableEq, Repr

namespace Scan
variable (s : Scan)

def values (name : String) : List String := ((s.given.lookup name).getD [])

/-- The value of an argument that takes one. -/
def value? (name : String) : Option String := (s.values name).head?

def has (name : String) : Bool := (s.given.lookup name).isSome

/-- Takes the values of an argument. -/
def take (slot : Slot) (values : List String) : Except Usage Scan :=
  if s.has slot.name && !slot.isRepeated then .error (.argumentConflict slot.name)
  else match values.find? fun v => !slot.form.admits v with
    | some wrong => .error (.invalidValue slot.name wrong)
    | none =>
      .ok { s with given := (slot.name, s.values slot.name ++ values) :: s.given, begun := none }

/-- Takes the argument that was begun. -/
def settle : Except Usage Scan :=
  match s.begun with
  | none => .ok s
  | some (slot, []) => .error (.invalidValue slot.name "")
  | some (slot, values) => s.take slot values

/-- Whether the next argument is the value of an option. -/
def isAwaiting : Bool :=
  match s.begun with
  | some (_, []) => true
  | _ => false

/-- An option, perhaps with a value attached to it. -/
def meet (o : Named) (attached : Option String) : Except Usage Scan :=
  match o.effect, attached with
  | .takes form, some value => do (← s.settle).take ⟨o.name, form, false⟩ [value]
  | .takes form, none => do return { ← s.settle with begun := some (⟨o.name, form, false⟩, []) }
  | _, some value => .error (.tooManyValues o.name value)
  | .switch, none => do (← s.settle).take ⟨o.name, .text, false⟩ []
  | .help, none => do
    let _ ← s.settle
    .error (.displayHelp none)
  | .version, none => do
    let _ ← s.settle
    .error .displayVersion

/-- Options by their letters; what follows one that takes a value is that value. -/
def meetLetters (g : Grammar) (argument : String) : Scan → List Char → Except Usage Scan
  | s, [] => .ok s
  | s, c :: rest =>
    match g.options.find? fun o => o.short == some c with
    | none => .error (.unknownArgument argument)
    | some o =>
      match o.effect with
      | .takes _ =>
        s.meet o (match rest with
          | [] => none
          | '=' :: value => some (String.ofList value)
          | value => some (String.ofList value))
      | _ => do meetLetters g argument (← s.meet o none) rest

/-- Why an argument has no position. -/
def stray (g : Grammar) (argument : String) : Usage :=
  if g.subcommands.isEmpty || (s.onlyPositions && g.subcommands.contains argument) then
    .unknownArgument argument
  else .invalidSubcommand argument

/-- Puts an argument at the next position. -/
def place (g : Grammar) (argument : String) : Except Usage Scan :=
  match g.positionals[s.filled]? with
  | none => .error (s.stray g argument)
  | some p =>
    match s.begun with
    | some (slot, values) =>
      if p.isRepeated && slot == p.toSlot then
        .ok { s with begun := some (slot, values ++ [argument]) }
      else do
        let filled := if p.isRepeated then s.filled else s.filled + 1
        return { ← s.settle with begun := some (p.toSlot, [argument]), filled }
    | none =>
      let filled := if p.isRepeated then s.filled else s.filled + 1
      .ok { s with begun := some (p.toSlot, [argument]), filled }

/-- The name of an option and the value attached to it. -/
def longForm? (argument : String) : Option (String × Option String) :=
  match argument.toList with
  | '-' :: '-' :: rest =>
    let name := rest.takeWhile (· != '=')
    some (String.ofList name, match rest.drop name.length with
      | '=' :: value => some (String.ofList value)
      | _ => none)
  | _ => none

/-- The letters of options. -/
def letters? (argument : String) : Option (List Char) :=
  match argument.toList with
  | ['-'] => none
  | '-' :: rest => some rest
  | _ => none

/-- Reads one argument that is no subcommand. -/
def read (g : Grammar) (argument : String) : Except Usage Scan :=
  if s.onlyPositions then s.place g argument
  else if argument == "--" then .ok { s with onlyPositions := true }
  else match longForm? argument, letters? argument, s.begun with
    | some (name, attached), _, _ =>
      match g.options.find? fun o => o.name == name with
      | none => .error (.unknownArgument argument)
      | some o => s.meet o attached
    | none, some letters, _ => meetLetters g argument s letters
    | none, none, some (slot, []) => .ok { s with begun := some (slot, [argument]) }
    | none, none, _ => s.place g argument

end Scan

/-- Reads arguments up to a subcommand, which comes with what follows it. -/
def Grammar.scan (g : Grammar) (s : Scan) :
    List String → Except Usage (Scan × Option (String × List String))
  | [] => .ok (s, none)
  | argument :: rest =>
    if !s.onlyPositions && !s.isAwaiting && g.subcommands.contains argument then
      .ok (s, some (argument, rest))
    else do g.scan (← s.read g argument) rest

/-- The required arguments that were not given. -/
def Grammar.missing (g : Grammar) (s : Scan) : List String :=
  (g.positionals.filter fun p => p.isRequired && !s.has p.name).map (·.name)

end BucketTransfer.CommandLine
