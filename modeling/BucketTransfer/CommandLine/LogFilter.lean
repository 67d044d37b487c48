import BucketTransfer.Text.Blank
import BucketTransfer.Text.Number
import BucketTransfer.Text.Split

/-!
# Log filters

A log filter is a list of directives between commas. A directive is a level, or a target, a span
with fields, or both, and then perhaps an equals sign and a level.
-/
namespace BucketTransfer.CommandLine.LogFilter

def levelNames : List String := ["error", "warn", "info", "debug", "trace", "off"]

/-- Whether a text is a level: a name of one, of either case, or a number up to five. -/
def isLevel (level : List Char) : Bool :=
  match Text.readUnsigned 10 Text.maxU64 level with
  | .ok n => decide (n ≤ 5)
  | .error _ => levelNames.contains (String.ofList (level.map Char.toLower))

/-- Where the reading of a directive stands. -/
inductive Mode where
  | start
  | word
  | span
  | field (isEmpty : Bool)
  /-- Behind the last field of a span. -/
  | fields
  /-- Behind a span. -/
  | target
  /-- The level begins after so many characters. -/
  | level (start : Nat)
  deriving DecidableEq, Repr

/-- Whether a directive may begin with a character; beyond ASCII each one is taken for a letter. -/
def beginsWord (c : Char) : Bool :=
  c.isAlphanum || c == '-' || c == ':' || c == '_' || decide (127 < c.toNat)

/-- Reads one character, the one after `read` others. -/
def step (read : Nat) : Mode → Char → Option Mode
  | .start, c => if c = '[' then some .span else if beginsWord c then some .word else none
  | .word, c => some (if c = '=' then .level (read + 1) else if c = '[' then .span else .word)
  | .span, c => some (if c = ']' then .target else if c = '{' then .field true else .span)
  | .field isEmpty, c =>
    if c = '}' then if isEmpty then none else some .fields else some (.field false)
  | .fields, c => if c = ']' then some .target else none
  | .target, c => if c = '=' then some (.level (read + 1)) else none
  | .level start, _ => some (.level start)

def scan (read : Nat) (mode : Mode) : List Char → Option Mode
  | [] => some mode
  | c :: rest =>
    match step read mode c with
    | none => none
    | some mode => scan (read + 1) mode rest

/-- Whether a text is a directive. Blanks around it are skipped, but where the level begins is
counted without those in front and cut off with them. -/
def isDirective (directive : List Char) : Bool :=
  match scan 0 .start (Text.trimWhere Text.isBlank directive) with
  | some .word | some .target => true
  | some (.level start) =>
    let level := directive.drop start
    level.isEmpty || isLevel level
  | _ => false

/-- Whether a text is a log filter; empty directives are skipped. -/
def accepts (filter : String) : Bool :=
  ((Text.split ',' filter.toList).filter fun d => !d.isEmpty).all isDirective

end BucketTransfer.CommandLine.LogFilter
