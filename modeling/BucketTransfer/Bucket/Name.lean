import BucketTransfer.Text.Number

/-!
# Bucket names

Names that can stand in a host name: short runs of small letters, digits and hyphens with dots
between them, and no address of four numbers.
-/
namespace BucketTransfer.Bucket

/-- What is wrong with a bucket name. -/
inductive NameFault where
  | length
  | character
  | edge
  | adjacent
  | ipAddress
  deriving DecidableEq, Repr

def NameFault.message : NameFault → String
  | .length => "Bucket name must be between 3 and 63 characters long"
  | .character => "Bucket name must only contain lowercase letters, numbers, hyphens, and dots"
  | .edge => "Bucket name must start and end with a letter or number"
  | .adjacent => "Bucket name must not contain adjacent periods or a period next to a hyphen"
  | .ipAddress => "Bucket name must not be formatted as an IP address"

/-- A bucket name that is refused, and why. -/
structure NameError where
  name : String
  fault : NameFault
  deriving DecidableEq, Repr

def NameError.message (e : NameError) : String :=
  s!"invalid bucket name '{e.name}': {e.fault.message}"

def isLetterOrDigit (c : Char) : Bool :=
  decide ('a' ≤ c ∧ c ≤ 'z') || decide ('0' ≤ c ∧ c ≤ '9')

/-- Two periods, or a period and a hyphen, next to each other. -/
def hasAdjacent : List Char → Bool
  | a :: b :: cs =>
    (a == '.' && (b == '.' || b == '-')) || (a == '-' && b == '.') || hasAdjacent (b :: cs)
  | _ => false

/-- A number up to 255 without leading zeros. -/
def isOctet (cs : List Char) : Bool :=
  match cs with
  | [] => false
  | ['0'] => true
  | c :: _ =>
    c != '0' && cs.all Char.isDigit && decide (cs.length ≤ 3)
      && (Text.readUnsigned 10 255 cs).isOk

/-- Four numbers with dots between them. -/
def isIpAddress (cs : List Char) : Bool :=
  let parts := cs.splitOn '.'
  parts.length == 4 && parts.all isOctet

/-- What is wrong with a name, if anything is. -/
def nameFault? (name : String) : Option NameFault :=
  let cs := name.toList
  let length := name.utf8ByteSize
  if length < 3 || 63 < length then some .length
  else if !cs.all fun c => isLetterOrDigit c || c == '-' || c == '.' then some .character
  else if !((cs.head?.any isLetterOrDigit) && (cs.getLast?.any isLetterOrDigit)) then some .edge
  else if hasAdjacent cs then some .adjacent
  else if isIpAddress cs then some .ipAddress
  else none

def checkName (name : String) : Except NameError Unit :=
  match nameFault? name with
  | none => .ok ()
  | some fault => .error ⟨name, fault⟩

end BucketTransfer.Bucket
