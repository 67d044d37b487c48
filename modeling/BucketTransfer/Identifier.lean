import BucketTransfer.Text.Hex
import BucketTransfer.Text.Split

/-!
# Random identifiers

Sixteen random bytes, of which six bits are fixed: the version, four, and the variant. They are
written with hyphens or without.
-/
namespace BucketTransfer.Identifier

/-- Random bytes with version and variant put in. -/
def stamp (random : Bytes) : Bytes :=
  random.zipIdx.map fun (b, i) =>
    if i = 6 then b % 16 + 0x40 else if i = 8 then b % 64 + 0x80 else b

/-- The identifier in 32 digits. -/
def simple (random : Bytes) : String := Text.hex (stamp random)

/-- The identifier in groups of digits with hyphens between them. -/
def hyphenated (random : Bytes) : String :=
  let digits := (simple random).toList
  let group (start length : Nat) : String := String.ofList ((digits.drop start).take length)
  "-".intercalate [group 0 8, group 8 4, group 12 4, group 16 4, group 20 12]

/-- The key of a secret made for a resource. -/
def secretKey (resource : String) (random : Bytes) : String :=
  "resourceDefinition-" ++ resource ++ "-secret-" ++ simple random

/-- A digit as identifiers have them. -/
def isDigit (c : Char) : Bool := c.isDigit || decide ('a' ≤ c ∧ c ≤ 'f')

/-- Whether characters are those of an identifier in 32 digits. -/
def isSimple (cs : List Char) : Bool := cs.length == 32 && cs.all isDigit

/-- Whether characters are those of an identifier with hyphens. -/
def isHyphenated (cs : List Char) : Bool :=
  (Text.split '-' cs).map List.length == [8, 4, 4, 4, 12] && (Text.split '-' cs).all (·.all isDigit)

end BucketTransfer.Identifier
