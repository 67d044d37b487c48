import BucketTransfer.Utf8

/-!
# Header fields

Fields in order, each with one value or more. Names are of one case. When a field is removed, the
last one takes its place.
-/
namespace BucketTransfer.Signing

structure Headers where
  fields : List (String × List Bytes) := []
  deriving DecidableEq, Repr

/-- A character that a field's name may have. -/
def isNameChar (c : Char) : Bool := c.isAlphanum || "!#$%&'*+-.^_`|~".toList.contains c

/-- A field's name in small letters, if it is one. -/
def fieldName? (name : String) : Option String :=
  let cs := name.toList
  if cs.isEmpty || 65535 < cs.length || !cs.all isNameChar then none
  else some (name.map Char.toLower)

/-- A byte that a field's value may have. -/
def isValueByte (b : UInt8) : Bool := b == 0x09 || (decide (0x20 ≤ b) && b != 0x7f)

/-- A byte of a value that is text. -/
def isTextByte (b : UInt8) : Bool := b == 0x09 || (decide (0x20 ≤ b) && decide (b < 0x7f))

namespace Headers

/-- The values of a field, none if it is not there. -/
def values (h : Headers) (name : String) : List Bytes :=
  match h.fields.find? fun f => f.1 == name with
  | some f => f.2
  | none => []

def contains (h : Headers) (name : String) : Bool := h.fields.any fun f => f.1 == name

/-- Changes the values of a field, which comes last if it is new. -/
def update (h : Headers) (name : String) (change : List Bytes → List Bytes) : Headers :=
  if h.contains name then
    ⟨h.fields.map fun f => if f.1 == name then (f.1, change f.2) else f⟩
  else ⟨h.fields ++ [(name, change [])]⟩

/-- Adds a value to a field. -/
def append (h : Headers) (name : String) (value : Bytes) : Headers :=
  h.update name fun vs => vs ++ [value]

/-- Makes a value the only one of a field. -/
def insert (h : Headers) (name : String) (value : Bytes) : Headers := h.update name fun _ => [value]

/-- Takes a field out; the last field, if it is another one, takes its place. -/
def remove (h : Headers) (name : String) : Headers :=
  match h.fields.span fun f => f.1 != name with
  | (_, []) => h
  | (before, _ :: after) =>
    match after.getLast? with
    | none => ⟨before⟩
    | some last => ⟨before ++ last :: after.dropLast⟩

/-- Every value with its field's name. -/
def pairs (h : Headers) : List (String × Bytes) :=
  h.fields.flatMap fun f => f.2.map fun v => (f.1, v)

/-- Why names and values make no fields. -/
inductive Fault where
  | badHeaderName
  | badHeaderValue
  deriving DecidableEq, Repr

/-- The fields that names and values make, in order; names are of either case. -/
def ofPairs (pairs : List (String × Bytes)) : Except Fault Headers :=
  pairs.foldlM (fun h (name, value) =>
    match fieldName? name with
    | none => .error .badHeaderName
    | some name =>
      if value.all isValueByte then .ok (h.append name value) else .error .badHeaderValue) {}

end Headers

end BucketTransfer.Signing
