import BucketTransfer.Json.Value
import BucketTransfer.KeyMap

/-!
# Members in key order
-/
namespace BucketTransfer.Json

mutual

/-- The value with the members of every object in key order. -/
def sorted : Json → Json
  | .array items => .array (sortedItems items)
  | .object members => .object (KeyMap.ofList (sortedMembers members)).entries
  | .null => .null
  | .bool b => .bool b
  | .number n => .number n
  | .string s => .string s

def sortedItems : List Json → List Json
  | [] => []
  | item :: rest => item.sorted :: sortedItems rest

def sortedMembers : List (String × Json) → List (String × Json)
  | [] => []
  | (name, value) :: rest => (name, value.sorted) :: sortedMembers rest

end

end BucketTransfer.Json
