/-!
# JSON values

Integers from `-2^63` to `2^64 - 1` are kept exactly; every other number is a double, by its bits.
The members of an object read from a text are in key order.
-/
namespace BucketTransfer

namespace Json

inductive Number where
  | integer (value : Int)
  | double (bits : UInt64)
  deriving DecidableEq, Repr

end Json

inductive Json where
  | null
  | bool (value : Bool)
  | number (value : Json.Number)
  | string (value : String)
  | array (items : List Json)
  | object (members : List (String × Json))
  deriving Repr

namespace Json

instance : Inhabited Json := ⟨.null⟩

def nat (n : Nat) : Json := .number (.integer n)

def int (n : Int) : Json := .number (.integer n)

def ofOption (value : Option String) : Json :=
  match value with
  | none => .null
  | some s => .string s

/-- A string, a number or a truth value. -/
def isScalar : Json → Bool
  | .bool _ | .number _ | .string _ => true
  | _ => false

end Json

end BucketTransfer
