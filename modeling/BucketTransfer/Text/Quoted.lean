import BucketTransfer.Text.Visible

/-!
# Shown values

How messages show a text, so that a reader sees every character of it, and how they show a record
with named fields.
-/
namespace BucketTransfer.Text

/-- A code point in lower-case hexadecimal, without leading zeros. -/
def hexadecimal (n : Nat) : String := String.ofList (Nat.toDigits 16 n)

/-- How a character stands between double quotes. -/
def quotedChar (c : Char) : String :=
  if c.toNat = 0 then "\\0"
  else if c = '\t' then "\\t"
  else if c = '\r' then "\\r"
  else if c = '\n' then "\\n"
  else if c = '\\' then "\\\\"
  else if c = '"' then "\\\""
  else if isExtender c || !isVisible c then "\\u\x7b" ++ hexadecimal c.toNat ++ "\x7d"
  else String.singleton c

/-- A text between double quotes, with what cannot be seen escaped. -/
def quoted (s : String) : String := "\"" ++ String.join (s.toList.map quotedChar) ++ "\""

/-- A record by name and fields; `hidesMore` says that it has fields that are not shown. -/
def record (name : String) (fields : List (String × String)) (hidesMore : Bool := false) :
    String :=
  let shown := fields.map fun f => f.1 ++ ": " ++ f.2
  name ++ " \x7b " ++ ", ".intercalate (if hidesMore then shown ++ [".."] else shown) ++ " \x7d"

/-- An optional value. -/
def optional (value : Option String) : String :=
  match value with
  | none => "None"
  | some v => "Some(" ++ v ++ ")"

/-- A secret, of which only the presence is shown. -/
def redacted : String := quoted "<redacted>"

def truth (b : Bool) : String := if b then "true" else "false"

end BucketTransfer.Text
