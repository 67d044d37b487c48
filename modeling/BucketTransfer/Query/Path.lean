import BucketTransfer.Query.Error

/-!
# Property paths

Segments separated by dots. Between single quotes a dot belongs to its segment; the quotes belong
to none.
-/
namespace BucketTransfer.Query.Path

/-- The first segment of a path and those after it; `quoted` says that a quote is open before the
first character. There is no answer if one is open at the end. -/
def segmentsFrom (quoted : Bool) : List Char → Option (List Char × List (List Char))
  | [] => if quoted then none else some ([], [])
  | c :: cs =>
    if c = '\'' then segmentsFrom (!quoted) cs
    else if c = '.' ∧ quoted = false then
      (segmentsFrom false cs).map fun (first, rest) => ([], first :: rest)
    else (segmentsFrom quoted cs).map fun (first, rest) => (c :: first, rest)

/-- The segments of a path; none at all if one of them is empty. -/
def split (operand : String) : Except Error (List String) :=
  match segmentsFrom false operand.toList with
  | none => .error (.unterminatedQuote operand)
  | some (first, rest) =>
    let segments := first :: rest
    .ok (if segments.any List.isEmpty then [] else segments.map String.ofList)

/-- An operand without the quotes around the whole of it. -/
def unquote (operand : String) : String :=
  match operand.toList with
  | '\'' :: cs =>
    match cs.reverse with
    | '\'' :: inner => String.ofList inner.reverse
    | _ => operand
  | _ => operand

end BucketTransfer.Query.Path
