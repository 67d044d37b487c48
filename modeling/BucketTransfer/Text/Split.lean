/-!
# Splitting at a separator
-/
namespace BucketTransfer.Text
variable {α : Type} [DecidableEq α]

/-- The pieces between separators; there is one piece more than there are separators. -/
def split (separator : α) : List α → List (List α)
  | [] => [[]]
  | c :: cs =>
    if c = separator then [] :: split separator cs
    else
      match split separator cs with
      | [] => [[c]]
      | piece :: rest => (c :: piece) :: rest

end BucketTransfer.Text
