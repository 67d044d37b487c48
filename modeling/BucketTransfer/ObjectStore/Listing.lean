import BucketTransfer.Dialogue
import BucketTransfer.ObjectStore.Types

/-!
# Listings

A listing comes in pages; the page tells where the next one starts. A listing that is sent twice in
a row to the same place does not advance, and one that takes more pages than it may is cut off.
-/
namespace BucketTransfer.ObjectStore
variable {I : Interface} {ε : Type}

/-- Follows a listing from a marker on; `found` holds the pages so far, the last one first. -/
def listFrom (fetch : Option String → Dialogue I (Except ε Page)) (stuck : String → ε)
    (found : List (List Summary)) (marker : Option String) :
    (pages : Nat) → Dialogue I (Except ε (List Summary))
  | 0 => .unfinished
  | pages + 1 => do
    match ← fetch marker with
    | .error e => pure (.error e)
    | .ok page =>
      let found := page.objects :: found
      match page.continuation with
      | none => pure (.ok found.reverse.flatten)
      | some next =>
        if marker = some next then pure (.error (stuck next))
        else listFrom fetch stuck found (some next) pages

/-- All that a listing names, on no more than `pages` pages. -/
def listAll (pages : Nat) (fetch : Option String → Dialogue I (Except ε Page))
    (stuck : String → ε) : Dialogue I (Except ε (List Summary)) :=
  listFrom fetch stuck [] none pages

end BucketTransfer.ObjectStore
