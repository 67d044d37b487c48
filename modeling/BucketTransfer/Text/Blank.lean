/-!
# Blank characters

The characters with the property White_Space, and what trims and collapses runs of them.
-/
namespace BucketTransfer.Text

/-- A character with the property White_Space. -/
def isBlank (c : Char) : Bool :=
  let n := c.toNat
  decide (0x09 ≤ n ∧ n ≤ 0x0d) || n == 0x20 || n == 0x85 || n == 0xa0 || n == 0x1680
    || decide (0x2000 ≤ n ∧ n ≤ 0x200a) || n == 0x2028 || n == 0x2029 || n == 0x202f || n == 0x205f
    || n == 0x3000

/-- A list without what satisfies `p` at either end. -/
def trimWhere {α : Type} (p : α → Bool) (xs : List α) : List α :=
  ((xs.dropWhile p).reverse.dropWhile p).reverse

/-- A text without blank characters at either end. -/
def trim (s : String) : String := String.ofList (trimWhere isBlank s.toList)

/-- Each run of blank characters becomes one space; `inRun` says that the last character was
blank. -/
def collapseFrom (inRun : Bool) : List Char → List Char
  | [] => []
  | c :: cs =>
    if isBlank c then
      if inRun then collapseFrom true cs else ' ' :: collapseFrom true cs
    else c :: collapseFrom false cs

/-- A text with each run of blank characters as one space. -/
def collapse (s : String) : String := String.ofList (collapseFrom false s.toList)

end BucketTransfer.Text
