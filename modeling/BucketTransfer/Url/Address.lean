import BucketTransfer.Text.Number
import BucketTransfer.Text.Split
import BucketTransfer.Url.Error

/-!
# Addresses of hosts

Addresses of four bytes, in decimal, octal or hexadecimal, and of eight groups of sixteen bits. They
are written in their shortest usual form.
-/
namespace BucketTransfer.Url

/-- A number as it stands in an address: its base shows in what it begins with. `none` is one that
is too large. -/
def addressNumber (cs : List Char) : Except Error (Option Nat) :=
  let (base, digits) := match cs with
    | '0' :: 'x' :: rest => (16, rest)
    | '0' :: 'X' :: rest => (16, rest)
    | '0' :: d :: rest => (8, d :: rest)
    | cs => (10, cs)
  if cs.isEmpty then .error .ipv4
  else if digits.isEmpty then .ok (some 0)
  else
    match Text.readDigits base Text.maxU32 0 digits with
    | .ok n => .ok (some n)
    | .error .tooLarge =>
      if digits.all fun c => (Text.digitValue c).any (· < base) then .ok none else .error .ipv4
    | .error _ => .error .ipv4

/-- The labels of a name, without the empty one behind a dot at the end. -/
def labels (cs : List Char) : List (List Char) :=
  let all := Text.split '.' cs
  if all.getLast? = some [] then all.dropLast else all

/-- Whether a name ends in a number, so that it can only be an address. -/
def endsInNumber (cs : List Char) : Bool :=
  match Text.split '.' cs, (labels cs).getLast? with
  | [_], some last | _ :: _, some last =>
    (!last.isEmpty && last.all Char.isDigit) || (addressNumber last).toOption.isSome
  | _, none | [], _ => false

/-- The value of an address from its numbers: the last one fills the bytes that are left. -/
def ipv4Value (numbers : List Nat) : Except Error Nat :=
  match numbers.reverse with
  | [] => .error .ipv4
  | last :: before =>
    if before.any (255 < ·) || decide (1 <<< (8 * (4 - before.length)) ≤ last) then .error .ipv4
    else .ok (before.reverse.zipIdx.foldl (fun v (n, i) => v + n <<< (8 * (3 - i))) last)

/-- An address of four bytes, in its usual form. -/
def ipv4 (cs : List Char) : Except Error String := do
  let parts := labels cs
  if 4 < parts.length then .error .ipv4
  else
    let numbers ← parts.mapM fun p => do
      match ← addressNumber p with
      | some n => .ok n
      | none => .error .ipv4
    let v ← ipv4Value numbers
    return ".".intercalate
      ([v / 16777216, v / 65536 % 256, v / 256 % 256, v % 256].map toString)

/-! ## Eight groups -/

/-- One to four hexadecimal digits. -/
def group? (cs : List Char) : Option Nat :=
  if cs.length ≤ 4 then (Text.readUnsigned 16 65535 (cs.filter (· != '+'))).toOption.filter fun _ =>
    !cs.contains '+'
  else none

/-- A decimal number of one byte, without a leading zero. -/
def byte? (cs : List Char) : Option Nat :=
  if cs.all Char.isDigit && (cs.length == 1 || cs.head? != some '0') then
    (Text.readUnsigned 10 255 cs).toOption
  else none

/-- Four bytes at the end of an address, as two groups. -/
def lastGroups? (cs : List Char) : Option (List Nat) :=
  match (Text.split '.' cs).map byte? with
  | [some a, some b, some c, some d] => some [a * 256 + b, c * 256 + d]
  | _ => none

/-- Groups between colons; the last two may be written as four bytes. -/
def groups? : List (List Char) → Option (List Nat)
  | [] => some []
  | [last] => if last.contains '.' then lastGroups? last else (group? last).map ([·])
  | first :: rest => do return (← group? first) :: (← groups? rest)

/-- Splits at the first two colons in a row. -/
def splitGap (done : List Char) : List Char → Option (List Char × List Char)
  | ':' :: ':' :: rest => some (done.reverse, rest)
  | c :: rest => splitGap (c :: done) rest
  | [] => none

def side? (cs : List Char) : Option (List Nat) :=
  if cs.isEmpty then some [] else groups? (Text.split ':' cs)

/-- The eight groups of an address; two colons stand for as many zeros as are missing. -/
def ipv6Groups? (cs : List Char) : Option (List Nat) :=
  match splitGap [] cs with
  | none => (side? cs).filter fun gs => gs.length = 8
  | some (before, after) =>
    if before.contains '.' then none
    else do
      let front ← side? before
      let back ← side? after
      if front.length + back.length < 8 then
        some (front ++ List.replicate (8 - front.length - back.length) 0 ++ back)
      else none

/-- The number of zeros at the front. -/
def zeros (groups : List Nat) : Nat := (groups.takeWhile (· = 0)).length

/-- Where the longest run of two or more zeros starts, the first one of several, and its length. -/
def longestRun (groups : List Nat) : Option (Nat × Nat) :=
  (List.range 8).foldl (fun best i =>
    let n := zeros (groups.drop i)
    if 2 ≤ n && best.all (fun b => b.2 < n) then some (i, n) else best) none

/-- An address of eight groups, with its longest run of zeros left out. -/
def ipv6Text (groups : List Nat) : String :=
  let shown (gs : List Nat) : String :=
    ":".intercalate (gs.map fun g => String.ofList (Nat.toDigits 16 g))
  match longestRun groups with
  | none => shown groups
  | some (start, length) =>
    shown (groups.take start) ++ "::" ++ shown (groups.drop (start + length))

def ipv6 (cs : List Char) : Except Error String :=
  match ipv6Groups? cs with
  | some groups => .ok (ipv6Text groups)
  | none => .error .ipv6

end BucketTransfer.Url
