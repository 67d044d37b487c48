import BucketTransfer.Text.Hex
import BucketTransfer.Text.Number

/-!
# Labels in ASCII

A label with other characters is written as its ASCII characters, a hyphen, and digits of base 36
that say which characters go where.
-/
namespace BucketTransfer.Url.Punycode

/-- The threshold of a digit's place for a bias. -/
def threshold (place bias : Nat) : Nat := min (max (place - bias) 1) 26

/-- The bias after a delta, for a text of `size` characters. -/
def adapt (delta size : Nat) (first : Bool) : Nat :=
  let scaled := if first then delta / 700 else delta / 2
  reduce 0 (scaled + scaled / size)
where
  /-- Divides until what is left is small; `steps` counts the divisions, 36 each. -/
  reduce (steps delta : Nat) : Nat :=
    if 455 < delta then reduce (steps + 36) (delta / 35) else steps + 36 * delta / (delta + 38)
  termination_by delta
  decreasing_by omega

/-- A digit of base 36: a letter or, from 26, a decimal digit. -/
def digitChar (n : Nat) : Char :=
  if n < 26 then Char.ofNat ('a'.toNat + n) else Char.ofNat ('0'.toNat + (n - 26))

/-- A number in digits of mixed base; its places start at `place`. -/
def numberText (bias place n : Nat) : List Char :=
  let t := threshold place bias
  if n < t then [digitChar n]
  else digitChar (t + (n - t) % (36 - t)) :: numberText bias (place + 36) ((n - t) / (36 - t))
termination_by n
decreasing_by
  have h1 : 1 ≤ threshold place bias := by simp only [threshold]; omega
  have h2 : threshold place bias ≤ 26 := Nat.min_le_right ..
  have h3 : (n - threshold place bias) / (36 - threshold place bias) ≤ n - threshold place bias :=
    Nat.div_le_self ..
  omega

/-- Where encoding stands: the bias, the delta so far, and the characters written. -/
structure State where
  bias : Nat := 72
  delta : Nat := 0
  handled : Nat
  isFirst : Bool := true

/-- Passes over the label once for the character with code `code`. -/
def pass (code : Nat) : List Char → State → List Char × State
  | [], s => ([], s)
  | c :: cs, s =>
    if c.toNat < code then pass code cs { s with delta := s.delta + 1 }
    else if c.toNat = code then
      let (rest, final) := pass code cs
        { bias := adapt s.delta (s.handled + 1) s.isFirst, delta := 0, handled := s.handled + 1
          isFirst := false }
      (numberText s.bias 36 s.delta ++ rest, final)
    else pass code cs s

/-- Encodes the characters with the given codes, which increase; those up to `last` are done. -/
def encodeCodes (label : List Char) (last : Nat) (s : State) : List Nat → List Char
  | [] => []
  | code :: rest =>
    let s := { s with delta := s.delta + (code - last) * (s.handled + 1) }
    let (written, s) := pass code label s
    written ++ encodeCodes label (code + 1) { s with delta := s.delta + 1 } rest

/-- The codes above ASCII in increasing order, each once. -/
def codes (label : List Char) : List Nat :=
  (((label.map Char.toNat).filter (128 ≤ ·)).mergeSort fun a b => decide (a ≤ b)).eraseReps

/-- A label as ASCII. -/
def encode (label : List Char) : List Char :=
  let basic := label.filter fun c => decide (c.toNat < 128)
  (if basic.isEmpty then [] else basic ++ ['-'])
    ++ encodeCodes label 128 { handled := basic.length } (codes label)

/-- The value of a digit of base 36. -/
def digitOf (c : Char) : Option Nat :=
  if c.isDigit then some (c.toNat - '0'.toNat + 26)
  else if c.isAlpha then some (c.toLower.toNat - 'a'.toNat)
  else none

/-- Reads a number off digits; its places start at `place`. -/
def readNumber (bias place weight value : Nat) : List Char → Option (Nat × List Char)
  | [] => none
  | c :: cs =>
    match digitOf c with
    | none => none
    | some digit =>
      let value := value + digit * weight
      let t := threshold place bias
      if digit < t then some (value, cs)
      else if 4294967295 < value then none
      else readNumber bias (place + 36) (weight * (36 - t)) value cs

theorem length_of_readNumber {bias place weight value n : Nat} {cs rest : List Char}
    (h : readNumber bias place weight value cs = some (n, rest)) : rest.length < cs.length := by
  fun_induction readNumber bias place weight value cs <;> simp_all
  omega

/-- Inserts characters into what was read so far. -/
def decodeFrom (bias code index : Nat) (first : Bool) (done digits : List Char) :
    Option (List Char) :=
  if digits.isEmpty then some done
  else
    match _ : readNumber bias 36 1 0 digits with
    | none => none
    | some (delta, rest) =>
      let place := index + delta
      let size := done.length + 1
      let code := code + place / size
      if !code.isValidChar || code < 128 then none
      else
        let spot := place % size
        decodeFrom (adapt delta size first) code (spot + 1) false
          (done.take spot ++ Char.ofNat code :: done.drop spot) rest
termination_by digits.length
decreasing_by exact length_of_readNumber ‹_›

/-- The label that ASCII stands for. -/
def decode (cs : List Char) : Option (List Char) :=
  let digits := (cs.reverse.takeWhile (· != '-')).reverse
  let basic := cs.take (cs.length - digits.length - 1)
  decodeFrom 72 128 0 true basic digits

end BucketTransfer.Url.Punycode
