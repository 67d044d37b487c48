import BucketTransfer.Json.Value
import BucketTransfer.Utf8
import BucketTransfer.Text.Number

/-!
# The words of JSON text

Blanks, literals, numbers and strings, read off the front of a text. Each scanner says what is wrong
by one of three faults; where a text ends too early the fault is `truncated`.
-/
namespace BucketTransfer.Json

/-- What is wrong with a text: it is not JSON, it is not of the form asked for, or it ends early. -/
inductive Fault where
  | malformed
  | mismatch
  | truncated
  deriving DecidableEq, Repr

def Fault.category : Fault → String
  | .malformed => "syntax"
  | .mismatch => "data"
  | .truncated => "eof"

/-- The byte of an ASCII character. -/
def ascii (c : Char) : UInt8 := c.toNat.toUInt8

def isSpace (b : UInt8) : Bool := b == 0x20 || b == 0x0a || b == 0x09 || b == 0x0d

def dropSpace (input : Bytes) : Bytes := input.dropWhile isSpace

theorem length_dropSpace (input : Bytes) : (dropSpace input).length ≤ input.length :=
  (List.dropWhile_sublist isSpace).length_le

/-- Takes a given word off the front. -/
def word : List UInt8 → Bytes → Except Fault Bytes
  | [], input => .ok input
  | _ :: _, [] => .error .truncated
  | w :: ws, b :: input => if b = w then word ws input else .error .malformed

theorem length_of_word {ws : List UInt8} {input rest : Bytes} (h : word ws input = .ok rest) :
    rest.length ≤ input.length := by
  induction ws generalizing input with
  | nil => cases h; exact Nat.le_refl _
  | cons w ws ih =>
    cases input with
    | nil => simp [word] at h
    | cons b input =>
      simp only [word] at h
      split at h
      · exact Nat.le_succ_of_le (ih h)
      · cases h

/-! ## Numbers -/

def isDigit (b : UInt8) : Bool := decide (0x30 ≤ b) && decide (b ≤ 0x39)

/-- The digits in front and what follows them. -/
def digitRun (input : Bytes) : List Nat × Bytes :=
  ((input.takeWhile isDigit).map fun b => b.toNat - 0x30, input.dropWhile isDigit)

/-- Appends digits to a significand of 64 bits while there is room; also how many are left over. -/
def fill (significand : Nat) : List Nat → Nat × Nat
  | [] => (significand, 0)
  | d :: ds =>
    if significand * 10 + d ≤ Text.maxU64 then fill (significand * 10 + d) ds
    else (significand, ds.length + 1)

def powerOfTen (n : Nat) : Float := Float.ofScientific 1 false n

/-- Divides by a power of ten, `10^308` at a time. -/
def divideDown : Nat → Float → Nat → Float
  | 0, f, _ => f
  | steps + 1, f, e =>
    if e ≤ 308 then f / powerOfTen e
    else if f == 0.0 then f
    else divideDown steps (f / powerOfTen 308) (e - 308)

/-- `significand · 10^exponent` as a double, if it is finite. A 64-bit significand divided by
`10^308` twice is zero. -/
def scaled (significand : Nat) (exponent : Int) : Option Float :=
  let f := significand.toUInt64.toFloat
  if exponent < 0 then some (divideDown 4 f exponent.natAbs)
  else if 308 < exponent then if significand = 0 then some f else none
  else
    let g := f * powerOfTen exponent.toNat
    if g.isInf then none else some g

def doubleOf (negative : Bool) (significand : Nat) (exponent : Int) : Except Fault Number :=
  match scaled significand exponent with
  | none => .error .malformed
  | some f => .ok (.double (if negative then -f else f).toBits)

/-- An integer kept exactly if 64 bits hold it; minus zero is a double. -/
def integerOf (negative : Bool) (significand : Nat) : Number :=
  if !negative then .integer significand
  else if significand = 0 || 0x8000000000000000 < significand then
    .double (-significand.toUInt64.toFloat).toBits
  else .integer (-(significand : Int))

/-- The exponent after its letter; one that no double has makes zero or is refused. -/
def scanExponent (negative : Bool) (significand : Nat) (before : Int) (input : Bytes) :
    Except Fault (Number × Bytes) :=
  let signed : Bool × Bytes := match input with
    | [] => (false, [])
    | b :: rest =>
      if b = ascii '+' then (false, rest) else if b = ascii '-' then (true, rest)
      else (false, b :: rest)
  match signed.2 with
  | [] => .error .truncated
  | b :: _ =>
    if !isDigit b then .error .malformed
    else
      let run := digitRun signed.2
      let e : Nat := run.1.foldl (fun n d => n * 10 + d) 0
      if 2147483647 < e then
        if significand ≠ 0 && !signed.1 then .error .malformed
        else do .ok (← doubleOf negative 0 0, run.2)
      else
        let exponent : Int := if signed.1 then before - (e : Int) else before + (e : Int)
        do .ok (← doubleOf negative significand exponent, run.2)

/-- What may follow a significand: an exponent, or the end of the number. -/
def scanEnd (negative : Bool) (significand : Nat) (before : Int) (input : Bytes) :
    Except Fault (Number × Bytes) :=
  match input with
  | b :: rest =>
    if b = ascii 'e' || b = ascii 'E' then scanExponent negative significand before rest
    else do .ok (← doubleOf negative significand before, b :: rest)
  | [] => do .ok (← doubleOf negative significand before, [])

/-- The digits after the point, of which there is one at least. -/
def scanFraction (negative : Bool) (significand : Nat) (before : Int) (input : Bytes) :
    Except Fault (Number × Bytes) :=
  let run := digitRun input
  let filled := fill significand run.1
  if run.1.isEmpty then
    if run.2.isEmpty then .error .truncated else .error .malformed
  else scanEnd negative filled.1 (before - (run.1.length - filled.2 : Nat)) run.2

/-- A number without its sign. -/
def scanMagnitude (negative : Bool) (input : Bytes) : Except Fault (Number × Bytes) :=
  match input with
  | [] => .error .truncated
  | b :: rest =>
    if !isDigit b then .error .malformed
    else
      let run := digitRun (b :: rest)
      let filled := fill 0 run.1
      if b = ascii '0' && 1 < run.1.length then .error .malformed
      else match run.2 with
        | c :: after =>
          if c = ascii '.' then scanFraction negative filled.1 filled.2 after
          else if c = ascii 'e' || c = ascii 'E' then scanExponent negative filled.1 filled.2 after
          else if filled.2 = 0 then .ok (integerOf negative filled.1, c :: after)
          else do .ok (← doubleOf negative filled.1 filled.2, c :: after)
        | [] =>
          if filled.2 = 0 then .ok (integerOf negative filled.1, [])
          else do .ok (← doubleOf negative filled.1 filled.2, [])

/-- A number. -/
def scanNumber (input : Bytes) : Except Fault (Number × Bytes) :=
  match input with
  | [] => .error .truncated
  | b :: rest => if b = ascii '-' then scanMagnitude true rest else scanMagnitude false (b :: rest)

/-- Skips the digits of an exponent, after its letter. -/
def skipExponent (input : Bytes) : Except Fault Bytes :=
  let unsigned := match input with
    | b :: rest => if b = ascii '+' || b = ascii '-' then rest else b :: rest
    | [] => []
  if (digitRun unsigned).1.isEmpty then .error .malformed else .ok (digitRun unsigned).2

/-- Skips an exponent if there is one. -/
def skipEnd (input : Bytes) : Except Fault Bytes :=
  match input with
  | b :: rest => if b = ascii 'e' || b = ascii 'E' then skipExponent rest else .ok (b :: rest)
  | [] => .ok []

/-- Skips a number without its sign. -/
def skipMagnitude (input : Bytes) : Except Fault Bytes :=
  let run := digitRun input
  if run.1.isEmpty then .error .malformed
  else if run.1.head? = some 0 && 1 < run.1.length then .error .malformed
  else match run.2 with
    | b :: rest =>
      if b = ascii '.' then
        if (digitRun rest).1.isEmpty then .error .malformed else skipEnd (digitRun rest).2
      else skipEnd (b :: rest)
    | [] => .ok []

/-- Skips a number that nobody reads. Here a number that ends early is malformed. -/
def skipNumber (input : Bytes) : Except Fault Bytes :=
  match input with
  | b :: rest => if b = ascii '-' then skipMagnitude rest else skipMagnitude (b :: rest)
  | [] => .error .malformed

/-! ## Strings -/

/-- The value of a hexadecimal digit. -/
def hexValue (b : UInt8) : Option Nat := (Text.digitValue (Char.ofNat b.toNat)).filter (· < 16)

/-- Four hexadecimal digits. -/
def fourHex (a b c d : UInt8) : Option Nat := do
  let a ← hexValue a
  let b ← hexValue b
  let c ← hexValue c
  let d ← hexValue d
  some (((a * 16 + b) * 16 + c) * 16 + d)

/-- What a letter after a backslash stands for. -/
def unescape (b : UInt8) : Option UInt8 :=
  if b = ascii '"' then some b
  else if b = ascii '\\' then some b
  else if b = ascii '/' then some b
  else if b = ascii 'b' then some 0x08
  else if b = ascii 'f' then some 0x0c
  else if b = ascii 'n' then some 0x0a
  else if b = ascii 'r' then some 0x0d
  else if b = ascii 't' then some 0x09
  else none

/-- A half of a surrogate pair that comes first, or second. -/
def isLeading (n : Nat) : Bool := decide (0xd800 ≤ n) && decide (n ≤ 0xdbff)
def isTrailing (n : Nat) : Bool := decide (0xdc00 ≤ n) && decide (n ≤ 0xdfff)

private def push (n : Nat) (done : Bytes) : Bytes :=
  (String.utf8EncodeChar (Char.ofNat n)).reverse ++ done

/-- The bytes of a string after its opening quote; `done` holds what was read, last first. -/
def scanString (done : Bytes) : Bytes → Except Fault (Bytes × Bytes)
  | [] => .error .truncated
  | b :: rest =>
    if b = ascii '"' then .ok (done.reverse, rest)
    else if b < 0x20 then .error .malformed
    else if b ≠ ascii '\\' then scanString (b :: done) rest
    else match rest with
      | [] => .error .truncated
      | e :: rest =>
        if e ≠ ascii 'u' then
          match unescape e with
          | some c => scanString (c :: done) rest
          | none => .error .malformed
        else match rest with
          | a :: b :: c :: d :: rest =>
            match fourHex a b c d with
            | none => .error .malformed
            | some n =>
              if isTrailing n then .error .malformed
              else if !isLeading n then scanString (push n done) rest
              else match rest with
                | [] => .error .truncated
                | s :: rest =>
                  if s ≠ ascii '\\' then .error .malformed
                  else match rest with
                    | [] => .error .truncated
                    | u :: rest =>
                      if u ≠ ascii 'u' then .error .malformed
                      else match rest with
                        | a :: b :: c :: d :: rest =>
                          match fourHex a b c d with
                          | none => .error .malformed
                          | some m =>
                            if isTrailing m then
                              scanString
                                (push (0x10000 + (n - 0xd800) * 0x400 + (m - 0xdc00)) done) rest
                            else .error .malformed
                        | _ => .error .truncated
          | _ => .error .truncated

/-- Skips a string that nobody reads, after its opening quote. Its characters are not looked at. -/
def skipString : Bytes → Except Fault Bytes
  | [] => .error .truncated
  | b :: rest =>
    if b = ascii '"' then .ok rest
    else if b < 0x20 then .error .malformed
    else if b ≠ ascii '\\' then skipString rest
    else match rest with
      | [] => .error .truncated
      | e :: rest =>
        if e ≠ ascii 'u' then
          if (unescape e).isSome then skipString rest else .error .malformed
        else match rest with
          | a :: b :: c :: d :: rest =>
            if (fourHex a b c d).isSome then skipString rest else .error .malformed
          | _ => .error .truncated

/-- A string after its opening quote, as a text. -/
def scanText (input : Bytes) : Except Fault (String × Bytes) := do
  let (bytes, rest) ← scanString [] input
  match Utf8.decode? bytes with
  | some s => .ok (s, rest)
  | none => .error .malformed

/-! ## Scanners take something off the front -/

theorem exists_of_bind_eq_ok {α β : Type} {x : Except Fault α} {f : α → Except Fault β} {b : β}
    (h : x >>= f = .ok b) : ∃ a, x = .ok a ∧ f a = .ok b := by
  cases x with
  | error e => cases h
  | ok a => exact ⟨a, rfl, h⟩

theorem length_digitRun (input : Bytes) :
    (digitRun input).1.length + (digitRun input).2.length = input.length := by
  simp only [digitRun, List.length_map, ← List.length_append, List.takeWhile_append_dropWhile]

private theorem length_of_pair {x : Except Fault Number} {n : Number} {r rest : Bytes}
    (h : (x >>= fun a => .ok (a, r)) = .ok (n, rest)) : rest = r := by
  obtain ⟨a, _, h⟩ := exists_of_bind_eq_ok h
  cases h; rfl

theorem length_of_scanExponent {negative : Bool} {significand : Nat} {before : Int}
    {input rest : Bytes} {n : Number}
    (h : scanExponent negative significand before input = .ok (n, rest)) :
    rest.length ≤ input.length := by
  unfold scanExponent at h
  revert h
  generalize hs : (match input with
    | [] => (false, [])
    | b :: rest =>
      if b = ascii '+' then (false, rest) else if b = ascii '-' then (true, rest)
      else (false, b :: rest) : Bool × Bytes) = signed
  intro h
  have le : signed.2.length ≤ input.length := by
    subst hs
    split
    · exact Nat.le_refl _
    · repeat' split
      all_goals simp
  have run := length_digitRun signed.2
  simp only at h
  split at h
  · cases h
  · repeat' split at h
    · cases h
    · cases h
    all_goals
      rw [length_of_pair h]
      omega

theorem length_of_scanEnd {negative : Bool} {significand : Nat} {before : Int}
    {input rest : Bytes} {n : Number}
    (h : scanEnd negative significand before input = .ok (n, rest)) :
    rest.length ≤ input.length := by
  unfold scanEnd at h
  repeat' split at h
  · exact Nat.le_succ_of_le (length_of_scanExponent h)
  · exact Nat.le_of_eq (congrArg _ (length_of_pair h))
  · exact Nat.le_of_eq (congrArg _ (length_of_pair h))

theorem length_of_scanFraction {negative : Bool} {significand : Nat} {before : Int}
    {input rest : Bytes} {n : Number}
    (h : scanFraction negative significand before input = .ok (n, rest)) :
    rest.length ≤ input.length := by
  unfold scanFraction at h
  have run := length_digitRun input
  simp only at h
  repeat' split at h
  · cases h
  · cases h
  · have := length_of_scanEnd h
    omega

theorem length_of_scanMagnitude {negative : Bool} {input rest : Bytes} {n : Number}
    (h : scanMagnitude negative input = .ok (n, rest)) : rest.length < input.length := by
  unfold scanMagnitude at h
  split at h
  · cases h
  · next b tail =>
    have run := length_digitRun (b :: tail)
    split at h
    · cases h
    · next digit =>
      have one : 0 < (digitRun (b :: tail)).1.length := by
        simp only [Bool.not_eq_true, Bool.not_eq_false'] at digit
        simp [digitRun, digit]
      simp only at h
      split at h
      · cases h
      · split at h
        · next c after heq =>
          rw [heq, List.length_cons] at run
          repeat' split at h
          · have := length_of_scanFraction h
            omega
          · have := length_of_scanExponent h
            omega
          · cases h
            simp only [List.length_cons] at run ⊢
            omega
          · rw [length_of_pair h]
            simp only [List.length_cons] at run ⊢
            omega
        · split at h
          · cases h; simp
          · rw [length_of_pair h]; simp

theorem length_of_scanNumber {input rest : Bytes} {n : Number}
    (h : scanNumber input = .ok (n, rest)) : rest.length < input.length := by
  unfold scanNumber at h
  repeat' split at h
  · cases h
  · exact Nat.lt_succ_of_lt (length_of_scanMagnitude h)
  · exact length_of_scanMagnitude h

theorem length_of_skipExponent {input rest : Bytes} (h : skipExponent input = .ok rest) :
    rest.length ≤ input.length := by
  unfold skipExponent at h
  revert h
  generalize hs : (match input with
    | b :: rest => if b = ascii '+' || b = ascii '-' then rest else b :: rest
    | [] => [] : Bytes) = unsigned
  intro h
  have le : unsigned.length ≤ input.length := by
    subst hs
    repeat' split
    all_goals simp
  have run := length_digitRun unsigned
  simp only at h
  split at h
  · cases h
  · cases h; omega

theorem length_of_skipEnd {input rest : Bytes} (h : skipEnd input = .ok rest) :
    rest.length ≤ input.length := by
  unfold skipEnd at h
  repeat' split at h
  · exact Nat.le_succ_of_le (length_of_skipExponent h)
  · cases h; exact Nat.le_refl _
  · cases h; exact Nat.le_refl _

theorem length_of_skipMagnitude {input rest : Bytes} (h : skipMagnitude input = .ok rest) :
    rest.length < input.length := by
  unfold skipMagnitude at h
  have run := length_digitRun input
  simp only at h
  split at h
  · cases h
  · next some =>
    have one : 0 < (digitRun input).1.length := by
      cases hd : (digitRun input).1 with
      | nil => simp [hd] at some
      | cons d ds => simp
    split at h
    · cases h
    · split at h
      · next b after heq =>
        rw [heq, List.length_cons] at run
        have := length_digitRun after
        repeat' split at h
        · cases h
        · have := length_of_skipEnd h
          omega
        · have := length_of_skipEnd h
          simp only [List.length_cons] at this
          omega
      · cases h
        simp only [List.length_nil]
        omega

theorem length_of_skipNumber {input rest : Bytes} (h : skipNumber input = .ok rest) :
    rest.length < input.length := by
  unfold skipNumber at h
  repeat' split at h
  · exact Nat.lt_succ_of_lt (length_of_skipMagnitude h)
  · exact length_of_skipMagnitude h
  · cases h

theorem length_of_scanString {done input s rest : Bytes}
    (h : scanString done input = .ok (s, rest)) : rest.length < input.length := by
  fun_induction scanString done input <;> simp_all <;> omega

theorem length_of_scanText {input rest : Bytes} {s : String}
    (h : scanText input = .ok (s, rest)) : rest.length < input.length := by
  obtain ⟨⟨bytes, r⟩, hb, h⟩ := exists_of_bind_eq_ok h
  simp only at h
  split at h
  · cases h; exact length_of_scanString hb
  · cases h

theorem length_of_skipString {input rest : Bytes} (h : skipString input = .ok rest) :
    rest.length < input.length := by
  fun_induction skipString input <;> simp_all <;> omega

end BucketTransfer.Json
